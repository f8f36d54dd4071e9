import CredentialWrites.Proofs.Value.Comparison

/-!
# Nested values

Callers nest mappings, views, lists, tuples and sets in each other, over values without parts; a set
has no member twice, a mapping no key. The records of the domain nest values as their fields. On
such values being the same is an order of its own kind: what is the same as the same is the same.
The induction is on the nesting, and a set or a mapping is left at each of its members.

* `Value.Nested` : the nested values, with records among them or without.
* `Value.Nested.same_trans` : what is the same as the same is the same.
-/

namespace CredentialWrites

theorem forall₂_exists_left {α β : Type} {p : α → β → Prop} {as : List α} {bs : List β}
    (h : List.Forall₂ p as bs) {b : β} (hb : b ∈ bs) : ∃ a ∈ as, p a b := by
  induction h with
  | nil => cases hb
  | cons hab _ ih =>
    rcases List.mem_cons.1 hb with rfl | hb
    · exact ⟨_, List.mem_cons_self, hab⟩
    · obtain ⟨a, ha, hp⟩ := ih hb
      exact ⟨a, List.mem_cons_of_mem _ ha, hp⟩

theorem forall₂_exists_right {α β : Type} {p : α → β → Prop} {as : List α} {bs : List β}
    (h : List.Forall₂ p as bs) {a : α} (ha : a ∈ as) : ∃ b ∈ bs, p a b :=
  forall₂_exists_left h.flip ha

theorem exists_forall₂ {α β : Type} {p : α → β → Prop} {as : List α} (h : ∀ a ∈ as, ∃ b, p a b) :
    ∃ bs, List.Forall₂ p as bs := by
  induction as with
  | nil => exact ⟨[], .nil⟩
  | cons a as ih =>
    rw [List.forall_mem_cons] at h
    obtain ⟨⟨b, hb⟩, h⟩ := h
    obtain ⟨bs, hbs⟩ := ih h
    exact ⟨b :: bs, .cons hb hbs⟩

theorem forall₂_imp_of_mem {α β : Type} {p q : α → β → Prop} {as : List α} {bs : List β}
    (h : List.Forall₂ p as bs) (himp : ∀ a ∈ as, ∀ b, p a b → q a b) : List.Forall₂ q as bs :=
  ((List.forall₂_and_left _ _).2 ⟨himp, h⟩).imp fun _ b h => h.1 b h.2

theorem eq_of_forall₂ {α : Type} {p : α → Prop} {as bs : List α}
    (h : List.Forall₂ (fun a b => p a → b = a) as bs) (hp : ∀ a ∈ as, p a) : bs = as := by
  induction h with
  | nil => rfl
  | cons h _ ih =>
    rw [List.forall_mem_cons] at hp
    rw [h hp.1, ih hp.2]

namespace Value

/-- The values can be the members of a set or the keys of a mapping: each is hashable, and none is
alike one before it. -/
structure AreMembers (vs : List Value) : Prop where
  hashable : ∀ v ∈ vs, v.unhashable? = none
  apart : noneAlike vs

/-- The value is nested from mappings, views, lists, tuples, sets, frozen sets and scalars, and from
records if there may be any. A document is a record of one mapping. -/
inductive Nested (records : Bool) : Value → Prop where
  | scalar {v : Value} (h : v.isScalar) : Nested records v
  | tuple {items : List Value} (h : ∀ v ∈ items, Nested records v) : Nested records (.tuple items)
  | list {c : Cell} {items : List Value} (h : ∀ v ∈ items, Nested records v) :
    Nested records (.list c items)
  | members {v : Value} {items : List Value} (hv : v.members? = some items)
      (hitems : AreMembers items)
    (h : ∀ w ∈ items, Nested records w) : Nested records v
  | entries {v : Value} {es : List (Value × Value)} (hv : v.entries? = some es)
    (hkeys : AreMembers (es.map Prod.fst)) (hkey : ∀ e ∈ es, Nested records e.1)
    (hvalue : ∀ e ∈ es, Nested records e.2) : Nested records v
  | record {kind : RecordKind} {fields : List Value} (hrecords : records)
    (hdocument : kind = .json → ∃ v es, fields = [v] ∧ v.entries? = some es)
    (h : ∀ v ∈ fields, Nested records v) : Nested records (.record kind fields)

variable {records : Bool} {a b c v : Value} {items : List Value} {es : List (Value × Value)}

/-! ### Nested values by their kinds -/

theorem nested_tuple_iff : Nested records (tuple items) ↔ ∀ v ∈ items, Nested records v := by
  constructor
  · intro h
    cases h with
    | tuple h => exact h
    | scalar h | members h | entries h => cases h
  · exact .tuple

theorem nested_list_iff {cell : Cell} :
    Nested records (list cell items) ↔ ∀ v ∈ items, Nested records v := by
  constructor
  · intro h
    cases h with
    | list h => exact h
    | scalar h | members h | entries h => cases h
  · exact .list

theorem nested_members_iff (hv : v.members? = some items) :
    Nested records v ↔ AreMembers items ∧ ∀ w ∈ items, Nested records w := by
  constructor
  · intro h
    cases h with
    | members hv' hitems h =>
      obtain rfl := Option.some.inj (hv.symm.trans hv')
      exact ⟨hitems, h⟩
    | scalar h | entries h => cases v <;> cases hv <;> cases h
    | tuple _ | list _ | record _ _ => cases hv
  · exact fun h => .members hv h.1 h.2

theorem nested_entries_iff (hv : v.entries? = some es) :
    Nested records v ↔ AreMembers (es.map Prod.fst) ∧ (∀ e ∈ es, Nested records e.1) ∧
      ∀ e ∈ es, Nested records e.2 := by
  constructor
  · intro h
    cases h with
    | entries hv' hkeys hkey hvalue =>
      obtain rfl := Option.some.inj (hv.symm.trans hv')
      exact ⟨hkeys, hkey, hvalue⟩
    | scalar h | members h => cases v <;> cases hv <;> cases h
    | tuple _ | list _ | record _ _ => cases hv
  · exact fun h => .entries hv h.1 h.2.1 h.2.2

theorem nested_record_iff {kind : RecordKind} :
    Nested records (record kind items) ↔ records ∧
      (kind = .json → ∃ v es, items = [v] ∧ v.entries? = some es) ∧ ∀ v ∈ items,
        Nested records v := by
  constructor
  · intro h
    cases h with
    | record hrecords hdocument h => exact ⟨hrecords, hdocument, h⟩
    | scalar h | members h | entries h => cases h
  · exact fun h => .record h.1 h.2.1 h.2.2

/-- What is nested without records may be part of a record. -/
theorem Nested.mono (h : Nested false v) : Nested records v := by
  induction h with
  | scalar h => exact .scalar h
  | tuple _ ih => exact .tuple ih
  | list _ ih => exact .list ih
  | members hv hitems _ ih => exact .members hv hitems ih
  | entries hv hkeys _ _ ihkey ihvalue => exact .entries hv hkeys ihkey ihvalue
  | record hrecords _ _ => cases hrecords

/-! ### What can be hashed -/

theorem unhashable?_tuple_iff :
    (tuple items).unhashable? = none ↔ ∀ v ∈ items, v.unhashable? = none := by
  rw [unhashable?, unhashableAmong?_eq_none_iff]

theorem unhashable?_of_isScalar (h : v.isScalar) : v.unhashable? = none := by
  cases v <;> first | rfl | cases h

/-- A set that can be hashed is frozen. -/
theorem eq_frozenSet_of_members (hv : v.members? = some items) (h : v.unhashable? = none) :
    v = frozenSet items := by
  cases v <;> cases hv <;> first | rfl | cases h

theorem unhashable?_of_entries (hv : v.entries? = some es) : v.unhashable? ≠ none := by
  cases v <;> cases hv <;> simp [unhashable?]

/-! ### What is the same as the same -/

theorem exists_atom_of_isScalar (h : v.isScalar) : ∃ x, v.atom? = some x := by
  cases v <;> first | exact ⟨_, rfl⟩ | cases h

theorem forall₂_same_trans {xs ys zs : List Value}
    (ih : ∀ x ∈ xs, ∀ {y z : Value}, same x y → same y z → same x z)
    (hxy : List.Forall₂ (fun x y => same x y) xs ys)
    (hyz : List.Forall₂ (fun x y => same x y) ys zs) :
    List.Forall₂ (fun x y => same x y) xs zs :=
  forall₂_comp (fun _ _ _ hx hyz => hx.1 hx.2 hyz) ((List.forall₂_and_left _ _).2 ⟨ih, hxy⟩) hyz

/-- What is the same as the same is the same. Only the first of the three values has to be
nested. -/
theorem Nested.same_trans (ha : Nested records a) (hab : same a b) (hbc : same b c) : same a c := by
  induction ha generalizing b c with
  | scalar h =>
    obtain ⟨x, hx⟩ := exists_atom_of_isScalar h
    rw [same_atom_iff hx] at hab ⊢
    exact (same_atom_iff hab).1 hbc
  | tuple _ ih =>
    obtain ⟨ys, rfl, hys⟩ := same_tuple_iff.1 hab
    obtain ⟨zs, rfl, hzs⟩ := same_tuple_iff.1 hbc
    exact same_tuple_iff.2 ⟨zs, rfl, forall₂_same_trans ih hys hzs⟩
  | list _ ih =>
    obtain ⟨_, ys, rfl, hys⟩ := same_list_iff.1 hab
    obtain ⟨d, zs, rfl, hzs⟩ := same_list_iff.1 hbc
    exact same_list_iff.2 ⟨d, zs, rfl, forall₂_same_trans ih hys hzs⟩
  | record _ _ _ ih =>
    obtain ⟨ys, rfl, hys⟩ := same_record_iff.1 hab
    obtain ⟨zs, rfl, hzs⟩ := same_record_iff.1 hbc
    exact same_record_iff.2 ⟨zs, rfl, forall₂_same_trans ih hys hzs⟩
  | members hv _ _ ih =>
    obtain ⟨ys, hys, hlength, hxy⟩ := (same_members_iff hv).1 hab
    obtain ⟨zs, hzs, hlength', hyz⟩ := (same_members_iff hys).1 hbc
    refine (same_members_iff hv).2 ⟨zs, hzs, hlength.trans hlength', fun x hx => ?_⟩
    obtain ⟨y, hy, hxy⟩ := hxy x hx
    obtain ⟨z, hz, hyz⟩ := hyz y hy
    exact ⟨z, hz, ih x hx hxy hyz⟩
  | entries hv _ _ _ ihkey ihvalue =>
    obtain ⟨ds, hds, hlength, hed⟩ := (same_entries_iff hv).1 hab
    obtain ⟨ds', hds', hlength', hdd⟩ := (same_entries_iff hds).1 hbc
    refine (same_entries_iff hv).2 ⟨ds', hds', hlength.trans hlength', fun e he => ?_⟩
    obtain ⟨d, hd, hkey, hvalue⟩ := hed e he
    obtain ⟨d', hd', hkey', hvalue'⟩ := hdd d hd
    exact ⟨d', hd', ihkey e he hkey hkey', ihvalue e he hvalue hvalue'⟩

end Value

end CredentialWrites
