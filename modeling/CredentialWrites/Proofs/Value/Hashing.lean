import CredentialWrites.Proofs.Value.Nested

/-!
# Equality and hashing

Two nested values that are equal have equal hashable forms, though the one is told by comparing
mappings and sets without their order, and the other is made by turning each of them into a frozen
set. The forms can be hashed, and have no member twice. So a value and another that may both be
members of a set are one member exactly if they are equal.

* `Value.HasForm` : the hashable form of a value, if it can be hashed.
* `Value.Nested.same_form` : values that are the same have the same form.
* `Value.Nested.exists_form` : every nested value has a form.
* `Value.Nested.same_symm` : what is the same one way is the same the other way.
* `Value.distinct_pair` : the set of two values.
-/

namespace CredentialWrites

/-- Each item of a list is matched in another one of the same length. If no item of that matches two
of the first, then each of its items is matched too. -/
theorem exists_of_matched {α β : Type} {p : α → β → Prop} {as : List α} {bs : List β}
    (hlength : as.length = bs.length) (hmatched : ∀ a ∈ as, ∃ b ∈ bs, p a b)
    (hapart : as.Pairwise fun a a' => ∀ b ∈ bs, p a b → ¬ p a' b) : ∀ b ∈ bs, ∃ a ∈ as, p a b := by
  induction as generalizing bs with
  | nil =>
    obtain rfl := List.length_eq_zero_iff.1 hlength.symm
    simp
  | cons a as ih =>
    rw [List.forall_mem_cons] at hmatched
    rw [List.pairwise_cons] at hapart
    obtain ⟨⟨b, hb, hab⟩, hmatched⟩ := hmatched
    obtain ⟨before, after, rfl⟩ := List.append_of_mem hb
    -- without the match of the first item there are as many as without that item
    have hrest : ∀ b' ∈ before ++ after, ∃ a' ∈ as, p a' b' := by
      refine ih ?_ (fun a' ha' => ?_) (hapart.2.imp fun h b' hb' => h b' ?_)
      · simp only [List.length_cons, List.length_append] at hlength ⊢
        omega
      · obtain ⟨b', hb', hp⟩ := hmatched a' ha'
        have hne : b' ≠ b := by
          rintro rfl
          exact hapart.1 a' ha' b' hb hab hp
        exact ⟨b', by simpa [hne] using hb', hp⟩
      · simp only [List.mem_append, List.mem_cons] at hb' ⊢
        tauto
    intro b' hb'
    by_cases heq : b' = b
    · exact ⟨a, List.mem_cons_self, heq ▸ hab⟩
    · obtain ⟨a', ha', hp⟩ := hrest b' (by simpa [heq] using hb')
      exact ⟨a', List.mem_cons_of_mem _ ha', hp⟩

theorem pairwise_of_forall₂ {α β : Type} {p : α → β → Prop} {r : α → α → Prop} {q : β → β → Prop}
    {as : List α} {bs : List β} (h : List.Forall₂ p as bs) (hr : as.Pairwise r)
    (hq : ∀ a b a' b', p a b → p a' b' → r a a' → q b b') : bs.Pairwise q := by
  induction h with
  | nil => exact .nil
  | cons hab hrest ih =>
    rw [List.pairwise_cons] at hr ⊢
    refine ⟨fun b' hb' => ?_, ih hr.2⟩
    obtain ⟨a', ha', hab'⟩ := forall₂_exists_left hrest hb'
    exact hq _ _ _ _ hab hab' (hr.1 a' ha')

namespace Value

variable {records : Bool} {a b v w fa fb form : Value} {items : List Value}
    {es : List (Value × Value)}

/-! ### Forms -/

/-- The value has a hashable form, and that can be hashed. -/
def HasForm (v form : Value) : Prop :=
  hashForm v = .ok (form, none)

theorem hashFormAll_eq_ok_iff {vs forms : List Value} :
    hashFormAll vs = .ok (forms, none) ↔ List.Forall₂ HasForm vs forms := by
  induction vs generalizing forms with
  | nil => cases forms <;> simp [hashFormAll]
  | cons v vs ih =>
    simp only [hashFormAll, Except.bind_eq_ok, Except.pure_eq_ok, Prod.exists, Prod.mk.injEq,
      Option.or_eq_none_iff, List.forall₂_cons_left_iff, ← ih, HasForm]
    constructor
    · rintro ⟨form, _, hform, forms, _, hforms, rfl, rfl, rfl⟩
      exact ⟨form, forms, hform, hforms, rfl⟩
    · rintro ⟨form, forms, hform, hforms, rfl⟩
      exact ⟨form, none, hform, forms, none, hforms, rfl, rfl, rfl⟩

theorem hashFormMembers_eq_ok_iff {vs forms : List Value} :
    hashFormMembers vs = .ok forms ↔ List.Forall₂ HasForm vs forms := by
  induction vs generalizing forms with
  | nil => cases forms <;> simp [hashFormMembers]
  | cons v vs ih =>
    simp only [hashFormMembers, Except.bind_eq_ok, Prod.exists,
      List.forall₂_cons_left_iff, ← ih, HasForm]
    constructor
    · rintro ⟨form, _ | why, hform, h⟩
      · obtain ⟨forms, hforms, rfl⟩ := Except.map_eq_ok.1 h
        exact ⟨form, forms, hform, hforms, rfl⟩
      · cases h
    · rintro ⟨form, forms, hform, hforms, rfl⟩
      exact ⟨form, none, hform, Except.map_eq_ok.2 ⟨forms, hforms, rfl⟩⟩

/-- What an entry becomes in the form of a mapping: a pair of its key as it is and a form of its
value. -/
def PairBy (p : Value → Value → Prop) (e : Value × Value) (pair : Value) : Prop :=
  ∃ form, p e.2 form ∧ pair = tuple [e.1, form]

theorem hashFormEntries_eq_ok_iff {pairs : List Value} :
    hashFormEntries es = .ok pairs ↔ List.Forall₂ (PairBy HasForm) es pairs := by
  induction es generalizing pairs with
  | nil => cases pairs <;> simp [hashFormEntries]
  | cons e es ih =>
    obtain ⟨k, v⟩ := e
    simp only [hashFormEntries, Except.bind_eq_ok, Prod.exists, List.forall₂_cons_left_iff, ← ih]
    constructor
    · rintro ⟨form, _ | why, hform, h⟩
      · obtain ⟨pairs, hpairs, rfl⟩ := Except.map_eq_ok.1 h
        exact ⟨_, pairs, ⟨form, hform, rfl⟩, hpairs, rfl⟩
      · cases h
    · rintro ⟨_, pairs, ⟨form, hform, rfl⟩, hpairs, rfl⟩
      exact ⟨form, none, hform, Except.map_eq_ok.2 ⟨pairs, hpairs, rfl⟩⟩

theorem hasForm_tuple_iff :
    HasForm (tuple items) form ↔ ∃ forms, List.Forall₂ HasForm items forms ∧
      form = tuple forms := by
  simp only [HasForm, hashForm, Except.bind_eq_ok, Except.pure_eq_ok, ← hashFormAll_eq_ok_iff,
    Prod.exists, Prod.mk.injEq]
  constructor
  · rintro ⟨forms, _, hforms, rfl, rfl⟩
    exact ⟨forms, hforms, rfl⟩
  · rintro ⟨forms, hforms, rfl⟩
    exact ⟨forms, none, hforms, rfl, rfl⟩

theorem hasForm_list_iff {c : Cell} :
    HasForm (list c items) form ↔ HasForm (tuple items) form := by
  rw [HasForm, HasForm, hashForm, hashForm]

theorem hasForm_members_iff (hv : v.members? = some items) :
    HasForm v form ↔ ∃ forms, List.Forall₂ HasForm items forms ∧ form = frozenSet forms := by
  have hform : hashForm v = (fun forms => (frozenSet forms, none)) <$> hashFormMembers items := by
    cases v <;> cases hv <;> rfl
  simp only [HasForm, hform, Except.map_eq_ok, hashFormMembers_eq_ok_iff, Prod.mk.injEq, and_true]
  exact exists_congr fun forms => and_congr_right fun _ => eq_comm

theorem hasForm_entries_iff (hv : v.entries? = some es) :
    HasForm v form ↔ ∃ pairs, List.Forall₂ (PairBy HasForm) es pairs ∧ form = frozenSet pairs := by
  have hform : hashForm v = (fun pairs => (frozenSet pairs, none)) <$> hashFormEntries es := by
    cases v <;> cases hv <;> rfl
  simp only [HasForm, hform, Except.map_eq_ok, hashFormEntries_eq_ok_iff, Prod.mk.injEq, and_true]
  exact exists_congr fun pairs => and_congr_right fun _ => eq_comm

theorem hasForm_of_isScalar (h : v.isScalar) : HasForm v v := by
  cases v <;> first | rfl | cases h

/-- What has an atom and a form is its own form: only bytes that can be changed have none. -/
theorem HasForm.eq_of_atom? {x : Atom} (h : HasForm v form) (hv : v.atom? = some x) : form = v := by
  unfold HasForm at h
  cases v <;> simp_all [hashForm, atom?, number?]

theorem HasForm.eq_record {kind : RecordKind} (h : HasForm (record kind items) form) :
    form = record kind items := by
  simp only [HasForm, hashForm, Except.ok.injEq, Prod.mk.injEq] at h
  exact h.1.symm

/-! ### What is the same has the same form -/

theorem forall₂_same_form {xs ys fxs fys : List Value}
    (ih : ∀ x ∈ xs, ∀ {y fx fy : Value}, same x y → HasForm x fx → HasForm y fy → same fx fy)
    (hxy : List.Forall₂ (fun x y => same x y) xs ys) (hx : List.Forall₂ HasForm xs fxs)
    (hy : List.Forall₂ HasForm ys fys) : List.Forall₂ (fun x y => same x y) fxs fys := by
  induction hxy generalizing fxs fys with
  | nil =>
    cases hx
    cases hy
    exact .nil
  | cons hxy _ ihs =>
    rw [List.forall_mem_cons] at ih
    obtain _ | ⟨hx, hxs⟩ := hx
    obtain _ | ⟨hy, hys⟩ := hy
    exact .cons (ih.1 hxy hx hy) (ihs ih.2 hxs hys)

/-- What is the same has the same form, if both have one. -/
theorem Nested.same_form (ha : Nested records a) (hab : same a b) (hfa : HasForm a fa)
    (hfb : HasForm b fb) : same fa fb := by
  induction ha generalizing b fa fb with
  | scalar h =>
    obtain ⟨x, hx⟩ := exists_atom_of_isScalar h
    have hb := (same_atom_iff hx).1 hab
    rw [hfa.eq_of_atom? hx, hfb.eq_of_atom? hb]
    exact hab
  | tuple _ ih =>
    obtain ⟨ys, rfl, hys⟩ := same_tuple_iff.1 hab
    obtain ⟨fxs, hfxs, rfl⟩ := hasForm_tuple_iff.1 hfa
    obtain ⟨fys, hfys, rfl⟩ := hasForm_tuple_iff.1 hfb
    exact same_tuple_iff.2 ⟨fys, rfl, forall₂_same_form ih hys hfxs hfys⟩
  | list _ ih =>
    obtain ⟨_, ys, rfl, hys⟩ := same_list_iff.1 hab
    obtain ⟨fxs, hfxs, rfl⟩ := hasForm_tuple_iff.1 (hasForm_list_iff.1 hfa)
    obtain ⟨fys, hfys, rfl⟩ := hasForm_tuple_iff.1 (hasForm_list_iff.1 hfb)
    exact same_tuple_iff.2 ⟨fys, rfl, forall₂_same_form ih hys hfxs hfys⟩
  | members hv _ _ ih =>
    obtain ⟨ys, hys, hlength, hxy⟩ := (same_members_iff hv).1 hab
    obtain ⟨fxs, hfxs, rfl⟩ := (hasForm_members_iff hv).1 hfa
    obtain ⟨fys, hfys, rfl⟩ := (hasForm_members_iff hys).1 hfb
    refine (same_members_iff rfl).2 ⟨fys, rfl, ?_, fun fx hfx => ?_⟩
    · rw [← hfxs.length_eq, hlength, hfys.length_eq]
    · obtain ⟨x, hx, hform⟩ := forall₂_exists_left hfxs hfx
      obtain ⟨y, hy, hxy⟩ := hxy x hx
      obtain ⟨fy, hfy, hform'⟩ := forall₂_exists_right hfys hy
      exact ⟨fy, hfy, ih x hx hxy hform hform'⟩
  | entries hv _ _ _ _ ihvalue =>
    obtain ⟨ds, hds, hlength, hed⟩ := (same_entries_iff hv).1 hab
    obtain ⟨pairs, hpairs, rfl⟩ := (hasForm_entries_iff hv).1 hfa
    obtain ⟨pairs', hpairs', rfl⟩ := (hasForm_entries_iff hds).1 hfb
    refine (same_members_iff rfl).2 ⟨pairs', rfl, ?_, fun pair hpair => ?_⟩
    · rw [← hpairs.length_eq, hlength, hpairs'.length_eq]
    · obtain ⟨e, he, form, hform, rfl⟩ := forall₂_exists_left hpairs hpair
      obtain ⟨d, hd, hkey, hvalue⟩ := hed e he
      obtain ⟨_, hpair', form', hform', rfl⟩ := forall₂_exists_right hpairs' hd
      refine ⟨_, hpair', same_tuple_iff.2 ⟨_, rfl, ?_⟩⟩
      exact .cons hkey (.cons (ihvalue e he hvalue hform hform') .nil)
  | record _ _ _ _ =>
    obtain ⟨ys, rfl, -⟩ := same_record_iff.1 hab
    rw [hfa.eq_record, hfb.eq_record]
    exact hab

/-! ### Every nested value has a form -/

theorem noneAlike_iff {vs : List Value} :
    noneAlike vs ↔ vs.Pairwise fun v w => alike w v = false := by
  induction vs with
  | nil => simp [noneAlike]
  | cons v vs ih => simp [noneAlike, ih]

/-- Pairs with other keys are other pairs. -/
theorem alike_of_alike_tuple {k k' : Value} (h : alike (tuple [k, v]) (tuple [k', w])) :
    alike k k' := by
  simp only [alike, same, sameAll, hashKey, hashKeyAll, Bool.and_eq_true] at h ⊢
  exact ⟨h.1.1, h.2.1⟩

/-- A form of a value that can be hashed and holds no member twice. What can be hashed is its own
form. -/
structure IsForm (v form : Value) : Prop where
  hasForm : HasForm v form
  hashable : form.unhashable? = none
  nested : Nested false form
  eq_of_hashable : v.unhashable? = none → form = v

theorem IsForm.tuple {forms : List Value} (h : List.Forall₂ IsForm items forms) :
    IsForm (tuple items) (tuple forms) := by
  have hforms : ∀ form ∈ forms, form.unhashable? = none ∧ Nested false form := by
    intro form hform
    obtain ⟨v, -, h⟩ := forall₂_exists_left h hform
    exact ⟨h.hashable, h.nested⟩
  refine ⟨hasForm_tuple_iff.2 ⟨forms, h.imp fun _ _ h => h.hasForm, rfl⟩,
    unhashable?_tuple_iff.2 fun form hform => (hforms form hform).1,
    .tuple fun form hform => (hforms form hform).2, fun hitems => ?_⟩
  rw [eq_of_forall₂ (h.imp fun _ _ h => h.eq_of_hashable) (unhashable?_tuple_iff.1 hitems)]

/-- The pairs of a mapping can be the members of a set, as its keys are all different. -/
theorem AreMembers.pairs {pairs : List Value} (hkeys : AreMembers (es.map Prod.fst))
    (h : List.Forall₂ (PairBy IsForm) es pairs) : AreMembers pairs where
  hashable pair hpair := by
    obtain ⟨e, he, form, hform, rfl⟩ := forall₂_exists_left h hpair
    have hkey := hkeys.hashable e.1 (List.mem_map_of_mem he)
    simp [unhashable?_tuple_iff, hkey, hform.hashable]
  apart := by
    have hpairwise := noneAlike_iff.1 hkeys.apart
    rw [List.pairwise_map] at hpairwise
    refine noneAlike_iff.2 (pairwise_of_forall₂ h hpairwise ?_)
    rintro e _ e' _ ⟨form, -, rfl⟩ ⟨form', -, rfl⟩ hne
    by_contra halike
    rw [Bool.not_eq_false] at halike
    rw [alike_of_alike_tuple halike] at hne
    cases hne

/-- Every nested value has a form. -/
theorem Nested.exists_form (h : Nested false v) : ∃ form, IsForm v form := by
  induction h with
  | @scalar v h =>
    exact ⟨v, hasForm_of_isScalar h, unhashable?_of_isScalar h, .scalar h, fun _ => rfl⟩
  | tuple _ ih =>
    obtain ⟨forms, hforms⟩ := exists_forall₂ ih
    exact ⟨_, .tuple hforms⟩
  | list _ ih =>
    obtain ⟨forms, hforms⟩ := exists_forall₂ ih
    have htuple := IsForm.tuple hforms
    exact ⟨_, hasForm_list_iff.2 htuple.hasForm, htuple.hashable, htuple.nested,
      by simp [unhashable?]⟩
  | @members v items hv hitems h ih =>
    -- the members can be hashed, so that they are their own forms
    obtain ⟨forms, hforms⟩ := exists_forall₂ ih
    obtain rfl := eq_of_forall₂ (hforms.imp fun _ _ h => h.eq_of_hashable) hitems.hashable
    refine ⟨_, (hasForm_members_iff hv).2 ⟨_, hforms.imp fun _ _ h => h.hasForm, rfl⟩, rfl,
      .members rfl hitems h, fun hhashable => (eq_frozenSet_of_members hv hhashable).symm⟩
  | @entries v es hv hkeys hkey _ _ ihvalue =>
    obtain ⟨pairs, hpairs⟩ : ∃ pairs, List.Forall₂ (PairBy IsForm) es pairs := by
      refine exists_forall₂ fun e he => ?_
      obtain ⟨form, hform⟩ := ihvalue e he
      exact ⟨_, form, hform, rfl⟩
    refine ⟨_, (hasForm_entries_iff hv).2 ⟨pairs, hpairs.imp fun _ _ h => ?_, rfl⟩, rfl,
      .members rfl (.pairs hkeys hpairs) fun pair hpair => ?_,
      fun hhashable => absurd hhashable (unhashable?_of_entries hv)⟩
    · obtain ⟨form, hform, rfl⟩ := h
      exact ⟨form, hform.hasForm, rfl⟩
    · obtain ⟨e, he, form, hform, rfl⟩ := forall₂_exists_left hpairs hpair
      simp [nested_tuple_iff, hkey e he, hform.nested]
  | record hrecords _ _ => cases hrecords

/-! ### What is the same is one key -/

theorem forall₂_same_hashKey {xs ys : List Value}
    (ih : ∀ x ∈ xs, ∀ {y : Value}, same x y → x.unhashable? = none → y.unhashable? = none →
      same x.hashKey y.hashKey)
    (hxy : List.Forall₂ (fun x y => same x y) xs ys) (hx : ∀ x ∈ xs, x.unhashable? = none)
    (hy : ∀ y ∈ ys, y.unhashable? = none) :
    List.Forall₂ (fun x y => same x y) (hashKeyAll xs) (hashKeyAll ys) := by
  induction hxy with
  | nil => exact .nil
  | cons hxy _ ihs =>
    rw [List.forall_mem_cons] at ih hx hy
    exact .cons (ih.1 hxy hx.1 hy.1) (ihs ih.2 hx.2 hy.2)

/-- A document is told by the form of its mapping. -/
theorem exists_hashKey_document (hv : v.entries? = some es)
    (h : (record .json [v]).unhashable? = none) :
    ∃ form, HasForm v form ∧ (record .json [v]).hashKey = tuple [form] := by
  have hforms : ∃ form, hashFormAll [v] = .ok ([form], none) := by
    cases hpairs : hashFormEntries es with
    | error f =>
      cases v <;> cases hv <;> simp [unhashable?, hashFormAll, hashForm, hpairs, bind,
        Except.bind] at h
    | ok pairs =>
      refine ⟨frozenSet pairs, ?_⟩
      cases v <;> cases hv <;> simp [hashFormAll, hashForm, hpairs, bind, Except.bind,
        pure, Except.pure]
  obtain ⟨form, hforms⟩ := hforms
  have hall := hashFormAll_eq_ok_iff.1 hforms
  cases hall with
  | cons hform _ => exact ⟨form, hform, by rw [hashKey, hforms]⟩

theorem unhashable?_record {kind : RecordKind} (h : kind ≠ .json) :
    (record kind items).unhashable? = unhashableAmong? items := by
  cases kind <;> first | rfl | exact absurd rfl h

theorem hashKey_record {kind : RecordKind} (h : kind ≠ .json) :
    (record kind items).hashKey = record kind (hashKeyAll items) := by
  cases kind <;> first | rfl | exact absurd rfl h

/-- What is the same is told by the same, if both can be hashed. -/
theorem Nested.same_hashKey (ha : Nested records a) (hab : same a b) (hha : a.unhashable? = none)
    (hhb : b.unhashable? = none) : same a.hashKey b.hashKey := by
  induction ha generalizing b with
  | @scalar a h =>
    obtain ⟨x, hx⟩ := exists_atom_of_isScalar h
    have hkey : ∀ {v : Value}, v.atom? = some x → v.hashKey = v := by
      intro v hv
      cases v <;> first | rfl | cases hv
    rw [hkey hx, hkey ((same_atom_iff hx).1 hab)]
    exact hab
  | tuple _ ih =>
    obtain ⟨ys, rfl, hys⟩ := same_tuple_iff.1 hab
    exact same_tuple_iff.2 ⟨_, rfl, forall₂_same_hashKey ih hys (unhashable?_tuple_iff.1 hha)
      (unhashable?_tuple_iff.1 hhb)⟩
  | list _ _ => cases hha
  | @members a _ hv _ _ _ =>
    obtain ⟨ys, hys, -⟩ := (same_members_iff hv).1 hab
    have hkey : ∀ {v : Value} {items : List Value}, v.members? = some items → v.hashKey = v := by
      intro v items hv
      cases v <;> first | rfl | cases hv
    rw [hkey hv, hkey hys]
    exact hab
  | entries hv _ _ _ _ _ => exact absurd hha (unhashable?_of_entries hv)
  | @record kind fields _ hdocument h ih =>
    obtain ⟨ys, rfl, hys⟩ := same_record_iff.1 hab
    by_cases hkind : kind = .json
    · subst hkind
      obtain ⟨v, es, rfl, hv⟩ := hdocument rfl
      obtain ⟨w, hvw, rfl⟩ : ∃ w, same v w ∧ ys = [w] := by
        obtain _ | ⟨hvw, hnil⟩ := hys
        cases hnil
        exact ⟨_, hvw, rfl⟩
      obtain ⟨ds, hw, -⟩ := (same_entries_iff hv).1 hvw
      obtain ⟨form, hform, hkey⟩ := exists_hashKey_document hv hha
      obtain ⟨form', hform', hkey'⟩ := exists_hashKey_document hw hhb
      rw [hkey, hkey']
      have hforms := (h v List.mem_cons_self).same_form hvw hform hform'
      exact same_tuple_iff.2 ⟨_, rfl, .cons hforms .nil⟩
    · -- other records are told by what tells their fields
      rw [unhashable?_record hkind, unhashableAmong?_eq_none_iff] at hha hhb
      rw [hashKey_record hkind, hashKey_record hkind]
      exact same_record_iff.2 ⟨_, rfl, forall₂_same_hashKey ih hys hha hhb⟩

/-- Hashing makes no difference to what is one key. -/
theorem Nested.alike_eq_same (ha : Nested records a) (hha : a.unhashable? = none)
    (hhb : b.unhashable? = none) : alike a b = same a b := by
  cases hab : same a b with
  | false => rw [alike, hab, Bool.false_and]
  | true => rw [alike, hab, ha.same_hashKey hab hha hhb, Bool.and_self]

/-! ### What is the same both ways -/

theorem forall₂_same_symm {xs ys : List Value}
    (ih : ∀ x ∈ xs, ∀ {y : Value}, Nested records y → same x y → same y x)
    (hxy : List.Forall₂ (fun x y => same x y) xs ys) (hy : ∀ y ∈ ys, Nested records y) :
    List.Forall₂ (fun x y => same x y) ys xs := by
  induction hxy with
  | nil => exact .nil
  | cons hxy _ ihs =>
    rw [List.forall_mem_cons] at ih hy
    exact .cons (ih.1 hy.1 hxy) (ihs ih.2 hy.2)

/-- Two members of a set are not the same as one value. -/
theorem AreMembers.pairwise_not_same {xs ys : List Value} (hxs : AreMembers xs)
    (hx : ∀ x ∈ xs, Nested records x) (hy : ∀ y ∈ ys, Nested records y)
    (ih : ∀ x ∈ xs, ∀ {y : Value}, Nested records y → same x y → same y x) :
    xs.Pairwise fun x x' => ∀ y ∈ ys, same x y → ¬ same x' y := by
  refine (noneAlike_iff.1 hxs.apart).imp_of_mem fun {x x'} hmem hmem' hne y hmemy hxy hxy' => ?_
  -- both would be the same as each other, by way of the value
  have hsame := (hx x' hmem').same_trans hxy' (ih x hmem (hy y hmemy) hxy)
  rw [(hx x' hmem').alike_eq_same (hxs.hashable x' hmem') (hxs.hashable x hmem), hsame] at hne
  cases hne

/-- What is the same one way is the same the other way. That each member of a set is found in
another set of the same size leaves no member over in that. -/
theorem Nested.same_symm (ha : Nested records a) (hb : Nested records b)
    (hab : same a b) : same b a := by
  induction ha generalizing b with
  | scalar h =>
    obtain ⟨x, hx⟩ := exists_atom_of_isScalar h
    exact (same_atom_iff ((same_atom_iff hx).1 hab)).2 hx
  | tuple _ ih =>
    obtain ⟨ys, rfl, hys⟩ := same_tuple_iff.1 hab
    exact same_tuple_iff.2 ⟨_, rfl, forall₂_same_symm ih hys (nested_tuple_iff.1 hb)⟩
  | list _ ih =>
    obtain ⟨_, ys, rfl, hys⟩ := same_list_iff.1 hab
    exact same_list_iff.2 ⟨_, _, rfl, forall₂_same_symm ih hys (nested_list_iff.1 hb)⟩
  | record _ _ _ ih =>
    obtain ⟨ys, rfl, hys⟩ := same_record_iff.1 hab
    exact same_record_iff.2 ⟨_, rfl, forall₂_same_symm ih hys (nested_record_iff.1 hb).2.2⟩
  | members hv hxs hx ih =>
    obtain ⟨ys, hys, hlength, hxy⟩ := (same_members_iff hv).1 hab
    obtain ⟨-, hy⟩ := (nested_members_iff hys).1 hb
    have hapart := hxs.pairwise_not_same hx hy ih
    refine (same_members_iff hys).2 ⟨_, hv, hlength.symm, fun y hmem => ?_⟩
    obtain ⟨x, hmem', hxy⟩ := exists_of_matched hlength hxy hapart y hmem
    exact ⟨x, hmem', ih x hmem' (hy y hmem) hxy⟩
  | entries hv hkeys hkey hvalue ihkey ihvalue =>
    obtain ⟨ds, hds, hlength, hed⟩ := (same_entries_iff hv).1 hab
    obtain ⟨-, hdkey, hdvalue⟩ := (nested_entries_iff hds).1 hb
    have hdkeys : ∀ k ∈ ds.map Prod.fst, Nested records k := by
      simpa using hdkey
    have hapart := hkeys.pairwise_not_same (by simpa using hkey) hdkeys (by simpa using ihkey)
    rw [List.pairwise_map] at hapart
    refine (same_entries_iff hds).2 ⟨_, hv, hlength.symm, fun d hd => ?_⟩
    obtain ⟨e, he, hsame, hsame'⟩ := exists_of_matched hlength hed
      (hapart.imp fun h d hd hp hp' => h d.1 (List.mem_map_of_mem hd) hp.1 hp'.1) d hd
    exact ⟨e, he, ihkey e he (hdkey d hd) hsame, ihvalue e he (hdvalue d hd) hsame'⟩

/-! ### Sets of two -/

/-- A nested value that can be hashed. -/
structure IsHashable (v : Value) : Prop where
  nested : Nested true v
  hashable : v.unhashable? = none

theorem isHashable_of_isScalar (h : v.isScalar) : IsHashable v :=
  ⟨.scalar h, unhashable?_of_isScalar h⟩

theorem isHashable_tuple (h : ∀ v ∈ items, IsHashable v) : IsHashable (tuple items) :=
  ⟨.tuple fun v hv => (h v hv).nested, unhashable?_tuple_iff.2 fun v hv => (h v hv).hashable⟩

theorem isHashable_record {kind : RecordKind} (hkind : kind ≠ .json)
    (h : ∀ v ∈ items, IsHashable v) : IsHashable (record kind items) := by
  refine ⟨.record rfl (fun heq => absurd heq hkind) fun v hv => (h v hv).nested, ?_⟩
  rw [unhashable?_record hkind, unhashableAmong?_eq_none_iff]
  exact fun v hv => (h v hv).hashable

/-- The record of a nested mapping can be hashed, though the mapping cannot. -/
theorem isHashable_document (hv : v.entries? = some es) (h : Nested false v) :
    IsHashable (record .json [v]) := by
  refine ⟨.record rfl (fun _ => ⟨v, es, rfl, hv⟩) (by simpa using h.mono), ?_⟩
  obtain ⟨form, hform⟩ := h.exists_form
  have hforms : hashFormAll [v] = .ok ([form], none) :=
    hashFormAll_eq_ok_iff.2 (.cons hform.hasForm .nil)
  rw [unhashable?, hforms]

/-- **The set of two values** has one member if they are the same, and both if they are not. -/
theorem distinct_pair (ha : IsHashable a) (hb : IsHashable b) :
    distinct [a, b] = .ok (if same a b then [a] else [a, b]) := by
  have halike : alike b a = same a b := by
    rw [hb.nested.alike_eq_same hb.hashable ha.hashable, Bool.eq_iff_iff]
    exact ⟨hb.nested.same_symm ha.nested, ha.nested.same_symm hb.nested⟩
  simp [distinct, insert, ha.hashable, hb.hashable, halike, bind, Except.bind, pure, Except.pure]

end Value

end CredentialWrites
