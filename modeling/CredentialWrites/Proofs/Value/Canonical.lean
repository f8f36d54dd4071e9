import CredentialWrites.Proofs.Value.Thawing

/-!
# Freezing and thawing as forms

Callers nest mappings, views, lists, tuples, sets and frozen sets in each other, over values without
parts and over buffers of bytes. Freezing and thawing only change the form of such data: which of
its containers can be changed. So what one does after the other is told by forms: the frozen form of
what was thawed, or frozen before, is the frozen form that it had.

* `Value.Form`, `Value.reshape` : the kinds that the containers of data are to have, and data in a
  form.
* `Value.reshape_reshape` : one form after the other is a form.
* `Value.same_reshape` : what a comparison does not see of the form.
* `Value.Data.frozen`, `Value.Data.thawed` : freezing and thawing succeed, and what forms they lead
  to.
* `Value.freeze_thaw_inverse` : freezing and thawing undo each other, up to the form.
-/

namespace CredentialWrites

/-- A computation succeeds from every state on, and what it gives has a property. -/
def Making.Always {α : Type} (m : Making α) (p : α → Prop) : Prop :=
  ∀ s, ∃ a t, m.Gives s a t ∧ p a

namespace Making

variable {α β : Type} {m : Making α} {p q : α → Prop} {r : β → Prop}

theorem always_pure {a : α} (h : p a) : (pure a : Making α).Always p :=
  fun s => ⟨a, s, rfl, h⟩

theorem Always.bind {f : α → Making β} (h : m.Always p) (hf : ∀ a, p a → (f a).Always r) :
    (m >>= f).Always r := by
  intro s
  obtain ⟨a, t, ha, hp⟩ := h s
  obtain ⟨b, u, hb, hr⟩ := hf a hp t
  exact ⟨b, u, gives_bind.2 ⟨a, t, ha, hb⟩, hr⟩

theorem Always.mono (h : m.Always p) (hpq : ∀ a, p a → q a) : m.Always q := by
  intro s
  obtain ⟨a, t, ha, hp⟩ := h s
  exact ⟨a, t, ha, hpq a hp⟩

/-- What else is known of all that is given. -/
theorem Always.and_of_gives (h : m.Always p) (hq : ∀ s a t, m.Gives s a t → q a) :
    m.Always fun a => p a ∧ q a := by
  intro s
  obtain ⟨a, t, ha, hp⟩ := h s
  exact ⟨a, t, ha, hp, hq s a t ha⟩

theorem always_list (items : List Value) : (list items).Always fun v => ∃ c, v = .list c items :=
  fun s => ⟨.list [s.moment] items, _, rfl, [s.moment], rfl⟩

theorem always_map (es : List (Value × Value)) : (map es).Always fun v => ∃ c, v = .map c es :=
  fun s => ⟨.map [s.moment] es, _, rfl, [s.moment], rfl⟩

theorem always_each {f : Value → Making α} {r : Value → α → Prop} {vs : List Value}
    (h : ∀ v ∈ vs, (f v).Always (r v)) : (each f vs).Always (List.Forall₂ r vs) := by
  induction vs with
  | nil => exact always_pure .nil
  | cons v vs ih =>
    rw [List.forall_mem_cons] at h
    exact h.1.bind fun a ha => (ih h.2).bind fun as has => always_pure (.cons ha has)

end Making

namespace Value

open Making

/-! ### Forms -/

/-- What kinds the containers of data are to have: read-only ones, ones that can be changed, or
those that they have. -/
structure Form where
  mappings : Option Bool
  sequences : Option Bool
  sets : Option Bool
deriving DecidableEq

namespace Form

/-- Every container keeps its kind. -/
def kept : Form := ⟨none, none, none⟩

/-- Every container is read-only. -/
def frozen : Form := ⟨some true, some true, some true⟩

/-- Mappings and sequences can be changed, and sets keep their kind. -/
def thawed : Form := ⟨some false, some false, none⟩

/-- What a comparison sees: it tells lists from tuples, but neither views from mappings nor frozen
sets from sets. -/
def compared : Form := ⟨some false, none, some true⟩

/-- A form after another. -/
def after (g f : Form) : Form :=
  ⟨g.mappings.or f.mappings, g.sequences.or f.sequences, g.sets.or f.sets⟩

end Form

/-- A mapping of some kind, of which is known whether it was read-only. -/
def mappingAs (kind : Option Bool) (readOnly : Bool) (es : List (Value × Value)) : Value :=
  if kind.getD readOnly then view es else map [] es

/-- A sequence of some kind, of which is known whether it was read-only. -/
def sequenceAs (kind : Option Bool) (readOnly : Bool) (items : List Value) : Value :=
  if kind.getD readOnly then tuple items else list [] items

/-- A set of some kind, of which is known whether it was read-only. -/
def setAs (kind : Option Bool) (readOnly : Bool) (items : List Value) : Value :=
  if kind.getD readOnly then frozenSet items else set [] items

mutual

/-- The data in a form, without the identities of what can be changed. The keys and their order, the
members of sets and the leaves stay what they are. -/
def reshape (f : Form) : Value → Value
  | view es => mappingAs f.mappings true (reshapeEntries f es)
  | map _ es => mappingAs f.mappings false (reshapeEntries f es)
  | tuple items => sequenceAs f.sequences true (reshapeAll f items)
  | list _ items => sequenceAs f.sequences false (reshapeAll f items)
  | frozenSet items => setAs f.sets true items
  | set _ items => setAs f.sets false items
  | buffer _ bs => buffer [] bs
  | v => v

/-- Some data in a form. -/
def reshapeAll (f : Form) : List Value → List Value
  | [] => []
  | v :: vs => reshape f v :: reshapeAll f vs

/-- Entries whose values are in a form. -/
def reshapeEntries (f : Form) : List (Value × Value) → List (Value × Value)
  | [] => []
  | (k, v) :: es => (k, reshape f v) :: reshapeEntries f es

end

/-- The data as they are, without the identities of what can be changed: keys, their order, the
kinds of containers and the leaves at every position. -/
def outline (v : Value) : Value :=
  v.reshape .kept

theorem reshape_mappingAs (g : Form) (kind : Option Bool) (readOnly : Bool)
    (es : List (Value × Value)) :
    (mappingAs kind readOnly es).reshape g = mappingAs (g.mappings.or kind) readOnly
      (reshapeEntries g es) := by
  rw [mappingAs, mappingAs, Option.getD_or]
  cases kind.getD readOnly with
  | true => rw [if_pos rfl, reshape, mappingAs]
  | false => rw [if_neg (by decide), reshape, mappingAs]

theorem reshape_sequenceAs (g : Form) (kind : Option Bool) (readOnly : Bool) (items : List Value) :
    (sequenceAs kind readOnly items).reshape g =
      sequenceAs (g.sequences.or kind) readOnly (reshapeAll g items) := by
  rw [sequenceAs, sequenceAs, Option.getD_or]
  cases kind.getD readOnly with
  | true => rw [if_pos rfl, reshape, sequenceAs]
  | false => rw [if_neg (by decide), reshape, sequenceAs]

theorem reshape_setAs (g : Form) (kind : Option Bool) (readOnly : Bool) (items : List Value) :
    (setAs kind readOnly items).reshape g = setAs (g.sets.or kind) readOnly items := by
  rw [setAs, setAs, Option.getD_or]
  cases kind.getD readOnly with
  | true => rw [if_pos rfl, reshape, setAs]
  | false => rw [if_neg (by decide), reshape, setAs]

mutual

/-- One form after the other is a form. -/
theorem reshape_reshape (g f : Form) : ∀ v : Value, (v.reshape f).reshape g = v.reshape (g.after f)
  | view es | map _ es => by
    rw [reshape, reshape_mappingAs, reshapeEntries_reshapeEntries g f es, reshape, Form.after]
  | tuple items | list _ items => by
    rw [reshape, reshape_sequenceAs, reshapeAll_reshapeAll g f items, reshape, Form.after]
  | frozenSet items | set _ items => by rw [reshape, reshape_setAs, reshape, Form.after]
  | null | bool _ | int _ | float _ | nan _ | text _ | bytes _ | member _ | record _ _ | buffer _ _
  | stream _ _ | fault _ _ _ _ | object _ _ _ => rfl

theorem reshapeAll_reshapeAll (g f : Form) :
    ∀ vs : List Value, reshapeAll g (reshapeAll f vs) = reshapeAll (g.after f) vs
  | [] => rfl
  | v :: vs => by rw [reshapeAll, reshapeAll, reshape_reshape g f v,
      reshapeAll_reshapeAll g f vs, reshapeAll]

theorem reshapeEntries_reshapeEntries (g f : Form) :
    ∀ es : List (Value × Value), reshapeEntries g (reshapeEntries f es) =
      reshapeEntries (g.after f) es
  | [] => rfl
  | (k, v) :: es => by
    rw [reshapeEntries, reshapeEntries, reshape_reshape g f v, reshapeEntries_reshapeEntries g f es,
      reshapeEntries]

end

/-- The form of what has the outline of some data in a form. -/
theorem reshape_of_outline {f : Form} {v w : Value} (h : w.outline = v.reshape f) (g : Form) :
    w.reshape g = v.reshape (g.after f) := by
  have hkept : g.after .kept = g := by simp [Form.after, Form.kept]
  rw [← reshape_reshape, ← h, outline, reshape_reshape, hkept]

/-! ### Comparisons -/

theorem same_self_of_atom {v : Value} {x : Atom} (h : v.atom? = some x) : same v v :=
  (same_atom_iff h).2 h

mutual

/-- Every value is the same as itself. -/
theorem same_self : ∀ v : Value, same v v
  | tuple items => same_tuples_iff.2 (List.forall₂_same.2 (same_self_of_mem items))
  | list _ items => same_lists_iff.2 (List.forall₂_same.2 (same_self_of_mem items))
  | record _ fields => same_records_iff.2 ⟨rfl, List.forall₂_same.2 (same_self_of_mem fields)⟩
  | frozenSet items | set _ items =>
    (same_members_iff rfl).2 ⟨items, rfl, rfl, fun v hv => ⟨v, hv, same_self_of_mem items v hv⟩⟩
  | view es | map _ es =>
    (same_entries_iff rfl).2 ⟨es, rfl, rfl, fun e he => ⟨e, he, same_self_of_mem_entries es e he⟩⟩
  | null | bool _ | int _ | float _ | nan _ | text _ | bytes _ | member _ | buffer _ _ =>
    same_self_of_atom rfl
  | stream _ _ | fault _ _ _ _ | object _ _ _ => by simp [same]

theorem same_self_of_mem : ∀ (vs : List Value), ∀ v ∈ vs, same v v
  | [], _, hv => nomatch hv
  | w :: vs, v, hv => by
    rcases List.mem_cons.1 hv with hvw | hv
    · rw [hvw]
      exact same_self w
    · exact same_self_of_mem vs v hv

theorem same_self_of_mem_entries :
    ∀ (es : List (Value × Value)), ∀ e ∈ es, same e.1 e.1 ∧ same e.2 e.2
  | [], _, he => nomatch he
  | (k, v) :: es, e, he => by
    rcases List.mem_cons.1 he with hkv | he
    · rw [hkv]
      exact ⟨same_self k, same_self v⟩
    · exact same_self_of_mem_entries es e he

end

theorem reshapeEntries_eq_map (f : Form) (es : List (Value × Value)) :
    reshapeEntries f es = es.map fun e => (e.1, e.2.reshape f) := by
  induction es with
  | nil => rfl
  | cons e es ih => rw [reshapeEntries, ih, List.map_cons]

mutual

/-- A comparison does not see the form, as long as lists stay lists and tuples tuples. -/
theorem same_reshape : ∀ a b : Value, same (a.reshape .compared) (b.reshape .compared) = same a b
  | view es, b | map _ es, b => by
    cases b with
    | view ds | map _ ds =>
      change ((reshapeEntries .compared es).length == (reshapeEntries .compared ds).length &&
        eachEntryIn (reshapeEntries .compared es) (reshapeEntries .compared ds)) =
          (es.length == ds.length && eachEntryIn es ds)
      rw [eachEntryIn_reshapeEntries es ds, reshapeEntries_eq_map, reshapeEntries_eq_map,
        List.length_map, List.length_map]
    | _ => rfl
  | list _ xs, b => by
    cases b with
    | list _ ys => exact sameAll_reshapeAll xs ys
    | _ => rfl
  | tuple xs, b => by
    cases b with
    | tuple ys => exact sameAll_reshapeAll xs ys
    | _ => rfl
  | frozenSet xs, b | set _ xs, b => by cases b <;> rfl
  | null, b | bool _, b | int _, b | float _, b | nan _, b | text _, b | bytes _, b | member _, b
  | record _ _, b | buffer _ _, b | stream _ _, b | fault _ _ _ _, b
  | object _ _ _, b => by cases b <;> rfl

theorem sameAll_reshapeAll : ∀ xs ys : List Value,
    sameAll (reshapeAll .compared xs) (reshapeAll .compared ys) = sameAll xs ys
  | [], ys => by cases ys <;> rfl
  | x :: xs, ys => by
    cases ys with
    | nil => rfl
    | cons y ys =>
      rw [reshapeAll, reshapeAll, sameAll, same_reshape x y, sameAll_reshapeAll xs ys, sameAll]

theorem eachEntryIn_reshapeEntries : ∀ es ds : List (Value × Value),
    eachEntryIn (reshapeEntries .compared es) (reshapeEntries .compared ds) = eachEntryIn es ds
  | [], _ => rfl
  | (k, v) :: es, ds => by
    have hany : (reshapeEntries .compared ds).any
        (fun d => same k d.1 && same (v.reshape .compared) d.2) = ds.any fun d =>
        same k d.1 && same v d.2 := by
      rw [reshapeEntries_eq_map, List.any_map]
      congr 1
      funext d
      rw [Function.comp_apply, same_reshape v d.2]
    rw [reshapeEntries, eachEntryIn, hany, eachEntryIn_reshapeEntries es ds, eachEntryIn]

end

/-- What looks the same to a comparison is the same. -/
theorem same_of_reshape_eq {a b : Value} (h : a.reshape .compared = b.reshape .compared) :
    same a b := by
  rw [← same_reshape, h]
  exact same_self _

/-! ### Data -/

/-- The value is nested from mappings, views, lists, tuples, sets and frozen sets, over values
without parts and buffers of bytes. A set has no member twice, a mapping no key. -/
inductive Data : Value → Prop where
  | scalar {v : Value} (h : v.isScalar) : Data v
  | buffer (c : Cell) (bs : List UInt8) : Data (.buffer c bs)
  | tuple {items : List Value} (h : ∀ v ∈ items, Data v) : Data (.tuple items)
  | list {c : Cell} {items : List Value} (h : ∀ v ∈ items, Data v) : Data (.list c items)
  | members {v : Value} {items : List Value} (hv : v.members? = some items)
      (hitems : AreMembers items)
    (h : ∀ w ∈ items, Data w) : Data v
  | entries {v : Value} {es : List (Value × Value)} (hv : v.entries? = some es)
    (hkeys : AreMembers (es.map Prod.fst)) (h : ∀ e ∈ es, Data e.2) : Data v

variable {v w : Value} {items items' : List Value} {es es' : List (Value × Value)}

/-- Data that can be hashed have no buffers in them. -/
theorem Data.nested (h : Data v) (hv : v.unhashable? = none) : Nested false v := by
  induction h with
  | scalar h => exact .scalar h
  | buffer c bs => cases hv
  | tuple _ ih => exact .tuple fun v hmem => ih v hmem (unhashable?_tuple_iff.1 hv v hmem)
  | list _ _ => cases hv
  | members hv' hitems _ ih => exact .members hv' hitems fun w hw => ih w hw (hitems.hashable w hw)
  | entries hv' _ _ _ => exact absurd hv (unhashable?_of_entries hv')

theorem uncopyableAmong?_eq_none (h : ∀ v ∈ items, v.uncopyable? = none) :
    uncopyableAmong? items = none := by
  induction items with
  | nil => rfl
  | cons v vs ih =>
    rw [List.forall_mem_cons] at h
    rw [uncopyableAmong?, h.1]
    exact ih h.2

/-- What can be hashed can be copied. -/
theorem Nested.uncopyable?_eq_none (h : Nested false v) (hv : v.unhashable? = none) :
    v.uncopyable? = none := by
  induction h with
  | @scalar v h => cases v <;> first | rfl | cases h
  | tuple _ ih =>
    rw [uncopyable?]
    exact Value.uncopyableAmong?_eq_none fun v hmem => ih v hmem (unhashable?_tuple_iff.1 hv v hmem)
  | list _ _ => cases hv
  | members hv' hitems _ ih =>
    rw [eq_frozenSet_of_members hv' hv, uncopyable?]
    exact Value.uncopyableAmong?_eq_none fun w hw => ih w hw (hitems.hashable w hw)
  | entries hv' _ _ _ _ => exact absurd hv (unhashable?_of_entries hv')
  | record hrecords _ _ => cases hrecords

/-! ### Copies -/

theorem reshape_of_isScalar (h : v.isScalar) (f : Form) : v.reshape f = v := by
  cases v <;> first | rfl | cases h

theorem reshape_of_entries (hv : v.entries? = some es) :
    v.reshape .frozen = view (reshapeEntries .frozen es) ∧
    v.reshape .thawed = map [] (reshapeEntries .thawed es) := by
  cases v <;> cases hv <;> exact ⟨rfl, rfl⟩

theorem reshapeAll_of_forall₂ {f g : Form}
    (h : List.Forall₂ (fun v w => w.reshape g = v.reshape f) items items') :
    reshapeAll g items' = reshapeAll f items := by
  induction h with
  | nil => rfl
  | cons h _ ih => rw [reshapeAll, reshapeAll, h, ih]

theorem reshapeEntries_of_forall₂ {f g : Form}
    (h : List.Forall₂ (fun e e' => e'.1 = e.1 ∧ e'.2.reshape g = e.2.reshape f) es es') :
    reshapeEntries g es' = reshapeEntries f es := by
  induction h with
  | nil => rfl
  | cons h _ ih => rw [reshapeEntries, reshapeEntries, h.1, h.2, ih]

/-- A copy of data is in a form if it has the outline of the data in it, and is data again. -/
structure IsCopyIn (f : Form) (v w : Value) : Prop where
  outline : w.outline = v.reshape f
  data : Data w

theorem data_of_forall₂ {f : Form} (h : List.Forall₂ (IsCopyIn f) items items') :
    ∀ w ∈ items', Data w := by
  intro w hw
  obtain ⟨v, -, h⟩ := forall₂_exists_left h hw
  exact h.data

/-- Entries whose values are copied keep their keys and their order. -/
theorem data_entries_of_forall₂ {f : Form} (hkeys : AreMembers (es.map Prod.fst))
    (h : List.Forall₂ (fun e e' => e'.1 = e.1 ∧ IsCopyIn f e.2 e'.2) es es')
    (hw : w.entries? = some es') :
    reshapeEntries .kept es' = reshapeEntries f es ∧ Data w := by
  have hkeys' : es'.map Prod.fst = es.map Prod.fst := keys_eq_of_forall₂ (h.imp fun _ _ h => h.1)
  refine ⟨reshapeEntries_of_forall₂ (h.imp fun _ _ h => ⟨h.1, h.2.outline⟩),
    .entries hw (hkeys' ▸ hkeys) ?_⟩
  intro e' he'
  obtain ⟨e, -, -, h⟩ := forall₂_exists_left h he'
  exact h.data

/-- Entries whose values are copied one after the other, by freezing or by thawing. -/
theorem always_copyEntries {r : Value → Value → Prop} (f : Value → Making Value)
    (g : List (Value × Value) → Making (List (Value × Value))) (hnil : g [] = pure [])
    (hcons : ∀ e es, g (e :: es) = do
      let v ← f e.2
      return (e.1, v) :: (← g es))
    (h : ∀ e ∈ es, (f e.2).Always (r e.2)) :
    (g es).Always (List.Forall₂ (fun e e' => e'.1 = e.1 ∧ r e.2 e'.2) es) := by
  induction es with
  | nil =>
    rw [hnil]
    exact always_pure .nil
  | cons e es ih =>
    rw [List.forall_mem_cons] at h
    rw [hcons]
    exact h.1.bind fun v hv => (ih h.2).bind fun es' hes => always_pure (.cons ⟨rfl, hv⟩ hes)

theorem always_copy (h : v.uncopyable? = none) :
    (copy v).Always fun w => ∃ now : Nat, w = v.relabel (now :: ·) := by
  rw [copy, h]
  exact fun s => ⟨v.relabel (s.moment :: ·), _, rfl, s.moment, rfl⟩

theorem always_copy_of_isScalar (h : v.isScalar) (f : Form) : (copy v).Always (IsCopyIn f v) := by
  have hcopy : v.uncopyable? = none := by cases v <;> first | rfl | cases h
  refine (always_copy hcopy).mono ?_
  rintro w ⟨now, rfl⟩
  have hsame : v.relabel (now :: ·) = v := by cases v <;> first | rfl | cases h
  rw [hsame]
  refine ⟨?_, .scalar h⟩
  rw [outline, reshape_of_isScalar h, reshape_of_isScalar h]

theorem always_copy_buffer (c : Cell) (bs : List UInt8) (f : Form) :
    (copy (buffer c bs)).Always (IsCopyIn f (buffer c bs)) := by
  refine (always_copy rfl).mono ?_
  rintro w ⟨now, rfl⟩
  exact ⟨rfl, .buffer _ bs⟩

/-! ### Freezing -/

/-- Data can be frozen, and come out in the frozen form. -/
theorem Data.frozen (hv : Data v) : (freeze v).Always (IsCopyIn .frozen v) := by
  induction hv with
  | scalar h =>
    rw [freeze_of_isScalar h]
    exact always_copy_of_isScalar h .frozen
  | buffer c bs => exact always_copy_buffer c bs .frozen
  | @tuple items _ ih | @list _ items _ ih =>
    rw [freeze, freezeAll_eq_each]
    refine (always_each ih).bind fun items' h => always_pure ⟨?_, .tuple (data_of_forall₂ h)⟩
    exact congrArg Value.tuple (reshapeAll_of_forall₂ (h.imp fun _ _ h => h.outline))
  | @members v items hv' hitems h ih =>
    have hfreeze : freeze v = (do return frozenSet (← each freeze items)) := by
      rw [← freezeAll_eq_each]
      cases v <;> cases hv' <;> rfl
    -- a member can be hashed, so that it is frozen already
    have hmember : ∀ w ∈ items, (freeze w).Always fun w' => w' = w := by
      intro w hw
      have hnested := (h w hw).nested (hitems.hashable w hw)
      refine ((ih w hw).and_of_gives fun s w' t hgives => ?_).mono fun _ h => h.2
      exact (hnested.frozen hgives).eq_of_hashable (hitems.hashable w hw)
    rw [hfreeze]
    refine (always_each hmember).bind fun items' heq => always_pure ?_
    obtain rfl : items' = items := by
      rw [← List.forall₂_eq_eq_eq]
      exact heq.flip
    refine ⟨?_, .members rfl hitems h⟩
    cases v <;> cases hv' <;> rfl
  | @entries v es hv' hkeys _ ih =>
    have hfreeze : freeze v = (do return view (← freezeEntries es)) := by
      cases v <;> cases hv' <;> rfl
    rw [hfreeze]
    refine (always_copyEntries freeze freezeEntries rfl (fun _ _ => rfl) ih).bind fun es' h =>
      always_pure ?_
    obtain ⟨houtline, hdata⟩ := data_entries_of_forall₂ (w := view es') hkeys h rfl
    exact ⟨(congrArg view houtline).trans (reshape_of_entries hv').1.symm, hdata⟩

/-- In every form a mapping is a mapping, and nothing else is. -/
theorem isSome_entries_reshape (f : Form) (v : Value) :
    (v.reshape f).entries?.isSome = v.entries?.isSome := by
  cases v with
  | view es | map _ es =>
    rw [reshape, mappingAs]
    split
    · rfl
    · rfl
  | tuple items | list _ items =>
    rw [reshape, sequenceAs]
    split
    · rfl
    · rfl
  | frozenSet items | set _ items =>
    rw [reshape, setAs]
    split
    · rfl
    · rfl
  | _ => rfl

theorem isSome_entries_of_outline {f : Form} (h : w.outline = v.reshape f) :
    w.entries?.isSome = v.entries?.isSome := by
  rw [← isSome_entries_reshape .kept w, ← isSome_entries_reshape f v, ← h, outline]

theorem Data.frozenMapping (hv : Data v) (hmapping : v.entries?.isSome) :
    (freezeMapping v).Always (IsCopyIn .frozen v) := by
  have heq : freezeMapping v = freeze v := by
    cases v <;> first | rfl | cases hmapping
  rw [heq]
  exact hv.frozen

/-! ### Thawing -/

/-- A set is copied as it is: what can be hashed holds nothing that can be changed. -/
theorem always_copy_members (hv : v.members? = some items) (hitems : AreMembers items)
    (h : ∀ w ∈ items, Data w) : (copy v).Always (IsCopyIn .thawed v) := by
  have hnested : ∀ w ∈ items, Nested false w := fun w hw => (h w hw).nested (hitems.hashable w hw)
  have hcopy : uncopyableAmong? items = none :=
    uncopyableAmong?_eq_none fun w hw => (hnested w hw).uncopyable?_eq_none (hitems.hashable w hw)
  have hrelabel (f : Cell → Cell) : relabelAll f items = items := by
    rw [relabelAll_eq_map]
    exact (List.map_congr_left fun w hw => (hnested w hw).relabel_eq (hitems.hashable w hw) f).trans
      (List.map_id' items)
  cases v with
  | set _ _ | frozenSet _ =>
    cases hv
    refine (always_copy (by rw [uncopyable?, hcopy])).mono ?_
    rintro w ⟨now, rfl⟩
    rw [relabel, hrelabel]
    exact ⟨rfl, .members rfl hitems h⟩
  | _ => cases hv

/-- Data can be thawed, and come out in the thawed form. -/
theorem Data.thawed (hv : Data v) : (thaw v).Always (IsCopyIn .thawed v) := by
  induction hv with
  | scalar h =>
    rw [thaw_of_isScalar h]
    exact always_copy_of_isScalar h .thawed
  | buffer c bs => exact always_copy_buffer c bs .thawed
  | @tuple items _ ih | @list _ items _ ih =>
    rw [thaw, thawAll_eq_each]
    refine (always_each ih).bind fun items' h => (always_list items').mono ?_
    rintro w ⟨c, rfl⟩
    refine ⟨?_, .list (data_of_forall₂ h)⟩
    exact congrArg (Value.list []) (reshapeAll_of_forall₂ (h.imp fun _ _ h => h.outline))
  | @members v items hv' hitems h _ =>
    have hthaw : thaw v = copy v := by
      cases v <;> cases hv' <;> rfl
    rw [hthaw]
    exact always_copy_members hv' hitems h
  | @entries v es hv' hkeys _ ih =>
    have hthaw : thaw v = thawEntries es >>= Making.map := by
      cases v <;> cases hv' <;> rfl
    rw [hthaw]
    refine (always_copyEntries thaw thawEntries rfl (fun _ _ => rfl) ih).bind fun es' h =>
      (always_map es').mono ?_
    rintro w ⟨c, rfl⟩
    obtain ⟨houtline, hdata⟩ := data_entries_of_forall₂ (w := map c es') hkeys h rfl
    exact ⟨(congrArg (map []) houtline).trans (reshape_of_entries hv').2.symm, hdata⟩

/-! ### One after the other -/

/-- **Freezing and thawing undo each other, up to the form.** They succeed on every mapping of data.
What is frozen twice, or thawed in between, has the keys, the order, the kinds of containers and the
leaves that it had when it was frozen first; what is frozen and thawed equals what is only thawed.
Throughout, mappings keep their keys and sets their members, and are data with no key and no member
twice. -/
theorem freeze_thaw_inverse {m : Value} (hm : Data m) (hmapping : m.entries?.isSome) :
    (freezeMapping m).Always fun f =>
      f.outline = m.reshape .frozen ∧ Data f ∧
      ((freezeMapping f).Always fun f' => f'.outline = f.outline ∧ Data f') ∧
      ((thaw f).Always fun p => p.outline = m.reshape (Form.thawed.after .frozen) ∧ Data p ∧
        ((freezeMapping p).Always fun f' => f'.outline = f.outline ∧ Data f') ∧
        ((thaw m).Always fun q => q.outline = m.reshape .thawed ∧ Data q ∧ p.eq q)) := by
  refine (hm.frozenMapping hmapping).mono fun f hf => ⟨hf.outline, hf.data, ?_, ?_⟩
  · have hmapping' : f.entries?.isSome := (isSome_entries_of_outline hf.outline).trans hmapping
    refine (hf.data.frozenMapping hmapping').mono fun f' hf' => ⟨?_, hf'.data⟩
    rw [hf'.outline, reshape_of_outline hf.outline, hf.outline]
    rfl
  refine hf.data.thawed.mono fun p hp => ?_
  have houtline : p.outline = m.reshape (Form.thawed.after .frozen) := by
    rw [hp.outline, reshape_of_outline hf.outline]
  have hmapping' : p.entries?.isSome := (isSome_entries_of_outline houtline).trans hmapping
  refine ⟨houtline, hp.data, ?_, ?_⟩
  · refine (hp.data.frozenMapping hmapping').mono fun f' hf' => ⟨?_, hf'.data⟩
    rw [hf'.outline, reshape_of_outline houtline, hf.outline]
    rfl
  · refine hm.thawed.mono fun q hq => ⟨hq.outline, hq.data, ?_⟩
    -- frozen or not, a set is compared by its members, and nothing else is left of the difference
    have hsame : same p q := by
      refine same_of_reshape_eq ?_
      rw [reshape_of_outline houtline, reshape_of_outline hq.outline]
      rfl
    rw [eq]
    · exact hsame
    · rintro c rfl
      cases hmapping'

/-- A mapping of all kinds of data: a list with a set of a tuple and a frozen set in it, a buffer,
and a view. -/
def mixedMapping : Value :=
  .map [0] [(.text "a", .list [1] [.set [2] [.tuple [.int 1, .text "x"], .frozenSet [.null]],
    .buffer [3] [255]]), (.tuple [.int 0],
    .view [(.bytes [1], .tuple [.list [4] [.bool true], .frozenSet []])])]

theorem data_mixedMapping : Data mixedMapping := by
  have hkeys {k l : Value} (hk : k.unhashable? = none) (hl : l.unhashable? = none)
      (h : noneAlike [k, l]) : AreMembers [k, l] := ⟨by simp [hk, hl], h⟩
  have hset : Data (.set [2] [.tuple [.int 1, .text "x"], .frozenSet [.null]]) := by
    refine .members rfl (hkeys rfl rfl (by decide)) ?_
    simp only [List.forall_mem_cons, List.not_mem_nil, false_implies, implies_true, and_true]
    refine ⟨.tuple ?_, .members rfl ⟨by simp [unhashable?], rfl⟩ ?_⟩
    · simp only [List.forall_mem_cons, List.not_mem_nil, false_implies, implies_true, and_true]
      exact ⟨.scalar rfl, .scalar rfl⟩
    · simpa using Data.scalar rfl
  have hview : Data (.view [(.bytes [1], .tuple [.list [4] [.bool true], .frozenSet []])]) := by
    refine .entries rfl ⟨by simp [unhashable?], rfl⟩ ?_
    simp only [List.forall_mem_cons, List.not_mem_nil, false_implies, implies_true, and_true]
    refine .tuple ?_
    simp only [List.forall_mem_cons, List.not_mem_nil, false_implies, implies_true, and_true]
    exact ⟨.list (by simpa using Data.scalar rfl), .members rfl ⟨by simp, rfl⟩ (by simp)⟩
  refine .entries rfl (hkeys rfl rfl (by decide)) ?_
  simp only [List.forall_mem_cons, List.not_mem_nil, false_implies, implies_true, and_true]
  refine ⟨.list ?_, hview⟩
  simp only [List.forall_mem_cons, List.not_mem_nil, false_implies, implies_true, and_true]
  exact ⟨hset, .buffer _ _⟩

/-- What becomes of such a mapping when it is frozen, thawed and frozen again. -/
theorem freeze_thaw_inverse_of_mixedMapping :
    (freezeMapping mixedMapping).Always fun f =>
      f.outline = .view [(.text "a",
        .tuple [.frozenSet [.tuple [.int 1, .text "x"], .frozenSet [.null]],
          .buffer [] [255]]),
        (.tuple [.int 0], .view [(.bytes [1], .tuple [.tuple [.bool true], .frozenSet []])])] ∧
      (thaw f).Always fun p => ((freezeMapping p).Always fun f' => f'.outline = f.outline) ∧
        (thaw mixedMapping).Always fun q => p.eq q :=
  (freeze_thaw_inverse data_mixedMapping rfl).mono fun _ h => ⟨h.1, h.2.2.2.mono fun _ h =>
    ⟨h.2.2.1.mono fun _ h => h.1, h.2.2.2.mono fun _ h => h.2.2⟩⟩

end Value

end CredentialWrites
