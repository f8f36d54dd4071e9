import CredentialWrites.Proofs.Value.Alike
import CredentialWrites.Proofs.Value.Document
import CredentialWrites.Proofs.Value.Nested

/-!
# Nested values, frozen and thawed

A frozen value has no lists, and a thawed one has no tuples. A tuple is never the same as a list, so
that a frozen value and a thawed one may differ though they say the same; but two values whose
sequences are of one kind are the same exactly if what they say is. Members of sets and keys cannot
change, and so they are their own copies.

* `Value.isUniform` : all sequences are of one kind, and no set can change.
* `Value.same_document` : uniform values are the same if what they say is.
* `Value.Nested.frozen` : what freezing makes of a nested value.
* `Value.Nested.thawed` : what thawing makes of a frozen one.
-/

namespace CredentialWrites

namespace Value

open Making

mutual

/-- All sequences of the value are lists, or all are tuples, and none of its sets can change. What
is inside members and keys does not count. -/
def isUniform (plain : Bool) : Value → Bool
  | view es => areUniformEntries plain es
  | map _ es => areUniformEntries plain es
  | list _ items => plain && areUniform plain items
  | tuple items => !plain && areUniform plain items
  | set _ _ => false
  | _ => true

/-- `isUniform` for every value of a list. -/
def areUniform (plain : Bool) : List Value → Bool
  | [] => true
  | v :: vs => isUniform plain v && areUniform plain vs

/-- `isUniform` for every value of a mapping. -/
def areUniformEntries (plain : Bool) : List (Value × Value) → Bool
  | [] => true
  | (_, v) :: es => isUniform plain v && areUniformEntries plain es

end

variable {plain : Bool} {v w : Value} {items items' : List Value} {es es' : List (Value × Value)}

theorem areUniform_iff {vs : List Value} : areUniform plain vs ↔ ∀ v ∈ vs, v.isUniform plain := by
  induction vs with
  | nil => simp [areUniform]
  | cons v vs ih => simp [areUniform, ih]

theorem areUniformEntries_iff : areUniformEntries plain es ↔ ∀ e ∈ es, e.2.isUniform plain := by
  induction es with
  | nil => simp [areUniformEntries]
  | cons e es ih =>
    obtain ⟨k, v⟩ := e
    simp [areUniformEntries, ih]

theorem isUniform_of_isScalar (h : v.isScalar) : v.isUniform plain := by
  cases v <;> first | rfl | cases h

theorem isUniform_of_entries (h : v.entries? = some es) :
    v.isUniform plain = areUniformEntries plain es := by
  cases v <;> cases h <;> rfl

theorem document_of_entries (h : v.entries? = some es) :
    v.document = map [] (documentEntries es) := by
  cases v <;> cases h <;> rfl

/-! ### Comparing what values say -/

theorem documentEntries_eq_map (es : List (Value × Value)) :
    documentEntries es = es.map fun e => (e.1, e.2.document) := by
  induction es with
  | nil => rfl
  | cons e es ih => rw [documentEntries, ih, List.map_cons]

mutual

/-- Values whose sequences are of one kind are the same exactly if what they say is. -/
theorem same_document : ∀ {a b : Value}, a.isUniform plain → b.isUniform plain →
    same a.document b.document = same a b
  | view es, b, ha, hb | map _ es, b, ha, hb => by
    rw [isUniform] at ha
    cases b with
    | view ds | map _ ds =>
      rw [isUniform] at hb
      simp only [document, same, eachEntryIn_documentEntries ha hb]
      simp only [documentEntries_eq_map, List.length_map]
    | _ => rfl
  | list _ xs, b, ha, hb => by
    simp only [isUniform, Bool.and_eq_true] at ha
    cases b with
    | list _ ys =>
      simp only [isUniform, Bool.and_eq_true] at hb
      simp only [document, same, sameAll_documentAll ha.2 hb.2]
    | tuple ys => simp [isUniform, ha.1] at hb
    | _ => rfl
  | tuple xs, b, ha, hb => by
    simp only [isUniform, Bool.and_eq_true] at ha
    cases b with
    | tuple ys =>
      simp only [isUniform, Bool.and_eq_true] at hb
      simp only [document, same, sameAll_documentAll ha.2 hb.2]
    | list _ ys =>
      rw [Bool.not_eq_true'] at ha
      simp [isUniform, ha.1] at hb
    | _ => rfl
  | null, b, _, _ | bool _, b, _, _ | int _, b, _, _ | float _, b, _, _ | nan _, b, _, _
  | text _, b, _, _
  | bytes _, b, _, _ | member _, b, _, _ | frozenSet _, b, _, _ | record _ _, b, _, _
  | buffer _ _, b, _, _ | stream _ _, b, _, _ | fault _ _ _ _, b, _, _
  | object _ _ _, b, _, _ => by cases b <;> rfl
  | set _ _, _, ha, _ => by cases ha

theorem sameAll_documentAll : ∀ {xs ys : List Value}, areUniform plain xs → areUniform plain ys →
    sameAll (documentAll xs) (documentAll ys) = sameAll xs ys
  | [], ys, _, _ => by cases ys <;> rfl
  | x :: xs, ys, hx, hy => by
    cases ys with
    | nil => rfl
    | cons y ys =>
      simp only [areUniform, Bool.and_eq_true] at hx hy
      rw [documentAll, documentAll, sameAll, same_document hx.1 hy.1,
        sameAll_documentAll hx.2 hy.2, sameAll]

theorem eachEntryIn_documentEntries : ∀ {es ds : List (Value × Value)}, areUniformEntries plain es →
    areUniformEntries plain ds →
    eachEntryIn (documentEntries es) (documentEntries ds) = eachEntryIn es ds
  | [], _, _, _ => rfl
  | (k, v) :: es, ds, he, hd => by
    simp only [areUniformEntries, Bool.and_eq_true] at he
    have hany : (documentEntries ds).any (fun d => same k d.1 && same v.document d.2) =
        ds.any fun d => same k d.1 && same v d.2 := by
      rw [documentEntries_eq_map, List.any_map, Bool.eq_iff_iff, List.any_eq_true, List.any_eq_true]
      refine exists_congr fun d => and_congr_right fun hmem => ?_
      rw [Function.comp_apply, same_document he.1 (areUniformEntries_iff.1 hd d hmem)]
    rw [documentEntries, eachEntryIn, hany, eachEntryIn_documentEntries he.2 hd, eachEntryIn]

end

/-! ### Copies -/

variable {s t : State}

theorem freezeAll_eq_each (vs : List Value) : freezeAll vs = each freeze vs := by
  induction vs with
  | nil => rfl
  | cons v vs ih => rw [freezeAll, ih, each]

theorem thawAll_eq_each (vs : List Value) : thawAll vs = each thaw vs := by
  induction vs with
  | nil => rfl
  | cons v vs ih => rw [thawAll, ih, each]

/-- Entries whose values are copied one after the other, by freezing or by thawing, keep their
keys. -/
theorem forall₂_of_gives_copyEntries (f : Value → Making Value)
    (g : List (Value × Value) → Making (List (Value × Value))) (hnil : g [] = pure [])
    (hcons : ∀ e es, g (e :: es) = do
      let v ← f e.2
      return (e.1, v) :: (← g es))
    (h : (g es).Gives s es' t) :
    List.Forall₂ (fun e e' => e'.1 = e.1 ∧ ∃ u u', (f e.2).Gives u e'.2 u') es es' := by
  induction es generalizing s es' t with
  | nil =>
    simp only [hnil, gives_pure] at h
    rw [← h.1]
    exact .nil
  | cons e es ih =>
    simp only [hcons, gives_bind, gives_pure] at h
    obtain ⟨w, u, hw, es'', _, hes, rfl, -⟩ := h
    exact .cons ⟨rfl, s, u, hw⟩ (ih hes)

theorem forall₂_of_gives_freezeEntries (h : (freezeEntries es).Gives s es' t) :
    List.Forall₂ (fun e e' => e'.1 = e.1 ∧ ∃ u u', (freeze e.2).Gives u e'.2 u') es es' :=
  forall₂_of_gives_copyEntries freeze freezeEntries rfl (fun _ _ => rfl) h

theorem forall₂_of_gives_thawEntries (h : (thawEntries es).Gives s es' t) :
    List.Forall₂ (fun e e' => e'.1 = e.1 ∧ ∃ u u', (thaw e.2).Gives u e'.2 u') es es' :=
  forall₂_of_gives_copyEntries thaw thawEntries rfl (fun _ _ => rfl) h

/-- Entries of which each has the key that it had. -/
theorem keys_eq_of_forall₂ (h : List.Forall₂ (fun e e' : Value × Value => e'.1 = e.1) es es') :
    es'.map Prod.fst = es.map Prod.fst := by
  induction h with
  | nil => rfl
  | cons h _ ih => rw [List.map_cons, List.map_cons, h, ih]

/-- What can be hashed holds nothing that can be changed. -/
theorem Nested.relabel_eq (h : Nested false v) (hv : v.unhashable? = none) (f : Cell → Cell) :
    v.relabel f = v := by
  have hitems {items : List Value} (ih : ∀ v ∈ items, v.unhashable? = none → v.relabel f = v)
      (hhashable : ∀ v ∈ items, v.unhashable? = none) : relabelAll f items = items := by
    rw [relabelAll_eq_map]
    exact (List.map_congr_left fun v hv => ih v hv (hhashable v hv)).trans (List.map_id' items)
  induction h with
  | @scalar v h => cases v <;> first | rfl | cases h
  | tuple _ ih => rw [relabel, hitems ih (unhashable?_tuple_iff.1 hv)]
  | list _ _ => cases hv
  | members hv' hmembers _ ih =>
    rw [eq_frozenSet_of_members hv' hv, relabel, hitems ih hmembers.hashable]
  | entries hv' _ _ _ _ _ => exact absurd hv (unhashable?_of_entries hv')
  | record hrecords _ _ => cases hrecords

theorem Nested.eq_of_gives_copy (h : Nested false v) (hv : v.unhashable? = none)
    (hw : (copy v).Gives s w t) : w = v := by
  unfold copy at hw
  split at hw
  · exact absurd hw not_gives_fail
  · simp only [gives_bind, gives_pure] at hw
    obtain ⟨now, _, -, rfl, -⟩ := hw
    exact h.relabel_eq hv _

theorem documentAll_of_forall₂
    (h : List.Forall₂ (fun v w => w.document = v.document) items items') :
    documentAll items' = documentAll items := by
  induction h with
  | nil => rfl
  | cons h _ ih => rw [documentAll, documentAll, h, ih]

theorem documentEntries_of_forall₂
    (h : List.Forall₂ (fun e e' => e'.1 = e.1 ∧ e'.2.document = e.2.document) es es') :
    documentEntries es' = documentEntries es := by
  induction h with
  | nil => rfl
  | cons h _ ih => rw [documentEntries, documentEntries, h.1, h.2, ih]

/-! ### Freezing -/

theorem nested_all_of_forall₂ {p : Value → Value → Prop}
    (hp : ∀ v w, p v w → Nested false w ∧ w.isUniform plain) (h : List.Forall₂ p items items') :
    (∀ w ∈ items', Nested false w) ∧ areUniform plain items' := by
  have hitems : ∀ w ∈ items', Nested false w ∧ w.isUniform plain := by
    intro w hw
    obtain ⟨v, -, h⟩ := forall₂_exists_left h hw
    exact hp v w h
  exact ⟨fun w hw => (hitems w hw).1, areUniform_iff.2 fun w hw => (hitems w hw).2⟩

/-- Entries whose keys stayed what they were make a nested mapping again. -/
theorem nested_entries_of_forall₂ {p : Value → Value → Prop}
    (hp : ∀ v w, p v w → Nested false w ∧ w.isUniform plain) (hkeys : AreMembers (es.map Prod.fst))
    (hkey : ∀ e ∈ es, Nested false e.1)
    (h : List.Forall₂ (fun e e' => e'.1 = e.1 ∧ p e.2 e'.2) es es') (hw : w.entries? = some es') :
    Nested false w ∧ areUniformEntries plain es' := by
  have hkeys' : es'.map Prod.fst = es.map Prod.fst := keys_eq_of_forall₂ (h.imp fun _ _ h => h.1)
  have hentry : ∀ e' ∈ es', Nested false e'.1 ∧ Nested false e'.2 ∧ e'.2.isUniform plain := by
    intro e' he'
    obtain ⟨e, he, hfst, hsnd⟩ := forall₂_exists_left h he'
    exact ⟨hfst ▸ hkey e he, hp _ _ hsnd⟩
  refine ⟨.entries hw (hkeys' ▸ hkeys) (fun e he => (hentry e he).1) fun e he =>
    (hentry e he).2.1, ?_⟩
  exact areUniformEntries_iff.2 fun e he => (hentry e he).2.2

/-- What freezing makes of a nested value: it is nested and has no lists, and what can be hashed
stays as it is. -/
structure IsFrozen (v w : Value) : Prop where
  nested : Nested false w
  uniform : w.isUniform false
  eq_of_hashable : v.unhashable? = none → w = v

theorem isFrozen_tuple (h : List.Forall₂ IsFrozen items items') :
    Nested false (tuple items') ∧ (tuple items').isUniform false := by
  obtain ⟨hnested, huniform⟩ := nested_all_of_forall₂ (fun _ _ h => ⟨h.nested, h.uniform⟩) h
  refine ⟨.tuple hnested, ?_⟩
  rw [isUniform, huniform]
  rfl

/-- A nested value is frozen to a nested value without lists. -/
theorem Nested.frozen (hv : Nested false v) (h : (freeze v).Gives s w t) : IsFrozen v w := by
  have hall {items : List Value} {s t : State} {items' : List Value}
      (ih : ∀ v ∈ items, ∀ {w : Value} {s t : State}, (freeze v).Gives s w t → IsFrozen v w)
      (h : (freezeAll items).Gives s items' t) : List.Forall₂ IsFrozen items items' := by
    rw [freezeAll_eq_each] at h
    refine forall₂_imp_of_mem (forall₂_of_gives_each h) ?_
    rintro v hv w ⟨_, _, hw⟩
    exact ih v hv hw
  induction hv generalizing w s t with
  | scalar hv =>
    rw [freeze_of_isScalar hv] at h
    obtain rfl := Value.eq_of_gives_copy hv h
    exact ⟨.scalar hv, isUniform_of_isScalar hv, fun _ => rfl⟩
  | tuple _ ih =>
    simp only [freeze, gives_bind, gives_pure] at h
    obtain ⟨items', _, hitems, rfl, -⟩ := h
    have hforall := hall ih hitems
    obtain ⟨hnested, huniform⟩ := isFrozen_tuple hforall
    refine ⟨hnested, huniform, fun hhashable => ?_⟩
    rw [eq_of_forall₂ (hforall.imp fun _ _ h => h.eq_of_hashable)
      (unhashable?_tuple_iff.1 hhashable)]
  | list _ ih =>
    simp only [freeze, gives_bind, gives_pure] at h
    obtain ⟨items', _, hitems, rfl, -⟩ := h
    obtain ⟨hnested, huniform⟩ := isFrozen_tuple (hall ih hitems)
    exact ⟨hnested, huniform, by simp [unhashable?]⟩
  | @members v items hv' hmembers hnested ih =>
    have hfreeze : freeze v = (do return frozenSet (← freezeAll items)) := by
      cases v <;> cases hv' <;> rfl
    simp only [hfreeze, gives_bind, gives_pure] at h
    obtain ⟨items', _, hitems, rfl, -⟩ := h
    -- the members can be hashed, so that they stay as they are
    obtain rfl := eq_of_forall₂ ((hall ih hitems).imp fun _ _ h => h.eq_of_hashable)
      hmembers.hashable
    exact ⟨.members rfl hmembers hnested, rfl,
      fun hhashable => (eq_frozenSet_of_members hv' hhashable).symm⟩
  | @entries v es hv' hkeys hkey _ _ ihvalue =>
    have hfreeze : freeze v = (do return view (← freezeEntries es)) := by
      cases v <;> cases hv' <;> rfl
    simp only [hfreeze, gives_bind, gives_pure] at h
    obtain ⟨es', _, hes, rfl, -⟩ := h
    have hforall : List.Forall₂ (fun e e' => e'.1 = e.1 ∧ IsFrozen e.2 e'.2) es es' := by
      refine forall₂_imp_of_mem (forall₂_of_gives_freezeEntries hes) ?_
      rintro e he e' ⟨hfst, _, _, hsnd⟩
      exact ⟨hfst, ihvalue e he hsnd⟩
    obtain ⟨hnested, huniform⟩ := nested_entries_of_forall₂ (w := view es')
      (fun _ _ h => ⟨h.nested, h.uniform⟩) hkeys hkey hforall rfl
    exact ⟨hnested, huniform, fun hhashable => absurd hhashable (unhashable?_of_entries hv')⟩
  | record hrecords _ _ => cases hrecords

/-! ### Thawing -/

/-- A plain copy of a nested value: it says the same, is nested and has no tuples. -/
structure IsPlainCopy (v w : Value) : Prop where
  document : w.document = v.document
  nested : Nested false w
  uniform : w.isUniform true

theorem isPlainCopy_of_isScalar (h : v.isScalar) : IsPlainCopy v v :=
  ⟨rfl, .scalar h, isUniform_of_isScalar h⟩

/-- Copies of items make a list that says the same. -/
theorem isPlainCopy_list {c : Cell} (hv : v.document = list [] (documentAll items))
    (h : List.Forall₂ IsPlainCopy items items') : IsPlainCopy v (list c items') := by
  obtain ⟨hnested, huniform⟩ := nested_all_of_forall₂ (fun _ _ h => ⟨h.nested, h.uniform⟩) h
  exact ⟨by rw [hv, document, documentAll_of_forall₂
    (h.imp fun _ _ h => h.document)], .list hnested, huniform⟩

/-- Entries with copies as their values make a mapping that says the same. -/
theorem isPlainCopy_map {c : Cell} (hv : v.document = map [] (documentEntries es))
    (hkeys : AreMembers (es.map Prod.fst)) (hkey : ∀ e ∈ es, Nested false e.1)
    (h : List.Forall₂ (fun e e' => e'.1 = e.1 ∧ IsPlainCopy e.2 e'.2) es es') :
    IsPlainCopy v (map c es') := by
  obtain ⟨hnested, huniform⟩ := nested_entries_of_forall₂ (w := map c es')
    (fun _ _ h => ⟨h.nested, h.uniform⟩) hkeys hkey h rfl
  exact ⟨by rw [hv, document, documentEntries_of_forall₂ (h.imp fun _ _ h => ⟨h.1, h.2.document⟩)],
    hnested, huniform⟩

/-- A frozen nested value is thawed to a plain copy. -/
theorem Nested.thawed (hv : Nested false v) (hu : v.isUniform false) (h : (thaw v).Gives s w t) :
    IsPlainCopy v w := by
  induction hv generalizing w s t with
  | scalar hv =>
    rw [thaw_of_isScalar hv] at h
    obtain rfl := Value.eq_of_gives_copy hv h
    exact isPlainCopy_of_isScalar hv
  | @tuple items _ ih =>
    simp only [isUniform, Bool.and_eq_true, areUniform_iff] at hu
    simp only [thaw, gives_bind, thawAll_eq_each] at h
    obtain ⟨items', _, hitems, h⟩ := h
    obtain ⟨c, rfl⟩ := eq_of_gives_list h
    refine isPlainCopy_list rfl (forall₂_imp_of_mem (forall₂_of_gives_each hitems) ?_)
    rintro v hv w ⟨_, _, hw⟩
    exact ih v hv (hu.2 v hv) hw
  | list _ _ => simp [isUniform] at hu
  | @members v items hv' hmembers hnested _ =>
    -- a set that cannot change is copied, and nothing in it is new
    obtain rfl : v = frozenSet items := by
      cases v <;> cases hv' <;> first | rfl | cases hu
    have hset : Nested false (frozenSet items) := .members rfl hmembers hnested
    rw [hset.eq_of_gives_copy rfl h]
    exact ⟨rfl, hset, rfl⟩
  | @entries v es hv' hkeys hkey _ _ ihvalue =>
    have hthaw : thaw v = thawEntries es >>= Making.map := by
      cases v <;> cases hv' <;> rfl
    have hu' : ∀ e ∈ es, e.2.isUniform false := by
      rw [← areUniformEntries_iff, ← isUniform_of_entries hv']
      exact hu
    rw [hthaw, gives_bind] at h
    obtain ⟨es', _, hes, h⟩ := h
    obtain ⟨c, rfl⟩ := eq_of_gives_map h
    refine isPlainCopy_map (document_of_entries hv') hkeys hkey
      (forall₂_imp_of_mem (forall₂_of_gives_thawEntries hes) ?_)
    rintro e he e' ⟨hfst, _, _, hsnd⟩
    exact ⟨hfst, ihvalue e he (hu' e he) hsnd⟩
  | record hrecords _ _ => cases hrecords

end Value

end CredentialWrites
