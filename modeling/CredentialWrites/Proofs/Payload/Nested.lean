import CredentialWrites.Proofs.Payload.Dump
import CredentialWrites.Proofs.Value.Thawing

/-!
# Nested values in payloads

A nested value is frozen when it is given, thawed when a payload is made of it, and dumped with the
payload. What comes out says what was frozen, and has lists only. So two contents are the same
exactly if what comes out of them is, though nothing that comes out is the same as what it came
from.

* `Value.Nested.dumped` : the dump of a plain nested value.
* `Value.IsPlainCopy.same_eq` : plain copies are compared like what they are copies of.
-/

namespace CredentialWrites

namespace Value

open Making Payload

variable {v w : Value} {es es' : List (Value × Value)} {level : Nat} {s t : State}

/-- A nested value that can be hashed can be a key. -/
theorem Nested.isKey (h : Nested false v) (hv : v.unhashable? = none) : v.isKey := by
  have hall {items : List Value} (ih : ∀ v ∈ items, v.unhashable? = none → v.isKey)
      (hitems : ∀ v ∈ items, v.unhashable? = none) : areKeys items := by
    induction items with
    | nil => rfl
    | cons v vs ihs =>
      rw [List.forall_mem_cons] at ih hitems
      rw [areKeys, ih.1 hitems.1, ihs ih.2 hitems.2]
      rfl
  induction h with
  | @scalar v h => cases v <;> first | rfl | cases h
  | tuple _ ih =>
    rw [Value.isKey]
    exact hall ih (unhashable?_tuple_iff.1 hv)
  | list _ _ => cases hv
  | members hv' hmembers _ ih =>
    rw [eq_frozenSet_of_members hv' hv, Value.isKey, hall ih hmembers.hashable, hmembers.apart]
    rfl
  | entries hv' _ _ _ _ _ => exact absurd hv (unhashable?_of_entries hv')
  | record hrecords _ _ => cases hrecords

theorem forall₂_of_gives_dumpEntries (h : (dumpEntries level es).Gives s es' t) :
    List.Forall₂ (fun e e' => (∃ u u', (dump .any level e.1).Gives u e'.1 u') ∧
      ∃ u u', (dump .any level e.2).Gives u e'.2 u') es es' := by
  induction es generalizing s es' t with
  | nil =>
    simp only [dumpEntries, gives_pure] at h
    rw [← h.1]
    exact .nil
  | cons e es ih =>
    simp only [dumpEntries, gives_bind, gives_pure] at h
    obtain ⟨k, _, hk, w, _, hw, es'', _, hes, rfl, -⟩ := h
    exact .cons ⟨⟨_, _, hk⟩, _, _, hw⟩ (ih hes)

/-- A mapping can only be made anew of dumped entries if every dumped key can be hashed. Then it is
the key that it was, and the mapping has an entry for each. -/
theorem entries_of_gives_dumpEntries {es'' : List (Value × Value)}
    (hkeys : AreMembers (es.map Prod.fst)) (hkey : ∀ e ∈ es, Nested false e.1)
    (hdump : (dumpEntries level es).Gives s es' t)
    (hentries : entriesOf es' = .ok es'') :
    es'' = es' ∧
      List.Forall₂ (fun e e' => e'.1 = e.1 ∧ ∃ u u',
        (dump .any level e.2).Gives u e'.2 u') es es' := by
  have hhashable := hashable_of_entriesOf hentries
  have hboth := (List.forall₂_and_left _ _).2 ⟨hhashable, (forall₂_of_gives_dumpEntries hdump).flip⟩
  have hforall : List.Forall₂
      (fun e e' => e'.1 = e.1 ∧ ∃ u u', (dump .any level e.2).Gives u e'.2 u') es es' := by
    refine forall₂_imp_of_mem hboth.flip ?_
    rintro e he e' ⟨hkey', ⟨_, _, hdumpkey⟩, hdumpvalue⟩
    have hhash := hkeys.hashable e.1 (List.mem_map_of_mem he)
    obtain hfst | hne := key_of_gives_dump ((hkey e he).isKey hhash) hdumpkey
    · exact ⟨hfst, hdumpvalue⟩
    · exact absurd hkey' hne
  have hfst : es'.map Prod.fst = es.map Prod.fst :=
    keys_eq_of_forall₂ (hforall.imp fun _ _ h => h.1)
  rw [entriesOf_eq_ok hhashable (hfst ▸ hkeys.apart)] at hentries
  exact ⟨(Except.ok.inj hentries).symm, hforall⟩

/-- A plain nested value is dumped to a plain copy. -/
theorem Nested.dumped (hv : Nested false v) (hu : v.isUniform true)
    (h : (dump .any level v).Gives s w t) : IsPlainCopy v w := by
  induction hv generalizing w level s t with
  | @scalar v hv =>
    have hkept : isKept v := by
      cases v <;> first | rfl | cases hv
    rw [eq_of_gives_dump hkept h]
    exact isPlainCopy_of_isScalar hv
  | tuple _ _ => simp [isUniform] at hu
  | @list c items hitems ih =>
    obtain rfl | ⟨c', items', _, hdump, rfl⟩ := gives_dump_list h
    · exact ⟨rfl, .list hitems, hu⟩
    · simp only [isUniform, Bool.and_eq_true, areUniform_iff] at hu
      refine isPlainCopy_list rfl (forall₂_imp_of_mem (forall₂_of_gives_dumpAll hdump) ?_)
      rintro v hv w ⟨_, _, hw⟩
      exact ih v hv (hu.2 v hv) hw
  | @members v items hv' hmembers hnested _ =>
    obtain rfl : v = frozenSet items := by
      cases v <;> cases hv' <;> first | rfl | cases hu
    have hset : Nested false (frozenSet items) := .members rfl hmembers hnested
    -- a frozen set is dumped to a frozen set, which can be hashed
    have hhashable : w.unhashable? = none := by
      obtain rfl | ⟨_, _, -, -, rfl⟩ := gives_dump_frozenSet h <;> rfl
    obtain rfl | hne := key_of_gives_dump (hset.isKey rfl) h
    · exact ⟨rfl, hset, rfl⟩
    · exact absurd hhashable hne
  | @entries v es hv' hkeys hkey hvalue _ ihvalue =>
    have hnested : Nested false v := .entries hv' hkeys hkey hvalue
    have hkept : w = v ∨ ∃ c' es' es'' u, (dumpEntries (level + 1) es).Gives s es' u ∧
        Value.entriesOf es' = .ok es'' ∧ w = .map c' es'' := by
      cases v <;> cases hv'
      · exact .inl (eq_of_gives_dump rfl h)
      · exact gives_dump_map h
    obtain rfl | ⟨c', es', es'', _, hdump, hentries, rfl⟩ := hkept
    · exact ⟨rfl, hnested, hu⟩
    · rw [isUniform_of_entries hv', areUniformEntries_iff] at hu
      obtain ⟨rfl, hforall⟩ := entries_of_gives_dumpEntries hkeys hkey hdump hentries
      refine isPlainCopy_map (document_of_entries hv') hkeys hkey (forall₂_imp_of_mem hforall ?_)
      rintro e he e' ⟨hfst, _, _, hdumpvalue⟩
      exact ⟨hfst, ihvalue e he (hu e he) hdumpvalue⟩
  | record hrecords _ _ => cases hrecords

theorem IsPlainCopy.trans {u : Value} (h : IsPlainCopy v w) (h' : IsPlainCopy w u) :
    IsPlainCopy v u :=
  ⟨h'.document.trans h.document, h'.nested, h'.uniform⟩

/-- Plain copies of frozen values are the same exactly if those are. -/
theorem IsPlainCopy.same_eq {v' w' : Value} (hv : v.isUniform false) (hv' : v'.isUniform false)
    (h : IsPlainCopy v w) (h' : IsPlainCopy v' w') : same w w' = same v v' := by
  rw [← same_document h.uniform h'.uniform, h.document, h'.document, same_document hv hv']

end Value

end CredentialWrites
