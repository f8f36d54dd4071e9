import CredentialWrites.Proofs.Value.Parts
import CredentialWrites.Value.Snapshot

/-!
# What is read-only in a snapshot

The snapshot of data is read-only wherever a path leads in it, but for one kind of leaf: bytes that
can be changed are copied, and stay bytes that can be changed. Every other part refuses to have an
item put, removed or appended.

* `Value.isData`, `Value.isFrozen` : data, and the snapshots of data, with such leaves or without.
* `Value.ItemChange` : a change to the items of a value.
* `Value.exists_itemChange_iff` : the parts of a snapshot that can be changed.
-/

namespace CredentialWrites

namespace Value

open Making

mutual

/-- The value is nested from mappings, sequences and sets, down to leaves without parts, among which
are bytes that can be changed only if that is allowed. Keys are not looked at; no path leads into
one. -/
def isData (buffers : Bool) : Value → Bool
  | null => true
  | bool _ => true
  | int _ => true
  | float _ => true
  | nan _ => true
  | text _ => true
  | bytes _ => true
  | buffer _ _ => buffers
  | tuple items => areData buffers items
  | frozenSet items => areData buffers items
  | list _ items => areData buffers items
  | set _ items => areData buffers items
  | view es => areDataEntries buffers es
  | map _ es => areDataEntries buffers es
  | _ => false

/-- `isData` for every value of a list. -/
def areData (buffers : Bool) : List Value → Bool
  | [] => true
  | v :: vs => isData buffers v && areData buffers vs

/-- `isData` for the values of a mapping. -/
def areDataEntries (buffers : Bool) : List (Value × Value) → Bool
  | [] => true
  | (_, v) :: es => isData buffers v && areDataEntries buffers es

end

mutual

/-- The value is data without mappings, lists and sets that can be changed. -/
def isFrozen (buffers : Bool) : Value → Bool
  | null => true
  | bool _ => true
  | int _ => true
  | float _ => true
  | nan _ => true
  | text _ => true
  | bytes _ => true
  | buffer _ _ => buffers
  | tuple items => areFrozen buffers items
  | frozenSet items => areFrozen buffers items
  | view es => areFrozenEntries buffers es
  | _ => false

/-- `isFrozen` for every value of a list. -/
def areFrozen (buffers : Bool) : List Value → Bool
  | [] => true
  | v :: vs => isFrozen buffers v && areFrozen buffers vs

/-- `isFrozen` for the values of a mapping. -/
def areFrozenEntries (buffers : Bool) : List (Value × Value) → Bool
  | [] => true
  | (_, v) :: es => isFrozen buffers v && areFrozenEntries buffers es

end

variable {buffers : Bool}

theorem areFrozen_iff {vs : List Value} : areFrozen buffers vs ↔ ∀ v ∈ vs, v.isFrozen buffers := by
  induction vs with
  | nil => simp [areFrozen]
  | cons v vs ih => simp [areFrozen, ih]

theorem areFrozenEntries_iff {es : List (Value × Value)} :
    areFrozenEntries buffers es ↔ ∀ e ∈ es, e.2.isFrozen buffers := by
  induction es with
  | nil => simp [areFrozenEntries]
  | cons e es ih =>
    obtain ⟨k, v⟩ := e
    simp [areFrozenEntries, ih]

/-! ### Snapshots -/

/-- A copy of a leaf is frozen if every leaf of its kind is. -/
theorem isFrozen_of_gives_copy {v w : Value} {s t : State} (h : (copy v).Gives s w t)
    (hleaf : ∀ f, (v.relabel f).isFrozen buffers) : w.isFrozen buffers := by
  unfold copy at h
  split at h
  · exact absurd h not_gives_fail
  · obtain ⟨now, u, -, h⟩ := gives_bind.1 h
    rw [← (gives_pure.1 h).1]
    exact hleaf _

mutual

/-- The snapshot of data is frozen. -/
theorem isFrozen_of_gives_freeze : ∀ {v w : Value} {s t : State}, v.isData buffers →
    (freeze v).Gives s w t → w.isFrozen buffers
  | view _, w, s, t, hv, h | map _ _, w, s, t, hv, h => by
    obtain ⟨es', u, hes, h⟩ := gives_bind.1 h
    rw [← (gives_pure.1 h).1]
    exact areFrozenEntries_of_gives_freezeEntries hv hes
  | list _ _, w, s, t, hv, h | tuple _, w, s, t, hv, h | set _ _, w, s, t, hv, h
  | frozenSet _, w, s, t, hv, h => by
    obtain ⟨items', u, hitems, h⟩ := gives_bind.1 h
    rw [← (gives_pure.1 h).1]
    exact areFrozen_of_gives_freezeAll hv hitems
  | null, w, s, t, hv, h | bool _, w, s, t, hv, h | int _, w, s, t, hv, h | float _, w, s, t, hv, h
  | nan _, w, s, t, hv, h | text _, w, s, t, hv, h | bytes _, w, s, t, hv, h
  | buffer _ _, w, s, t, hv, h => by
    simp only [freeze] at h
    exact isFrozen_of_gives_copy h fun _ => hv
  | member _, w, s, t, hv, h | record _ _, w, s, t, hv, h | stream _ _, w, s, t, hv, h
  | fault _ _ _ _, w, s, t, hv, h | object _ _ _, w, s, t, hv, h => by cases hv

theorem areFrozen_of_gives_freezeAll : ∀ {vs ws : List Value} {s t : State}, areData buffers vs →
    (freezeAll vs).Gives s ws t → areFrozen buffers ws
  | [], ws, s, t, _, h => by
    rw [← (gives_pure.1 h).1]
    rfl
  | v :: vs, ws, s, t, hv, h => by
    simp only [areData, Bool.and_eq_true] at hv
    obtain ⟨w, u, hw, h⟩ := gives_bind.1 h
    obtain ⟨ws', u', hws, h⟩ := gives_bind.1 h
    rw [← (gives_pure.1 h).1, areFrozen, isFrozen_of_gives_freeze hv.1 hw,
      areFrozen_of_gives_freezeAll hv.2 hws]
    rfl

theorem areFrozenEntries_of_gives_freezeEntries : ∀ {es es' : List (Value × Value)} {s t : State},
    areDataEntries buffers es → (freezeEntries es).Gives s es' t → areFrozenEntries buffers es'
  | [], es', s, t, _, h => by
    rw [← (gives_pure.1 h).1]
    rfl
  | (k, v) :: es, es', s, t, hv, h => by
    simp only [areDataEntries, Bool.and_eq_true] at hv
    obtain ⟨w, u, hw, h⟩ := gives_bind.1 h
    obtain ⟨es'', u', hes, h⟩ := gives_bind.1 h
    rw [← (gives_pure.1 h).1, areFrozenEntries, isFrozen_of_gives_freeze hv.1 hw,
      areFrozenEntries_of_gives_freezeEntries hv.2 hes]
    rfl

end

/-! ### Paths -/

/-- What is found under a key of a frozen value is frozen. -/
theorem isFrozen_of_item {v key w : Value} (hv : v.isFrozen buffers) (h : v.item key = .ok w) :
    w.isFrozen buffers := by
  have hbytes (bs : List UInt8) (hw : w ∈ byteItems bs) : w.isFrozen buffers := by
    obtain ⟨b, -, rfl⟩ := List.mem_map.1 hw
    rfl
  have htext (cs : List Char) (hw : w ∈ cs.map fun c => text c.toString) : w.isFrozen buffers := by
    obtain ⟨c, -, rfl⟩ := List.mem_map.1 hw
    rfl
  cases v with
  | tuple items => exact areFrozen_iff.1 hv w (mem_of_itemAt h)
  | view es =>
    obtain ⟨k, hmem⟩ := exists_mem_of_entryAt h
    exact areFrozenEntries_iff.1 hv _ hmem
  | bytes bs => exact hbytes bs (mem_of_itemAt h)
  | buffer c bs => exact hbytes bs (mem_of_itemAt h)
  | text s => exact htext s.toList (mem_of_itemAt h)
  | null | bool _ | int _ | float _ | nan _ | frozenSet _ => cases h
  | member _ | record _ _ | list _ _ | set _ _ | map _ _ | stream _ _ | fault _ _ _ _
  | object _ _ _ =>
    cases hv

theorem isFrozen_of_itemAlong {v w : Value} {path : List Value} (hv : v.isFrozen buffers)
    (h : v.itemAlong path = .ok w) : w.isFrozen buffers := by
  induction path generalizing v with
  | nil =>
    rw [← Except.pure_eq_ok.1 h]
    exact hv
  | cons key path ih =>
    rw [itemAlong, List.foldlM_cons] at h
    obtain ⟨u, hu, h⟩ := Except.bind_eq_ok.1 h
    exact ih (isFrozen_of_item hv hu) h

/-! ### Changes -/

/-- A change to the items of a value: one is put under a key, removed, or appended. -/
inductive ItemChange where
  | set (key new : Value)
  | delete (key : Value)
  | append (new : Value)

/-- The value after a change to its items. -/
def changed (v : Value) : ItemChange → Except Fault Value
  | .set key new => v.setItem key new
  | .delete key => v.deleteItem key
  | .append new => v.append new

/-- A frozen value that takes a change is one of bytes. -/
theorem isBuffer_of_changed {v w : Value} {c : ItemChange} (hv : v.isFrozen buffers)
    (h : v.changed c = .ok w) : buffers ∧ ∃ cell bs, v = .buffer cell bs := by
  cases v with
  | buffer cell bs => exact ⟨hv, cell, bs, rfl⟩
  | null | bool _ | int _ | float _ | nan _ | text _ | bytes _ | tuple _ | frozenSet _ | view _ =>
    cases c <;> cases h
  | member _ | record _ _ | list _ _ | set _ _ | map _ _ | stream _ _ | fault _ _ _ _
  | object _ _ _ =>
    cases hv

/-- What can be changed in a frozen value are the bytes that can be changed, and nothing else. -/
theorem exists_changed_iff {v : Value} (hv : v.isFrozen buffers) :
    (∃ c w, v.changed c = .ok w) ↔ ∃ cell bs, v = .buffer cell bs := by
  constructor
  · rintro ⟨c, w, h⟩
    exact (isBuffer_of_changed hv h).2
  · rintro ⟨cell, bs, rfl⟩
    exact ⟨.append (.int 0), .buffer cell (bs ++ [0]), rfl⟩

end Value

end CredentialWrites
