import CredentialWrites.Value.Access

/-!
# Snapshots of values

A frozen value shares nothing that can be changed with the value it was made from: mappings become
read-only views, lists and tuples become tuples, sets become frozen sets, and every other part is
copied. Thawing goes back to mappings and lists, which are new, and copies every other part.

* `Value.freeze`, `Value.freezeMapping`, `Value.freezeSequence` : read-only snapshots.
* `Value.thaw` : a plain copy that can be changed.
* `Value.copy` : a copy of one object and all its parts.
-/

namespace CredentialWrites

namespace Value

mutual

/-- Why a value cannot be copied, if it cannot. Views and streams have no copies. -/
def uncopyable? : Value → Option Fault
  | view _ => some (.uncopyable "mappingproxy")
  | stream _ _ => some (.uncopyable "generator")
  | tuple items => uncopyableAmong? items
  | frozenSet items => uncopyableAmong? items
  | record _ fields => uncopyableAmong? fields
  | list _ items => uncopyableAmong? items
  | set _ items => uncopyableAmong? items
  | map _ es => uncopyableEntry? es
  | fault _ _ args attrs => match uncopyableAmong? args with
    | some f => some f
    | none => uncopyableAttr? attrs
  | object _ _ attrs => uncopyableAttr? attrs
  | _ => none

/-- Why the first of the values that cannot be copied cannot. -/
def uncopyableAmong? : List Value → Option Fault
  | [] => none
  | v :: vs => match uncopyable? v with
    | some f => some f
    | none => uncopyableAmong? vs

/-- Why the first of the entries that cannot be copied cannot. The value of an entry is copied
before its key. -/
def uncopyableEntry? : List (Value × Value) → Option Fault
  | [] => none
  | (k, v) :: es => match uncopyable? v with
    | some f => some f
    | none => match uncopyable? k with
      | some f => some f
      | none => uncopyableEntry? es

/-- Why the first of the attributes that cannot be copied cannot. -/
def uncopyableAttr? : List (String × Value) → Option Fault
  | [] => none
  | (_, v) :: attrs => match uncopyable? v with
    | some f => some f
    | none => uncopyableAttr? attrs

end

/-- A copy of a value, in which every object is a new one. -/
def copy (v : Value) : Making Value :=
  match v.uncopyable? with
  | some f => Making.fail f
  | none => do
    let now ← Making.tick
    return v.relabel (now :: ·)

mutual

/-- A read-only snapshot of a value. -/
def freeze : Value → Making Value
  | view es => do return view (← freezeEntries es)
  | map _ es => do return view (← freezeEntries es)
  | list _ items => do return tuple (← freezeAll items)
  | tuple items => do return tuple (← freezeAll items)
  | set _ items => do return frozenSet (← freezeAll items)
  | frozenSet items => do return frozenSet (← freezeAll items)
  | v => copy v

/-- Read-only snapshots of some values. -/
def freezeAll : List Value → Making (List Value)
  | [] => return []
  | v :: vs => do
    let v ← freeze v
    return v :: (← freezeAll vs)

/-- Entries with read-only snapshots of their values. Keys cannot change. -/
def freezeEntries : List (Value × Value) → Making (List (Value × Value))
  | [] => return []
  | (k, v) :: es => do
    let v ← freeze v
    return (k, v) :: (← freezeEntries es)

end

/-- The read-only snapshot of a mapping. -/
def freezeMapping (v : Value) : Making Value :=
  match v.entries? with
  | some es => do return view (← freezeEntries es)
  | none => Making.fail (.noAttribute v.kindName "items")

/-- The snapshot of a sequence as a tuple. No sequence counts as an empty one. -/
def freezeSequence (v : Value) : Except Fault Value :=
  match v with
  | null => .ok (tuple [])
  | v => do
    match ← v.length with
    | 0 => return tuple []
    | 1 => return tuple [← v.item (int 0)]
    | _ => return tuple (← v.items)

mutual

/-- A plain copy of a value that can be changed. -/
def thaw : Value → Making Value
  | view es => do
    let es ← thawEntries es
    Making.map es
  | map _ es => do
    let es ← thawEntries es
    Making.map es
  | list _ items => do
    let items ← thawAll items
    Making.list items
  | tuple items => do
    let items ← thawAll items
    Making.list items
  | v => copy v

/-- Plain copies of some values. -/
def thawAll : List Value → Making (List Value)
  | [] => return []
  | v :: vs => do
    let v ← thaw v
    return v :: (← thawAll vs)

/-- Entries with plain copies of their values. -/
def thawEntries : List (Value × Value) → Making (List (Value × Value))
  | [] => return []
  | (k, v) :: es => do
    let v ← thaw v
    return (k, v) :: (← thawEntries es)

end

end Value

end CredentialWrites
