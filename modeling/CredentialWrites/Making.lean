import CredentialWrites.Fault

/-!
# Making objects and taking from streams

A computation that makes objects gives each a cell of its own, and one that takes items from a
stream leaves the others for later. What it has made and taken by then stays so when it fails.

* `Making.fresh` : the cell of a new object.
* `Making.eachTaken` : what a computation makes of the items that are left in a stream.
-/

namespace CredentialWrites

namespace Making

/-- The number of moments so far, and how many items were taken from each stream. -/
structure State where
  moment : Nat
  taken : List (Cell × Nat)
deriving Repr

namespace State

/-- Nothing was made or taken. -/
def start : State :=
  ⟨0, []⟩

/-- The number of items taken from a stream. -/
def takenFrom (s : State) (cell : Cell) : Nat :=
  (s.taken.lookup cell).getD 0

/-- One more item was taken from a stream. -/
def take (s : State) (cell : Cell) : State :=
  { s with taken := (cell, s.takenFrom cell + 1) :: s.taken.filter fun t => t.1 ≠ cell }

end State

end Making

/-- A computation that makes objects, takes items from streams, and can fail. -/
abbrev Making := ExceptT Fault (StateM Making.State)

namespace Making

/-- The next moment. -/
def tick : Making Nat := do
  let s ← get
  set { s with moment := s.moment + 1 }
  return s.moment

/-- The cell of a new object. -/
def fresh : Making Cell := do
  return [← tick]

/-- A failure. -/
def fail {α : Type} (f : Fault) : Making α :=
  throw f

/-- A new list. -/
def list (items : List Value) : Making Value := do
  return .list (← fresh) items

/-- A new mapping. -/
def map (entries : List (Value × Value)) : Making Value := do
  return .map (← fresh) entries

/-- A new object of a kind. -/
def object (kind : ObjectKind) (attrs : List (String × Value)) : Making Value := do
  return .object kind (← fresh) attrs

/-- One item is taken from a stream. -/
def take (cell : Cell) : Making Unit :=
  modify fun s => s.take cell

/-- What a computation makes of each of some values, from left to right. -/
def each {α : Type} (f : Value → Making α) : List Value → Making (List α)
  | [] => return []
  | v :: vs => do
    let a ← f v
    return a :: (← each f vs)

/-- What a computation makes of each item left in a stream. An item is taken before the computation
sees it. -/
def eachTaken {α : Type} (cell : Cell) (f : Value → Making α) : List Value → Making (List α)
  | [] => return []
  | v :: vs => do
    take cell
    let a ← f v
    return a :: (← eachTaken cell f vs)

end Making

end CredentialWrites
