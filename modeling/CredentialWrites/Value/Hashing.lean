import CredentialWrites.Fault
import CredentialWrites.Value.Equality

/-!
# Values as keys and members

Only values that cannot change may be keys of mappings and members of sets. A tuple or a record may
if all its parts may; the record of a document stands for the hashable form of the document, in
which every mapping is a frozen set of its entries and every list a tuple.

* `Value.hashable` : the hashable form of a value.
* `Value.unhashable?` : why a value may not be a key.
* `Value.insert`, `Value.put` : a set and a mapping with one more member or entry.
-/

namespace CredentialWrites

namespace Value

mutual

/-- Why a value may not be a key, if it may not. -/
def unhashable? : Value → Option Fault
  | tuple items => unhashableAmong? items
  | record .json fields => match hashFormAll fields with
    | .ok _ => none
    | .error f => some f
  | record _ fields => unhashableAmong? fields
  | list _ _ => some (.unhashable "list")
  | set _ _ => some (.unhashable "set")
  | map _ _ => some (.unhashable "dict")
  | view _ => some (.unhashable "mappingproxy")
  | buffer _ _ => some (.unhashable "bytearray")
  | object kind _ _ => if kind.isModel then some (.unhashable kind.className) else none
  | stream _ _ => none
  | fault _ _ _ _ => none
  | frozenSet _ => none
  | null => none
  | bool _ => none
  | int _ => none
  | float _ => none
  | nan _ => none
  | text _ => none
  | bytes _ => none
  | member _ => none

/-- Why the first of the values that may not be a key may not. -/
def unhashableAmong? : List Value → Option Fault
  | [] => none
  | v :: vs => match unhashable? v with
    | some f => some f
    | none => unhashableAmong? vs

/-- The hashable form of a value, with the reason why it still may not be a key. -/
def hashForm : Value → Except Fault (Value × Option Fault)
  | view es => do return (frozenSet (← hashFormEntries es), none)
  | map _ es => do return (frozenSet (← hashFormEntries es), none)
  | list _ items => do
    let (forms, why) ← hashFormAll items
    return (tuple forms, why)
  | tuple items => do
    let (forms, why) ← hashFormAll items
    return (tuple forms, why)
  | set _ items => do return (frozenSet (← hashFormMembers items), none)
  | frozenSet items => do return (frozenSet (← hashFormMembers items), none)
  | record kind fields => .ok (record kind fields, match kind with
    | .json => (match hashFormAll fields with
      | .ok _ => none
      | .error f => some f)
    | _ => unhashableAmong? fields)
  | buffer c bs => .ok (buffer c bs, some (.unhashable "bytearray"))
  | object kind c attrs => .ok (object kind c attrs,
      if kind.isModel then some (.unhashable kind.className) else none)
  | stream c items => .ok (stream c items, none)
  | fault k c args attrs => .ok (fault k c args attrs, none)
  | null => .ok (null, none)
  | bool b => .ok (bool b, none)
  | int i => .ok (int i, none)
  | float x => .ok (float x, none)
  | nan c => .ok (nan c, none)
  | text s => .ok (text s, none)
  | bytes bs => .ok (bytes bs, none)
  | member m => .ok (member m, none)

/-- The hashable forms of the items of a list, with the first reason why one of them may not be a
key. -/
def hashFormAll : List Value → Except Fault (List Value × Option Fault)
  | [] => .ok ([], none)
  | v :: vs => do
    let (form, why) ← hashForm v
    let (forms, whys) ← hashFormAll vs
    return (form :: forms, why.or whys)

/-- The hashable forms of the members of a set, each of which has to be hashable. -/
def hashFormMembers : List Value → Except Fault (List Value)
  | [] => .ok []
  | v :: vs => do
    match ← hashForm v with
    | (_, some f) => .error f
    | (form, none) => return form :: (← hashFormMembers vs)

/-- The entries of a mapping as pairs of a key and a hashable form. -/
def hashFormEntries : List (Value × Value) → Except Fault (List Value)
  | [] => .ok []
  | (k, v) :: es => do
    match ← hashForm v with
    | (_, some f) => .error f
    | (form, none) => return tuple [k, form] :: (← hashFormEntries es)

end

/-- The hashable form of a value: mappings are frozen sets of their entries, lists are tuples and
sets are frozen. -/
def hashable (v : Value) : Except Fault Value := do
  return (← hashForm v).1

mutual

/-- What stands for a value when values are told apart by their hashes. -/
def hashKey : Value → Value
  | tuple items => tuple (hashKeyAll items)
  | record .json fields => match hashFormAll fields with
    | .ok (forms, _) => tuple forms
    | .error _ => tuple []
  | record kind fields => record kind (hashKeyAll fields)
  | v => v

/-- `hashKey` for every value of a list. -/
def hashKeyAll : List Value → List Value
  | [] => []
  | v :: vs => hashKey v :: hashKeyAll vs

end

/-- The two values are one as keys: they are the same and have one hash. -/
def alike (a b : Value) : Bool :=
  same a b && same a.hashKey b.hashKey

/-- The members of a set with one more. -/
def insert (v : Value) (items : List Value) : Except Fault (List Value) :=
  match v.unhashable? with
  | some f => .error f
  | none => .ok (if items.any (alike v) then items else items ++ [v])

/-- The members of the set of some values. -/
def distinct (vs : List Value) : Except Fault (List Value) :=
  vs.foldlM (fun items v => insert v items) []

/-- The entries of a mapping with a value put under a key. A key that is there already stays. -/
def putEntry (key value : Value) : List (Value × Value) → List (Value × Value)
  | [] => [(key, value)]
  | e :: es => if alike key e.1 then (e.1, value) :: es else e :: putEntry key value es

/-- The entries of a mapping with a value put under a key that has to be hashable. -/
def put (key value : Value) (entries : List (Value × Value)) :
    Except Fault (List (Value × Value)) :=
  match key.unhashable? with
  | some f => .error f
  | none => .ok (putEntry key value entries)

/-- The entries of the mapping made from some pairs, one after the other. -/
def entriesOf (pairs : List (Value × Value)) : Except Fault (List (Value × Value)) :=
  pairs.foldlM (fun es p => put p.1 p.2 es) []

end Value

end CredentialWrites
