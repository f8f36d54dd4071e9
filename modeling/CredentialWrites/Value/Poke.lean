import CredentialWrites.Value.Methods

/-!
# Changes to objects

An object is changed at one place: an item is put under a key, removed or appended, or an attribute
is assigned. The result is the object with its new content, under the same cell; `Value.replace`
then carries it to every occurrence. Values that cannot change refuse.

* `Value.setItem`, `Value.deleteItem`, `Value.append` : changes to the items.
* `Value.setAttr` : changes to the attributes.
-/

namespace CredentialWrites

namespace Value

/-- The byte that a value is. -/
def byte (v : Value) : Except Fault UInt8 :=
  match v.index? with
  | none => .error (.notInteger v.kindName)
  | some i => if 0 ≤ i && i < 256 then .ok (UInt8.ofNat i.toNat) else .error .byteOutOfRange

/-- The values of a kind are laid out so that an index is read before it turns out that they cannot
be changed. -/
def isSequential : Value → Bool
  | null => false
  | bool _ => false
  | int _ => false
  | float _ => false
  | nan _ => false
  | stream _ _ => false
  | fault c _ _ _ => c.isOfBuilders
  | _ => true

/-- Why a value does not take a change at a key: the index is too large to be one, or the given
reason, which may be another one for an index. -/
def refusal (v key : Value) (atIndex otherwise : Fault) : Fault :=
  match key.index? with
  | some i =>
    if !v.isSequential then otherwise else if isHugeIndex i then .indexTooBig else atIndex
  | none => otherwise

/-- The object with a value put under a key. -/
def setItem (v key new : Value) : Except Fault Value :=
  match v with
  | list c vs => do
    let i ← place "list" .listAssignment vs.length key
    return list c (vs.set i new)
  | map c es => do return map c (← put key new es)
  | buffer c bs => do
    let i ← indexOf "bytearray" key
    let b ← new.byte
    let i ← placeAt .bufferItem bs.length i
    return buffer c (bs.set i b)
  | v =>
    .error (v.refusal key (.noItemAssignment v.kindName) (.noItemAssignment v.kindName))

/-- The object without the item under a key. -/
def deleteItem (v key : Value) : Except Fault Value :=
  match v with
  | list c vs => do
    let i ← place "list" .listAssignment vs.length key
    return list c (vs.eraseIdx i)
  | map c es =>
    match key.unhashable? with
    | some f => .error f
    | none =>
      if es.any fun e => alike key e.1 then .ok (map c (es.filter fun e => !alike key e.1))
      else do .error (.missingKey (← key.display))
  | buffer c bs => do
    let i ← place "bytearray" .bufferItem bs.length key
    return buffer c (bs.eraseIdx i)
  | v => .error (v.refusal key (.noIndexDeletion v.kindName) (.noItemDeletion v.kindName))

/-- Nothing can be appended to a value. What has an attribute of the name all the same has one that
is no method. -/
def unappendable? (v : Value) : Option Fault :=
  match v with
  | list _ _ => none
  | buffer _ _ => none
  | v => match v.storedAttr "append" with
    | .ok a => some (.notCallable a.kindName)
    | .error f => some f

/-- The object with one more item at its end. -/
def append (v new : Value) : Except Fault Value :=
  match v with
  | list c vs => .ok (list c (vs ++ [new]))
  | buffer c bs => do return buffer c (bs ++ [← new.byte])
  | v => .error (v.unappendable?.getD (.noAttribute v.kindName "append"))

/-- An attribute of a member of a vocabulary is assigned. Its name, its token and what is computed
from them stay; nothing depends on any other. -/
def setMemberAttr (m : Member) (name : String) : Except Fault Value :=
  match m, name with
  | _, "value" => .error (.memberAttribute name)
  | _, "name" => .error (.memberAttribute name)
  | .valueType _, "type" => .error (.noSetter m.vocabulary.name name)
  | .operation _, "operation" => .error (.noSetter m.vocabulary.name name)
  | m, _ => .ok (member m)

/-- The object with an attribute assigned. A model has its fields only, and private attributes,
whose names start with an underscore. -/
def setAttr (v : Value) (name : String) (new : Value) : Making Value :=
  match v with
  | record _ _ => Making.fail (.frozenField name)
  | member m => setMemberAttr m name
  | fault c cell args attrs => do
    if name = "args" then return fault c cell (← new.takeItems) attrs
    else return fault c cell args (putAttr name new attrs)
  | object kind c attrs => do
    if kind.isModel && !kind.fieldNames.contains name && !name.startsWith "_" then
      throw (.noField kind.className name)
    return object kind c (putAttr name new attrs)
  | v => Making.fail (v.unassignable name)

end Value

end CredentialWrites
