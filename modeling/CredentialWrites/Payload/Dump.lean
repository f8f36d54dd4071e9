import CredentialWrites.Payload.Model
import CredentialWrites.Payload.Shape

/-!
# Payloads as plain values

A payload is dumped to a mapping of its fields in their order, and so is every model and every
record inside it; collections are made anew with dumped items, and everything else stays what it is,
as does what is nested too deeply. The body of a write leaves its permissions out if it has none.

* `Payload.dump` : a value with all models and records turned into mappings.
* `Payload.toDict` : the body of a write as a mapping.
-/

namespace CredentialWrites

namespace Payload

/-- Fields under their names as the entries of a mapping. -/
def namedEntries (names : List String) (fields : List Value) : List (Value × Value) :=
  (names.map .text).zip fields

/-- Named values as the entries of a mapping. -/
def entriesOf (fields : List (String × Value)) : List (Value × Value) :=
  fields.map fun f => (.text f.1, f.2)

mutual

/-- A value on a level with all models and records turned into mappings. -/
def dump (shape : FieldShape) (level : Nat) (v : Value) : Making Value :=
  if !shape.fits v && maxLevel < level then return v
  else match v with
  | .map _ es => do
    let es ← dumpEntries (level + 1) es
    Making.map (← Value.entriesOf es)
  | .list c items => do
    let items ← dumpAll shape.ofItems (shape.partLevel (.list c []) level) items
    Making.list items
  | .tuple items => do return .tuple (← dumpAll .any (level + 1) items)
  | .set _ items => do
    let items ← dumpAll .any (level + 1) items
    return .set (← Making.fresh) (← Value.distinct items)
  | .frozenSet items => do
    let items ← dumpAll .any (level + 1) items
    return .frozenSet (← Value.distinct items)
  | .record kind fields => do
    if shape = .permission then Making.map (entriesOf (← dumpGrant level kind fields))
    else
      let fields ← dumpAll .any (level + 1) fields
      Making.map (namedEntries kind.fieldNames fields)
  | .member m => if shape = .permission then Making.map [] else return .member m
  | .fault c cell args attrs => do
    if shape = .permission then
      Making.map (entriesOf (← dumpFields .permissionPayload level attrs))
    else return .fault c cell args attrs
  | .object kind c attrs => do
    if shape = .permission then
      Making.map (entriesOf (← dumpFields .permissionPayload level attrs))
    else if kind.isModel then Making.map (entriesOf (← dumpFields kind (level + 1) attrs))
    else return .object kind c attrs
  | v => return v

/-- The dumps of some values. -/
def dumpAll (shape : FieldShape) (level : Nat) : List Value → Making (List Value)
  | [] => return []
  | v :: vs => do
    let v ← dump shape level v
    return v :: (← dumpAll shape level vs)

/-- The dumps of keys and values. -/
def dumpEntries (level : Nat) : List (Value × Value) → Making (List (Value × Value))
  | [] => return []
  | (k, v) :: es => do
    let k ← dump .any level k
    let v ← dump .any level v
    return (k, v) :: (← dumpEntries level es)

/-- The dumps of the attributes that are fields of the kind. -/
def dumpFields (kind : ObjectKind) (level : Nat) :
    List (String × Value) → Making (List (String × Value))
  | [] => return []
  | (name, v) :: attrs => do
    if kind.fieldNames.contains name then
      let v ← dump (.ofField kind name) level v
      return (name, v) :: (← dumpFields kind level attrs)
    else dumpFields kind level attrs

/-- The dumps of the fields of a record that stands for a permission. Other records have none. -/
def dumpGrant (level : Nat) (kind : RecordKind) : List Value → Making (List (String × Value))
  | actor :: operations :: _ => do
    if kind = .permission then
      let actor ← dump .optionalText level actor
      let operations ← dump .texts level operations
      return [("actor", actor), ("operations", operations)]
    else return []
  | _ => return []

end

/-- The value is dumped as it is where nothing is expected. -/
def isKept : Value → Bool
  | .tuple _ => false
  | .frozenSet _ => false
  | .record _ _ => false
  | .list _ _ => false
  | .set _ _ => false
  | .map _ _ => false
  | .object _ _ _ => false
  | _ => true

theorem dump_of_isKept {level : Nat} {v : Value} (hv : isKept v) : dump .any level v = pure v := by
  cases v <;> first | contradiction | simp [dump]

/-- The fields of a body that are written: the permissions only if there are any. -/
def written (attrs : List (String × Value)) : List (String × Value) :=
  (Value.fieldsOf .requestPayload attrs).filter fun p =>
    p.1 ≠ "additional_permissions" || p.2.isTruthy

/-- The body of a write as a mapping. -/
def toDict (v : Value) : Making Value :=
  match v with
  | .object .requestPayload _ attrs => do
    Making.map (entriesOf (← dumpFields .requestPayload 1 (written attrs)))
  | v => Making.fail (.noAttribute v.kindName "to_dict")

/-- A permission as a mapping. -/
def permissionToDict (v : Value) : Making Value := do
  match ← ofPermission v with
  | .object kind _ attrs => Making.map (entriesOf (← dumpFields kind 1 attrs))
  | v => return v

/-- A request as a mapping. -/
def requestToDict (v : Value) : Making Value := do
  toDict (← ofRequest v)

end Payload

end CredentialWrites
