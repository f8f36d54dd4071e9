import CredentialWrites.Json.Writer
import CredentialWrites.Payload.Dump
import CredentialWrites.Text.Utf8

/-!
# Payloads as documents on the wire

A body is written as a document: collections become arrays, mappings, records and models objects,
members of a vocabulary their tokens, and bytes the text that they spell. What is no finite number
becomes null. The items of a stream are taken while they are written. Keys of mappings become texts;
nothing keeps two of them from becoming the same text. A value that has no written form, and one
that is nested too deeply, is refused.

* `Wire.key` : the name of a member, from a key.
* `Wire.document` : the document of a value.
* `Payload.toJson` : the text of a body.
-/

namespace CredentialWrites

namespace Wire

/-- The text that some bytes spell. -/
def textOfBytes (bs : List UInt8) : Except SerializationFault String :=
  match Text.Utf8.decode bs with
  | .ok s => .ok s
  | .error ⟨index, none⟩ => .error (.truncatedBytes index)
  | .error ⟨index, some length⟩ => .error (.malformedBytes length index)

/-- The member name that some bytes spell. -/
def keyOfBytes (bs : List UInt8) : Except SerializationFault String :=
  match Text.Utf8.decode bs with
  | .ok s => .ok s
  | .error ⟨index, length⟩ =>
    .error (.malformedKey (bs.getD index 0).toNat index (length.getD (bs.length - index)))

/-- The member name that a number becomes. -/
def keyOfDouble (x : Double) : String :=
  match x.magnitude with
  | .infinite => "None"
  | _ => DecimalLayout.display.write x

/-- The member name that a record becomes, which is its plain form. -/
def keyOfRecord (v : Value) : Except SerializationFault String :=
  match v.plain with
  | .ok w => .ok w.shown
  | .error f => .error (.failedKey ((f.faultClass?.map FaultClass.name).getD "") f.message)

mutual

/-- The member name that a key becomes. -/
def key : Value → Except SerializationFault String
  | .text s => .ok s
  | .member m => .ok m.token
  | .null => .ok "None"
  | .bool b => .ok (if b then "true" else "false")
  | .int i => .ok (toString i)
  | .float x => .ok (keyOfDouble x)
  | .nan _ => .ok "None"
  | .bytes bs => keyOfBytes bs
  | .tuple items => do return String.intercalate "," (← keys items)
  | .record kind fields => keyOfRecord (.record kind fields)
  | .fault c _ _ _ => .error (.unknownKeyKind c.path)
  | .object kind _ _ => .error (.unknownKeyKind kind.path)
  | v => .error (.badKey v.kindName)

/-- The member names that the parts of a key become. -/
def keys : List Value → Except SerializationFault (List String)
  | [] => .ok []
  | v :: vs => do
    let k ← key v
    return k :: (← keys vs)

end

/-- A number as a document. -/
def ofDouble (x : Double) : Json :=
  match x.magnitude with
  | .infinite => .null
  | _ => .number (DecimalLayout.wire.write x)

/-- Documents under the names of fields. -/
def namedMembers (names : List String) (documents : List Json) : Json :=
  .object (names.zip documents)

/-- A result of writing, or the fault of the cause. -/
def accept {α : Type} (r : Except SerializationFault α) : Making α :=
  match r with
  | .ok a => return a
  | .error cause => Making.fail (.serialization cause)

/-- The document of a member of a vocabulary, whose token is on a level of its own. -/
def ofMember (shape : FieldShape) (level : Nat) (m : Member) : Making Json :=
  if shape = .permission then return .object []
  else if !shape.fits (.member m) && Payload.maxLevel < level + 1 then
    Making.fail (.serialization .tooDeep)
  else return .text m.token

mutual

/-- The document of a value on a level, of which a shape is expected. -/
def document (shape : FieldShape) (level : Nat) (v : Value) : Making Json :=
  if !shape.fits v && Payload.maxLevel < level then Making.fail (.serialization .tooDeep)
  else match v with
  | .null => return .null
  | .bool b => return .bool b
  | .int i => return .int i
  | .float x => return ofDouble x
  | .nan _ => return .null
  | .text s => return .text s
  | .bytes bs => do return .text (← accept (textOfBytes bs))
  | .buffer _ bs => do return .text (← accept (textOfBytes bs))
  | .member m => ofMember shape level m
  | .tuple items => do return .array (← documents .any (level + 1) items)
  | .frozenSet items => do return .array (← documents .any (level + 1) items)
  | .list c items => do
    return .array (← documents shape.ofItems (shape.partLevel (.list c []) level) items)
  | .set _ items => do return .array (← documents .any (level + 1) items)
  | .map _ es => do return .object (← members (level + 1) es)
  | .view _ => Making.fail (.serialization (.unknownKind "mappingproxy"))
  | .stream c items => do
    let s ← get
    return .array (← taken c (level + 1) (s.takenFrom c) items)
  | .record kind fields => do
    if shape = .permission then return .object (← grantMembers level kind fields)
    else return namedMembers kind.fieldNames (← documents .any (level + 1) fields)
  | .fault c _ _ attrs => do
    if shape = .permission then return .object (← fieldMembers .permissionPayload level attrs)
    else Making.fail (.serialization (.unknownKind c.path))
  | .object kind _ attrs => do
    if shape = .permission then return .object (← fieldMembers .permissionPayload level attrs)
    else if kind.isModel then return .object (← fieldMembers kind (level + 1) attrs)
    else Making.fail (.serialization (.unknownKind kind.path))

/-- The documents of some values on a level. -/
def documents (shape : FieldShape) (level : Nat) : List Value → Making (List Json)
  | [] => return []
  | v :: vs => do
    let j ← document shape level v
    return j :: (← documents shape level vs)

/-- The documents of the items of a stream, without the first of them, which were taken before. -/
def taken (cell : Cell) (level : Nat) (before : Nat) : List Value → Making (List Json)
  | [] => return []
  | v :: vs => match before with
    | before + 1 => taken cell level before vs
    | 0 => do
      Making.take cell
      let j ← document .any level v
      return j :: (← taken cell level 0 vs)

/-- The members of the entries of a mapping on a level. -/
def members (level : Nat) : List (Value × Value) → Making (List (String × Json))
  | [] => return []
  | (k, v) :: es => do
    let name ← accept (key k)
    let j ← document .any level v
    return (name, j) :: (← members level es)

/-- The members of the attributes that are fields of the kind. -/
def fieldMembers (kind : ObjectKind) (level : Nat) :
    List (String × Value) → Making (List (String × Json))
  | [] => return []
  | (name, v) :: attrs => do
    if kind.fieldNames.contains name then
      let j ← document (.ofField kind name) level v
      return (name, j) :: (← fieldMembers kind level attrs)
    else fieldMembers kind level attrs

/-- The members of the fields of a record that stands for a permission. Other records have none. -/
def grantMembers (level : Nat) (kind : RecordKind) : List Value → Making (List (String × Json))
  | actor :: operations :: _ => do
    if kind = .permission then
      let actor ← document .optionalText level actor
      let operations ← document .texts level operations
      return [("actor", actor), ("operations", operations)]
    else return []
  | _ => return []

end

end Wire

namespace Payload

/-- The style that an indentation asks for. -/
def styleOf (indent : Value) : Except Fault JsonStyle :=
  match indent with
  | .null => .ok .compact
  | v => match v.index? with
    | none => .error (.notInteger v.kindName)
    | some i =>
      if i < 0 then .error .negativeUnsigned
      else if Nat.pow 2 64 ≤ i then .error .unsignedTooBig
      else .ok (.indented i.toNat)

/-- The text of a body with an indentation, or without if that is null. -/
def toJson (v indent : Value) : Making String :=
  match v with
  | .object .requestPayload _ attrs => do
    let style ← styleOf indent
    return (Json.object (← Wire.fieldMembers .requestPayload 1 (written attrs))).write style
  | v => Making.fail (.noAttribute v.kindName "to_json")

/-- The text of a request. -/
def requestToJson (v indent : Value) : Making String := do
  toJson (← ofRequest v) indent

end Payload

end CredentialWrites
