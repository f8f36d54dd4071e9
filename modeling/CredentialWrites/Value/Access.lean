import CredentialWrites.Making
import CredentialWrites.Value.Display
import CredentialWrites.Value.Hashing

/-!
# Access to the parts of a value

The items that a value yields one after the other, its length, the item under a key or at an index,
and its attributes. An index counts from the end if it is negative. What a value does not offer is
refused with the kind of the value.

* `Value.items` : the items, those of a mapping being its keys.
* `Value.forEach` : what a computation makes of the items, which are taken if they come from a
  stream.
* `Value.item` : the item under a key.
* `Value.attr` : an attribute, stored or computed.
-/

namespace CredentialWrites

namespace Value

/-- The bytes as numbers. -/
def byteItems (bs : List UInt8) : List Value :=
  bs.map fun b => int b.toNat

/-- The fields of a model with their names, without its other attributes. -/
def fieldsOf (kind : ObjectKind) (attrs : List (String × Value)) : List (String × Value) :=
  attrs.filter fun a => kind.fieldNames.contains a.1

/-- The items of a value, if it has any to yield. Those of a stream count whether they were taken or
not. -/
def items : Value → Except Fault (List Value)
  | text s => .ok (s.toList.map fun c => text c.toString)
  | bytes bs => .ok (byteItems bs)
  | buffer _ bs => .ok (byteItems bs)
  | tuple vs => .ok vs
  | frozenSet vs => .ok vs
  | list _ vs => .ok vs
  | set _ vs => .ok vs
  | view es => .ok (es.map Prod.fst)
  | map _ es => .ok (es.map Prod.fst)
  | stream _ vs => .ok vs
  | object kind _ attrs =>
    if kind.isModel then .ok ((fieldsOf kind attrs).map fun p => tuple [text p.1, p.2])
    else .error (.notIterable kind.className)
  | v => match v.text? with
    | some s => .ok (s.toList.map fun c => text c.toString)
    | none => .error (.notIterable v.kindName)

/-- What a computation makes of each item of a value, one after the other. Items of a stream are
taken from it, and none that the computation does not come to see. -/
def forEach {α : Type} (f : Value → Making α) (v : Value) : Making (List α) :=
  match v with
  | stream c vs => do
    let s ← get
    Making.eachTaken c f (vs.drop (s.takenFrom c))
  | v => do Making.each f (← v.items)

/-- All items of a value. Those of a stream are taken from it. -/
def takeItems (v : Value) : Making (List Value) :=
  v.forEach fun item => return item

/-- The number of items of a value. -/
def length : Value → Except Fault Nat
  | text s => .ok s.length
  | bytes bs => .ok bs.length
  | buffer _ bs => .ok bs.length
  | tuple vs => .ok vs.length
  | frozenSet vs => .ok vs.length
  | list _ vs => .ok vs.length
  | set _ vs => .ok vs.length
  | view es => .ok es.length
  | map _ es => .ok es.length
  | v => match v.text? with
    | some s => .ok s.length
    | none => .error (.noLength v.kindName)

/-- The whole number that a value is as an index. -/
def index? : Value → Option Int
  | int i => some i
  | bool b => some (if b then 1 else 0)
  | _ => none

/-- The place that an index means among a number of items. -/
def placeOf (count : Nat) (i : Int) : Option Nat :=
  let j := if i < 0 then i + count else i
  if 0 ≤ j && j < count then some j.toNat else none

/-- A number is too large for an index. -/
def isHugeIndex (i : Int) : Bool :=
  i < -Nat.pow 2 63 || Nat.pow 2 63 ≤ i

/-- The number that a value is as an index of a container. -/
def indexOf (container : String) (key : Value) : Except Fault Int :=
  match key.index? with
  | none => .error (.badIndex container key.kindName)
  | some i => if isHugeIndex i then .error .indexTooBig else .ok i

/-- The place that an index means among a number of items, which has to be there. -/
def placeAt (use : IndexUse) (count : Nat) (i : Int) : Except Fault Nat :=
  match placeOf count i with
  | some j => .ok j
  | none => .error (.indexOutOfRange use)

/-- The place that a value means as an index among a number of items of a container. -/
def place (container : String) (use : IndexUse) (count : Nat) (key : Value) : Except Fault Nat := do
  placeAt use count (← indexOf container key)

/-- The item at a place, or the fault that the place is not there. -/
def itemAt (container : String) (use : IndexUse) (vs : List Value) (key : Value) :
    Except Fault Value :=
  do
    let j ← place container use vs.length key
    match vs[j]? with
    | some v => return v
    | none => .error (.indexOutOfRange use)

/-- The value of the entry under a key. -/
def entryAt (es : List (Value × Value)) (key : Value) : Except Fault Value :=
  match key.unhashable? with
  | some f => .error f
  | none => match es.find? fun e => alike key e.1 with
    | some e => .ok e.2
    | none => do .error (.missingKey (← key.display))

/-- The item of a value under a key. -/
def item (v key : Value) : Except Fault Value :=
  match v with
  | list _ vs => itemAt "list" .listItem vs key
  | tuple vs => itemAt "tuple" .tupleItem vs key
  | bytes bs => itemAt "bytes" .bytesItem (byteItems bs) key
  | buffer _ bs => itemAt "bytearray" .bufferItem (byteItems bs) key
  | view es => entryAt es key
  | map _ es => entryAt es key
  | v => match v.text? with
    | some s => itemAt "str" .textItem (s.toList.map fun c => text c.toString) key
    | none => .error (.notSubscriptable v.kindName)

/-- The item at the end of a path of keys. -/
def itemAlong (v : Value) (path : List Value) : Except Fault Value :=
  path.foldlM item v

/-- The method of an object, of which nothing is known but that it is one. -/
def boundMethod : Value :=
  object (.foreign ⟨"method", "method", "<bound method>"⟩) [] []

/-- The names of the methods of a record. -/
def recordMethods : RecordKind → List String
  | .actor => ["app", "user", "client", "from_identity"]
  | .name => ["of"]
  | .permission => ["builder", "to_dict"]
  | .password => []
  | .json => ["of", "to_dict"]
  | .request => ["builder", "to_payload", "to_dict", "to_json"]

/-- The names of the methods of an object. -/
def objectMethods : ObjectKind → List String
  | .permissionPayload => ["from_permission"]
  | .requestPayload => ["from_request", "to_dict", "to_json"]
  | .permissionBuilder =>
    ["app", "user", "zone_user", "client", "zone_client", "operation", "operations", "build"]
  | .requestBuilder =>
    ["password_value", "json_value", "name", "overwrite", "additional_permission",
      "additional_permissions", "build"]
  | .foreign _ => []

/-- An attribute among those of an object, or else one of its methods. -/
def attrAmong (kind : String) (attrs : List (String × Value)) (methods : List String)
    (attr : String) : Except Fault Value :=
  match attrs.lookup attr with
  | some v => .ok v
  | none => if methods.contains attr then .ok boundMethod else .error (.noAttribute kind attr)

/-- The attributes of a member of a vocabulary. The other members of the vocabulary are among
them. -/
def memberAttr (m : Member) (attr : String) : Except Fault Value :=
  match m, attr with
  | _, "value" => .ok (text m.token)
  | _, "_value_" => .ok (text m.token)
  | _, "name" => .ok (text m.name)
  | _, "_name_" => .ok (text m.name)
  | _, "_sort_order_" => .ok (int (m.vocabulary.members.findIdx (· = m)))
  | .valueType _, "type" => .ok (text m.token)
  | .operation _, "operation" => .ok (text m.token)
  | .operation _, "from_token" => .ok boundMethod
  | _, _ => match m.vocabulary.members.find? (·.name = attr) with
    | some other => .ok (member other)
    | none => .error (.noAttribute m.vocabulary.name attr)

/-- The parts of a number. -/
def numberAttr (v : Value) (attr : String) : Except Fault Value :=
  match v, attr with
  | int i, "real" => .ok (int i)
  | int i, "numerator" => .ok (int i)
  | int _, "denominator" => .ok (int 1)
  | int _, "imag" => .ok (int 0)
  | bool b, "real" => .ok (int (if b then 1 else 0))
  | bool b, "numerator" => .ok (int (if b then 1 else 0))
  | bool _, "denominator" => .ok (int 1)
  | bool _, "imag" => .ok (int 0)
  | float x, "real" => .ok (float x)
  | float _, "imag" => .ok (float (Double.ofInt 0))
  | nan c, "real" => .ok (nan c)
  | nan _, "imag" => .ok (float (Double.ofInt 0))
  | v, attr => .error (.noAttribute v.kindName attr)

/-- The token of what is given as the type of a credential value. -/
def typeToken (v : Value) : Except Fault Value :=
  match v with
  | member m => memberAttr m "type"
  | fault c _ _ attrs => attrAmong c.name attrs [] "type"
  | object kind _ attrs => attrAmong kind.className attrs (objectMethods kind) "type"
  | v => .error (.noAttribute v.kindName "type")

mutual

/-- An attribute of a value, other than those that make a new object. -/
def storedAttr (attr : String) : Value → Except Fault Value
  | member m => memberAttr m attr
  | record kind fields => match kind with
    | .request => requestAttr attr fields
    | .actor =>
      if attr = "identity" then do return text (← plainActor fields)
      else attrAmong kind.className (kind.fieldNames.zip fields) (recordMethods kind) attr
    | .password =>
      if attr = "value_type" then .ok (member (.valueType .password))
      else attrAmong kind.className (kind.fieldNames.zip fields) (recordMethods kind) attr
    | .json =>
      if attr = "value_type" then .ok (member (.valueType .json))
      else attrAmong kind.className (kind.fieldNames.zip fields) (recordMethods kind) attr
    | kind => attrAmong kind.className (kind.fieldNames.zip fields) (recordMethods kind) attr
  | fault c _ args attrs =>
    if attr = "args" then .ok (tuple args) else attrAmong c.name attrs [] attr
  | object kind _ attrs => attrAmong kind.className attrs (objectMethods kind) attr
  | v => numberAttr v attr

/-- An attribute of a request with some fields. The name is that of its credential name, the type
and the content those of its credential value, and all of them are null if that is. -/
def requestAttr (attr : String) : List Value → Except Fault Value
  | overwrite :: name :: value :: permissions :: _ => match attr with
    | "overwrite" => .ok overwrite
    | "credential_name" => .ok name
    | "credential_value" => .ok value
    | "additional_permissions" => .ok permissions
    | "name" => match name with
      | null => .ok null
      | name => storedAttr "name" name
    | "value_type" => match value with
      | null => .ok null
      | value => storedAttr "value_type" value
    | "type" => match value with
      | null => .ok null
      | value => do typeToken (← storedAttr "value_type" value)
    | "value" => match value with
      | null => .ok null
      | value => storedAttr "value" value
    | attr => attrAmong "WriteRequest" [] (recordMethods .request) attr
  | _ => .error (.noAttribute "WriteRequest" attr)

end

/-- The wire tokens of the operations that a value yields. -/
def operationTokens (operations : Value) : Making (List Value) :=
  operations.forEach fun op => return ← op.storedAttr "operation"

/-- An attribute of a value. The tokens of a permission's operations are a new list each time. -/
def attr (v : Value) (name : String) : Making Value :=
  match v, name with
  | record .permission [_, operations], "operation_tokens" => do
    Making.list (← operationTokens operations)
  | v, name => v.storedAttr name

end Value

end CredentialWrites
