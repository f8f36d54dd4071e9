import CredentialWrites.FaultClass
import CredentialWrites.Number.Double
import CredentialWrites.Vocabulary

/-!
# Values

What callers hand to the library and get back from it. Some values never change: numbers, texts,
tuples, frozen sets, read-only views of mappings and the records of the domain. The others are
objects: lists, sets, mappings, buffers of bytes, models, builders, held faults. An object carries a
*cell*, its identity; two occurrences of one cell are one object, and a change to it shows at both.

* `Value.replace` : a change of one object, at all its occurrences.
* `Value.relabel` : a copy of everything that can be changed, under new cells.
-/

namespace CredentialWrites

/-- The identity of an object. A new object has the moment of its making as its cell; a copy puts
the moment of the copying in front of the cell of what was copied. -/
abbrev Cell := List Nat

/-- The immutable records of the domain. -/
inductive RecordKind where
  | actor | name | permission | password | json | request
deriving Repr, DecidableEq

namespace RecordKind

/-- The name of a kind of records. -/
def className : RecordKind → String
  | actor => "Actor"
  | name => "CredentialName"
  | permission => "CredentialPermission"
  | password => "PasswordValue"
  | json => "JsonValue"
  | request => "WriteRequest"

/-- The names of the fields of a record. -/
def fieldNames : RecordKind → List String
  | actor => ["actor_type", "primary_identifier", "zone_id"]
  | name => ["name"]
  | permission => ["actor", "operations"]
  | password => ["value"]
  | json => ["value"]
  | request => ["overwrite", "credential_name", "credential_value", "additional_permissions"]

end RecordKind

/-- A kind of objects that the library knows nothing about. -/
structure ForeignKind where
  /-- The name with its surroundings. -/
  path : String
  name : String
  /-- The written form of such an object. -/
  shown : String
deriving Repr, DecidableEq

/-- The kinds of objects with attributes. -/
inductive ObjectKind where
  | permissionPayload | requestPayload | permissionBuilder | requestBuilder
  | foreign (kind : ForeignKind)
deriving Repr, DecidableEq

namespace ObjectKind

/-- The name of a kind of objects. -/
def className : ObjectKind → String
  | permissionPayload => "PermissionPayload"
  | requestPayload => "WriteRequestPayload"
  | permissionBuilder => "CredentialPermissionBuilder"
  | requestBuilder => "WriteRequestBuilder"
  | foreign kind => kind.name

/-- The name of a kind of objects with its surroundings. -/
def path : ObjectKind → String
  | permissionPayload => "src.credhub.serialization.PermissionPayload"
  | requestPayload => "src.credhub.serialization.WriteRequestPayload"
  | permissionBuilder => "src.credhub.permissions.CredentialPermissionBuilder"
  | requestBuilder => "src.credhub.request.WriteRequestBuilder"
  | foreign kind => kind.path

/-- The names of the fields of a model, none for objects that are no models. -/
def fieldNames : ObjectKind → List String
  | permissionPayload => ["actor", "operations"]
  | requestPayload => ["overwrite", "name", "type", "value", "additional_permissions"]
  | _ => []

/-- The objects are models: they are equal if their fields are. -/
def isModel : ObjectKind → Bool
  | permissionPayload => true
  | requestPayload => true
  | _ => false

end ObjectKind

/-- A value. -/
inductive Value where
  | null
  | bool (b : Bool)
  | int (i : Int)
  | float (x : Double)
  /-- What is no number; each has an identity of its own. -/
  | nan (cell : Cell)
  | text (s : String)
  | bytes (bs : List UInt8)
  | member (m : Member)
  | tuple (items : List Value)
  | frozenSet (items : List Value)
  /-- A read-only mapping. -/
  | view (entries : List (Value × Value))
  | record (kind : RecordKind) (fields : List Value)
  | list (cell : Cell) (items : List Value)
  | set (cell : Cell) (items : List Value)
  | map (cell : Cell) (entries : List (Value × Value))
  /-- Bytes that can be changed. -/
  | buffer (cell : Cell) (bs : List UInt8)
  /-- Values that can be taken once, one after the other. How many were taken is kept apart. -/
  | stream (cell : Cell) (items : List Value)
  /-- A fault held as a value, with its arguments. -/
  | fault (c : FaultClass) (cell : Cell) (args : List Value) (attrs : List (String × Value))
  /-- An object with its attributes by name, those of a model being its fields in their order. -/
  | object (kind : ObjectKind) (cell : Cell) (attrs : List (String × Value))
deriving Repr, Inhabited

namespace Value

/-- The name of the kind of a value. -/
def kindName : Value → String
  | null => "NoneType"
  | bool _ => "bool"
  | int _ => "int"
  | float _ => "float"
  | nan _ => "float"
  | text _ => "str"
  | bytes _ => "bytes"
  | member m => m.vocabulary.name
  | tuple _ => "tuple"
  | frozenSet _ => "frozenset"
  | view _ => "mappingproxy"
  | record kind _ => kind.className
  | list _ _ => "list"
  | set _ _ => "set"
  | map _ _ => "dict"
  | buffer _ _ => "bytearray"
  | stream _ _ => "generator"
  | fault c _ _ _ => c.name
  | object kind _ _ => kind.className

/-- The name of the kind of a value with its surroundings. -/
def kindPath : Value → String
  | fault c _ _ _ => c.path
  | object kind _ _ => kind.path
  | v => v.kindName

/-- The identity of a value that can be changed. -/
def cell? : Value → Option Cell
  | list c _ => some c
  | set c _ => some c
  | map c _ => some c
  | buffer c _ => some c
  | stream c _ => some c
  | fault _ c _ _ => some c
  | object _ c _ => some c
  | _ => none

/-- The text that a value is: a text, or a member of a vocabulary of texts. -/
def text? : Value → Option String
  | text s => some s
  | member m => if m.isText then some m.token else none
  | _ => none

/-- The entries of a mapping. -/
def entries? : Value → Option (List (Value × Value))
  | view es => some es
  | map _ es => some es
  | _ => none

/-- The value counts as true where a truth value is wanted. -/
def isTruthy : Value → Bool
  | null => false
  | bool b => b
  | int i => i ≠ 0
  | float x => !x.isZero
  | text s => !s.isEmpty
  | bytes bs => !bs.isEmpty
  | tuple items => !items.isEmpty
  | frozenSet items => !items.isEmpty
  | view es => !es.isEmpty
  | list _ items => !items.isEmpty
  | set _ items => !items.isEmpty
  | map _ es => !es.isEmpty
  | buffer _ bs => !bs.isEmpty
  | _ => true

/-- The attributes with a value under a name, which keeps its place if it is there already. -/
def putAttr (name : String) (new : Value) : List (String × Value) → List (String × Value)
  | [] => [(name, new)]
  | a :: attrs => if a.1 = name then (name, new) :: attrs else a :: putAttr name new attrs

mutual

/-- The value with another object in place of the one of the cell, wherever it occurs. -/
def replace (cell : Cell) (new : Value) : Value → Value
  | tuple items => tuple (replaceAll cell new items)
  | frozenSet items => frozenSet (replaceAll cell new items)
  | view es => view (replaceEntries cell new es)
  | record kind fields => record kind (replaceAll cell new fields)
  | list c items => if c = cell then new else list c (replaceAll cell new items)
  | set c items => if c = cell then new else set c (replaceAll cell new items)
  | map c es => if c = cell then new else map c (replaceEntries cell new es)
  | buffer c bs => if c = cell then new else buffer c bs
  | stream c items => if c = cell then new else stream c (replaceAll cell new items)
  | fault f c args attrs =>
    if c = cell then new else fault f c (replaceAll cell new args) (replaceAttrs cell new attrs)
  | object kind c attrs => if c = cell then new else object kind c (replaceAttrs cell new attrs)
  | null => null
  | bool b => bool b
  | int i => int i
  | float x => float x
  | nan c => nan c
  | text s => text s
  | bytes bs => bytes bs
  | member m => member m

/-- `replace` in every value of a list. -/
def replaceAll (cell : Cell) (new : Value) : List Value → List Value
  | [] => []
  | v :: vs => replace cell new v :: replaceAll cell new vs

/-- `replace` in every key and value of a mapping. -/
def replaceEntries (cell : Cell) (new : Value) : List (Value × Value) → List (Value × Value)
  | [] => []
  | (k, v) :: es => (replace cell new k, replace cell new v) :: replaceEntries cell new es

/-- `replace` in every attribute. -/
def replaceAttrs (cell : Cell) (new : Value) : List (String × Value) → List (String × Value)
  | [] => []
  | (name, v) :: attrs => (name, replace cell new v) :: replaceAttrs cell new attrs

end

mutual

/-- The value with other identities for its objects. What never changes keeps its identity. -/
def relabel (f : Cell → Cell) : Value → Value
  | tuple items => tuple (relabelAll f items)
  | frozenSet items => frozenSet (relabelAll f items)
  | view es => view (relabelEntries f es)
  | record kind fields => record kind (relabelAll f fields)
  | list c items => list (f c) (relabelAll f items)
  | set c items => set (f c) (relabelAll f items)
  | map c es => map (f c) (relabelEntries f es)
  | buffer c bs => buffer (f c) bs
  | stream c items => stream (f c) (relabelAll f items)
  | fault k c args attrs => fault k (f c) (relabelAll f args) (relabelAttrs f attrs)
  | object kind c attrs => object kind (f c) (relabelAttrs f attrs)
  | null => null
  | bool b => bool b
  | int i => int i
  | float x => float x
  | nan c => nan c
  | text s => text s
  | bytes bs => bytes bs
  | member m => member m

/-- `relabel` for every value of a list. -/
def relabelAll (f : Cell → Cell) : List Value → List Value
  | [] => []
  | v :: vs => relabel f v :: relabelAll f vs

/-- `relabel` for every key and value of a mapping. -/
def relabelEntries (f : Cell → Cell) : List (Value × Value) → List (Value × Value)
  | [] => []
  | (k, v) :: es => (relabel f k, relabel f v) :: relabelEntries f es

/-- `relabel` for every attribute. -/
def relabelAttrs (f : Cell → Cell) : List (String × Value) → List (String × Value)
  | [] => []
  | (name, v) :: attrs => (name, relabel f v) :: relabelAttrs f attrs

end

end Value

end CredentialWrites
