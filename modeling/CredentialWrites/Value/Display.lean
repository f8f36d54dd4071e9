import CredentialWrites.Fault
import CredentialWrites.Number.Shortest

/-!
# Values as text

Every value has a written form, which shows its structure and puts quotes around texts, and a plain
form, which stands for it inside messages: a text is its own plain form, a name is its path, an
actor its identity, a held fault its message and a view of a mapping the mapping. A request that
holds something else than a credential value has no written form, and an actor whose type is none
has no plain form. Whole numbers are written as if no bound were set on their digits, which an
interpreter may have.

* `Value.display` : the written form.
* `Value.plain` : the plain form.
* `Value.ofWord`, `Value.word?` : words as values.
-/

namespace CredentialWrites

namespace Value

/-- The value that a word is. -/
def ofWord : Word → Value
  | .plain s => text s
  | .level m => member (.logLevel m)
  | .format m => member (.logFormat m)

/-- The word that a value is. -/
def word? : Value → Option Word
  | text s => some (.plain s)
  | member (.logLevel m) => some (.level m)
  | member (.logFormat m) => some (.format m)
  | _ => none

theorem word?_ofWord (w : Word) : word? (ofWord w) = some w := by
  cases w <;> rfl

theorem ofWord_of_word? {v : Value} {w : Word} (h : v.word? = some w) : v = ofWord w := by
  unfold word? at h
  split at h <;> simp_all [ofWord] <;> simp [← h]

/-- Parts between a left and a right bracket. -/
def bracketed (left right : String) (parts : List String) : String :=
  left ++ String.intercalate ", " parts ++ right

/-- The fields of a record with their names. -/
def labelled : List String → List String → List String
  | name :: names, part :: parts => (name ++ "=" ++ part) :: labelled names parts
  | _, _ => []

/-- The written form of a tuple with the parts. -/
def tupleText (parts : List String) : String :=
  match parts with
  | [part] => "(" ++ part ++ ",)"
  | parts => bracketed "(" ")" parts

/-- The written form of a set with the parts. -/
def setText (parts : List String) : String :=
  if parts.isEmpty then "set()" else bracketed "\x7b" "\x7d" parts

/-- The written form of a frozen set with the parts. -/
def frozenSetText (parts : List String) : String :=
  if parts.isEmpty then "frozenset()" else bracketed "frozenset(\x7b" "\x7d)" parts

/-- The written form of an object with the parts. -/
def objectText (kind : ObjectKind) (parts : List String) : String :=
  match kind with
  | .foreign k => k.shown
  | kind =>
    if kind.isModel then bracketed (kind.className ++ "(") ")" parts
    else "<" ++ kind.className ++ ">"

/-- The names of the parts that the written form of a request shows. -/
def requestParts : List String :=
  ["overwrite", "name", "value_type", "value", "additional_permissions"]

mutual

/-- The written form of a value, with whole numbers of any length. -/
def display : Value → Except Fault String
  | null => .ok "None"
  | bool b => .ok (if b then "True" else "False")
  | int i => .ok (toString i)
  | float x => .ok (DecimalLayout.display.write x)
  | nan _ => .ok "nan"
  | text s => .ok (Text.quoted s)
  | bytes bs => .ok (Text.quotedBytes bs)
  | member m => .ok m.display
  | tuple items => do return tupleText (← displayAll items)
  | frozenSet items => do return frozenSetText (← displayAll items)
  | view es => do return bracketed "mappingproxy(\x7b" "\x7d)" (← displayEntries es)
  | record kind fields => match kind with
    | .request => displayRequest fields
    | kind => do
      return bracketed (kind.className ++ "(") ")" (labelled kind.fieldNames (← displayAll fields))
  | list _ items => do return bracketed "[" "]" (← displayAll items)
  | set _ items => do return setText (← displayAll items)
  | map _ es => do return bracketed "\x7b" "\x7d" (← displayEntries es)
  | buffer _ bs => .ok ("bytearray(" ++ Text.quotedBytes bs ++ ")")
  | stream _ _ => .ok "<generator>"
  | fault c _ args _ => do return bracketed (c.name ++ "(") ")" (← displayAll args)
  | object kind _ attrs => do return objectText kind (← displayFields kind attrs)

/-- The written forms of some values. -/
def displayAll : List Value → Except Fault (List String)
  | [] => .ok []
  | v :: vs => do
    let s ← display v
    return s :: (← displayAll vs)

/-- The written forms of the entries of a mapping. -/
def displayEntries : List (Value × Value) → Except Fault (List String)
  | [] => .ok []
  | (k, v) :: es => do
    let key ← display k
    let value ← display v
    return (key ++ ": " ++ value) :: (← displayEntries es)

/-- The written forms of the fields of a model with their names, without its other attributes. -/
def displayFields (kind : ObjectKind) : List (String × Value) → Except Fault (List String)
  | [] => .ok []
  | (name, v) :: attrs => do
    if kind.fieldNames.contains name then
      let s ← display v
      return (name ++ "=" ++ s) :: (← displayFields kind attrs)
    else displayFields kind attrs

/-- The written form of a request, which shows the type and the content of its credential value. -/
def displayRequest : List Value → Except Fault String
  | overwrite :: name :: value :: permissions :: _ => do
    let overwrite ← display overwrite
    let name ← display name
    let type ← displayType value
    let content ← displayContent value
    let permissions ← display permissions
    return bracketed "WriteRequest(" ")"
      (labelled requestParts [overwrite, name, type, content, permissions])
  | _ => .ok "WriteRequest()"

/-- The written form of the type of a credential value. A request has that of its own value. -/
def displayType : Value → Except Fault String
  | null => .ok "None"
  | record kind fields => match kind with
    | .password => .ok (Member.valueType .password).display
    | .json => .ok (Member.valueType .json).display
    | .request => displayTypeInside fields
    | kind => .error (.noAttribute kind.className "value_type")
  | fault c _ _ attrs => displayAttr c.name "value_type" attrs
  | object kind _ attrs => displayAttr kind.className "value_type" attrs
  | v => .error (.noAttribute v.kindName "value_type")

/-- The written form of the type of the credential value of a request. -/
def displayTypeInside : List Value → Except Fault String
  | _ :: _ :: value :: _ => displayType value
  | _ => .ok "None"

/-- The written form of what a credential value holds. A request has that of its own value. -/
def displayContent : Value → Except Fault String
  | null => .ok "None"
  | member m => .ok (Text.quoted m.token)
  | record kind fields => match kind with
    | .password => displayFirst fields
    | .json => displayFirst fields
    | .request => displayContentInside fields
    | kind => .error (.noAttribute kind.className "value")
  | fault c _ _ attrs => displayAttr c.name "value" attrs
  | object kind _ attrs => displayAttr kind.className "value" attrs
  | v => .error (.noAttribute v.kindName "value")

/-- The written form of what the credential value of a request holds. -/
def displayContentInside : List Value → Except Fault String
  | _ :: _ :: value :: _ => displayContent value
  | _ => .ok "None"

/-- The written form of the first of some fields. -/
def displayFirst : List Value → Except Fault String
  | v :: _ => display v
  | [] => .ok "None"

/-- The written form of an attribute of an object of the kind. -/
def displayAttr (kind attr : String) : List (String × Value) → Except Fault String
  | [] => .error (.noAttribute kind attr)
  | (name, v) :: attrs => if name = attr then display v else displayAttr kind attr attrs

end

/-- The plain form of a name, which may be a member of a vocabulary of texts. -/
def plainName : List Value → Word
  | v :: _ => v.word?.getD (.plain "")
  | [] => .plain ""

mutual

/-- The plain form of a value. -/
def plain : Value → Except Fault Word
  | text s => .ok (.plain s)
  | member m => .ok (.plain m.fullName)
  | view es => do return .plain (bracketed "\x7b" "\x7d" (← displayEntries es))
  | record kind fields => match kind with
    | .name => .ok (plainName fields)
    | .actor => do return .plain (← plainActor fields)
    | kind => do return .plain (← display (record kind fields))
  | fault c _ args _ => plainFault c args
  | object kind c attrs =>
    if kind.isModel then do return .plain (String.intercalate " " (← displayFields kind attrs))
    else do return .plain (← display (object kind c attrs))
  | v => do return .plain (← display v)

/-- The plain form of a held fault with some arguments. -/
def plainFault (c : FaultClass) : List Value → Except Fault Word
  | [] => .ok (.plain "")
  | v :: rest => match rest with
    | [] => match c with
      | .noKey => do return .plain (← display v)
      | _ => plain v
    | rest => do return .plain (tupleText (← displayAll (v :: rest)))

/-- The identity of an actor with some fields. -/
def plainActor : List Value → Except Fault String
  | type :: id :: zone :: _ => do
    let type ← plainContent type
    match zone with
    | null => return type ++ ":" ++ (← plain id).text
    | zone =>
      let zone ← plain zone
      return type ++ ":" ++ zone.text ++ "/" ++ (← plain id).text
  | _ => .ok ""

/-- The plain form of the token of a type, or of what else is given as one. -/
def plainContent : Value → Except Fault String
  | member m => .ok m.token
  | record kind fields => match kind with
    | .password => plainFirst fields
    | .json => plainFirst fields
    | .request => plainContentInside fields
    | kind => .error (.noAttribute kind.className "value")
  | fault c _ _ attrs => plainAttr c.name "value" attrs
  | object kind _ attrs => plainAttr kind.className "value" attrs
  | v => .error (.noAttribute v.kindName "value")

/-- The plain form of what the credential value of a request holds. -/
def plainContentInside : List Value → Except Fault String
  | _ :: _ :: value :: _ => match value with
    | null => .ok "None"
    | value => plainContent value
  | _ => .ok "None"

/-- The plain form of the first of some fields. -/
def plainFirst : List Value → Except Fault String
  | v :: _ => do return (← plain v).text
  | [] => .ok "None"

/-- The plain form of an attribute of an object of the kind. -/
def plainAttr (kind attr : String) : List (String × Value) → Except Fault String
  | [] => .error (.noAttribute kind attr)
  | (name, v) :: attrs =>
    if name = attr then do return (← plain v).text else plainAttr kind attr attrs

end

end Value

end CredentialWrites
