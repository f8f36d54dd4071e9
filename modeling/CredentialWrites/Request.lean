import CredentialWrites.CredentialName
import CredentialWrites.Permission
import CredentialWrites.Value.Snapshot

/-!
# Requests

A request to write a credential: whether an existing one is replaced, the name, one value, and the
permissions to grant along with it. It is made by a builder, which checks every argument when it is
set; building itself checks nothing, and a request may lack a name or a value.

* `RequestBuilder.set` : one call on a builder.
* `RequestBuilder.build` : the request of a builder.
* `RequestBuilder.perform` : a call or a build, with the log records that it leaves.
* `RequestBuilder.ofAttrs?`, `RequestBuilder.store` : a builder from and to its attributes.
-/

namespace CredentialWrites

/-- The value of a credential. -/
inductive CredentialValue where
  | password (w : Word)
  /-- A document, whose parts are read-only. -/
  | json (entries : List (Value × Value))
deriving Repr

namespace CredentialValue

/-- The kind of a credential value. -/
def type : CredentialValue → ValueType
  | password _ => .password
  | json _ => .json

/-- What a credential value holds. -/
def content : CredentialValue → Value
  | password w => .ofWord w
  | json es => .view es

/-- The record that a credential value is. -/
def toValue : CredentialValue → Value
  | password w => .record .password [.ofWord w]
  | json es => .record .json [.view es]

/-- The document of a mapping, which shares nothing with it that can be changed. -/
def ofMapping (entries : List (Value × Value)) : Making CredentialValue := do
  return json (← Value.freezeEntries entries)

end CredentialValue

/-- A permission as a record, whose fields nobody has checked. -/
structure Grant where
  actor : Value
  operations : Value
deriving Repr

namespace Grant

/-- The record of a permission. -/
def toValue (g : Grant) : Value :=
  .record .permission [g.actor, g.operations]

/-- The permission that a value is, if it is one. -/
def ofValue? : Value → Option Grant
  | .record .permission [actor, operations] => some ⟨actor, operations⟩
  | _ => none

theorem ofValue?_toValue (g : Grant) : ofValue? g.toValue = some g := rfl

/-- The permission that a value is. -/
def ofValue (v : Value) : Except Fault Grant :=
  match v with
  | .null => .error (.argument (.null "permission"))
  | .record .permission [actor, operations] => .ok ⟨actor, operations⟩
  | v => .error (.argument (.notPermission v.kindName))

end Grant

/-- A request to write a credential. -/
structure Request where
  overwrite : Bool
  name : Option CredentialName
  value : Option CredentialValue
  permissions : List Grant
deriving Repr

namespace Request

/-- The value that a request is. -/
def toValue (r : Request) : Value :=
  .record .request [.bool r.overwrite, (r.name.map CredentialName.toValue).getD .null,
    (r.value.map CredentialValue.toValue).getD .null, .tuple (r.permissions.map Grant.toValue)]

/-- The logger of requests. -/
def logger : String := "src.credhub.request"

/-- A name in a log record. -/
def nameField (name : Option CredentialName) : Value :=
  (name.map fun n => Value.ofWord n.word).getD .null

/-- The log record of a request just built. -/
def trace (r : Request) : LogRecord :=
  .trace logger "Built credential write request"
    [("credential_name", nameField r.name),
     ("value_type", (r.value.map fun v => .text v.type.token).getD .null),
     ("permission_count", .int r.permissions.length)]

/-- The log record of a value that takes the place of another. -/
def traceReplacement (name : Option CredentialName) (old new : CredentialValue) : LogRecord :=
  .trace logger
    ("Replacing " ++ old.type.token ++ " credential value with " ++ new.type.token ++ " value")
    [("credential_name", nameField name)]

end Request

/-- The state of a request that is being built. -/
structure RequestBuilder where
  name : Option CredentialName
  overwrite : Bool
  value : Option CredentialValue
  permissions : Option (List Grant)
deriving Repr

namespace RequestBuilder

/-- A builder on which nothing has been called. -/
def start : RequestBuilder :=
  ⟨none, false, none, none⟩

/-- The calls that set something. -/
inductive Call where
  | passwordValue (v : Value)
  | jsonValue (v : Value)
  | name (v : Value)
  | overwrite (v : Value)
  | additionalPermission (v : Value)
  | additionalPermissions (v : Value)
deriving Repr

/-- The builder with a value, and the log records of a replacement. -/
def setValue (b : RequestBuilder) (value : CredentialValue) : RequestBuilder × List LogRecord :=
  ({ b with value := some value },
    (b.value.map fun old => Request.traceReplacement b.name old value).toList)

/-- The name that an argument is, which may be a name already. -/
def nameOf (v : Value) : Except Fault CredentialName :=
  match v with
  | .null => .error (.argument (.null "name"))
  | .record .name [w] => match w.word? with
    | some w => .ok ⟨w⟩
    | none => .error (.argument (.notText "name" w.kindName))
  | v => match v.word? with
    | some w => .ok ⟨w⟩
    | none => .error (.argument (.notName v.kindName))

/-- The truth value that an argument is. -/
def overwriteOf (v : Value) : Except Fault Bool :=
  match v with
  | .bool b => .ok b
  | v => .error (.argument (.notBool v.kindName))

/-- The permissions that an argument yields, all of which have to be permissions. They are looked at
after all of them were taken. -/
def grantsOf (v : Value) : Making (List Grant) := do
  let v ← Argument.present "permissions" v
  let items ← v.takeItems
  (items.mapM Grant.ofValue : Except Fault (List Grant))

/-- The builder with more permissions. -/
def addGrants (b : RequestBuilder) (gs : List Grant) : RequestBuilder :=
  { b with permissions := some (b.permissions.getD [] ++ gs) }

/-- The builder after a call, with the log records that the call leaves. -/
def set (b : RequestBuilder) : Call → Making (RequestBuilder × List LogRecord)
  | .passwordValue v => do
    let w ← Argument.word "value" v
    return b.setValue (.password w)
  | .jsonValue v => do
    let es ← Argument.mapping "value" v
    return b.setValue (← CredentialValue.ofMapping es)
  | .name v => do
    let n ← nameOf v
    return ({ b with name := some n }, [])
  | .overwrite v => do
    let o ← overwriteOf v
    return ({ b with overwrite := o }, [])
  | .additionalPermission v => do
    let g ← Grant.ofValue v
    return (b.addGrants [g], [])
  | .additionalPermissions v => do
    let gs ← grantsOf v
    return (b.addGrants gs, [])

/-- The request of a builder. -/
def build (b : RequestBuilder) : Request :=
  ⟨b.overwrite, b.name, b.value, b.permissions.getD []⟩

/-- What can be asked of a builder. -/
inductive Act where
  | call (c : Call)
  | build
deriving Repr

/-- What an act answers. -/
inductive Answer where
  /-- The builder itself. -/
  | self
  | built (r : Request)
  | refused (f : Fault)
deriving Repr

/-- The builder after an act, with its answer, the log records that it leaves and what was made and
taken by then. A refused call leaves the builder as it was. -/
def perform (b : RequestBuilder) (act : Act) (made : Making.State) :
    RequestBuilder × Answer × List LogRecord × Making.State :=
  match act with
  | .call c => match b.set c made with
    | (.ok (b', records), made') => (b', .self, records, made')
    | (.error f, made') => (b, .refused f, [], made')
  | .build => (b, .built b.build, [b.build.trace], made)

/-- The name that a value is, if it is one. -/
def nameOf? : Value → Option (Option CredentialName)
  | .null => some none
  | .record .name [v] => (fun w => some ⟨w⟩) <$> v.word?
  | _ => none

/-- The credential value that a value is, if it is one. -/
def valueOf? : Value → Option (Option CredentialValue)
  | .null => some none
  | .record .password [v] => (fun w => some (.password w)) <$> v.word?
  | .record .json [.view es] => some (some (.json es))
  | _ => none

/-- The permissions that a value holds, if it holds nothing else. -/
def grantsOf? : Value → Option (Option (List Grant))
  | .null => some none
  | .list _ vs => some <$> vs.mapM Grant.ofValue?
  | _ => none

/-- The truth value that a value is, if it is one. -/
def overwriteOf? : Value → Option Bool
  | .bool b => some b
  | _ => none

/-- The attributes of a builder on which nothing has been called. -/
def startAttrs : List (String × Value) :=
  [("_name", .null), ("_overwrite", .bool false), ("_value", .null),
    ("_additional_permissions", .null)]

/-- The builder with the given attributes, unless they hold what no call puts there. -/
def ofAttrs? (attrs : List (String × Value)) : Option RequestBuilder := do
  let name ← nameOf? (← attrs.lookup "_name")
  let overwrite ← overwriteOf? (← attrs.lookup "_overwrite")
  let value ← valueOf? (← attrs.lookup "_value")
  let permissions ← grantsOf? (← attrs.lookup "_additional_permissions")
  return ⟨name, overwrite, value, permissions⟩

/-- The attributes of a builder. -/
def store (b : RequestBuilder) (attrs : List (String × Value)) :
    Making (List (String × Value)) := do
  let permissions ← PermissionBuilder.storeList (attrs.lookup "_additional_permissions")
    (b.permissions.map fun gs => gs.map Grant.toValue)
  return Value.putAttr "_additional_permissions" permissions
    (Value.putAttr "_value" ((b.value.map CredentialValue.toValue).getD .null)
      (Value.putAttr "_overwrite" (.bool b.overwrite)
        (Value.putAttr "_name" ((b.name.map CredentialName.toValue).getD .null) attrs)))

end RequestBuilder

end CredentialWrites
