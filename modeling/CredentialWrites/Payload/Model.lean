import CredentialWrites.Payload.Field
import CredentialWrites.Request

/-!
# Payloads

The models of what goes over the wire: the permission of one actor, and the body of a write, whose
permissions are models themselves. A model is made from its fields by name, which are read
leniently; a field that is missing gets its default, and names of no field are ignored. All refused
fields are reported together, in the order of the fields.

* `Payload.permission`, `Payload.request` : models from fields.
* `Payload.ofPermission`, `Payload.ofRequest` : the payloads of a permission and of a request.
-/

namespace CredentialWrites

namespace Payload

/-- The fields that a model is made from, by name. -/
abbrev Fields := List (String × Value)

/-- A field that has a value by default. -/
def fieldOr {α : Type} (fields : Fields) (name : String) (path : List Step)
    (read : Value → Except FieldFault α) (default : α) : Except (List FieldError) α :=
  match fields.lookup name with
  | some v => Field.along (path ++ [.field name]) (read v)
  | none => .ok default

/-- A text or nothing as a value. -/
def optionalText (s : Option String) : Value :=
  (s.map .text).getD .null

/-- A field of a list, whose items are read one by one. -/
def listField {α : Type} (fields : Fields) (name : String) (path : List Step)
    (read : List Step → Value → Except (List FieldError) α) : Except (List FieldError) (List α) :=
  match fields.lookup name with
  | none => .ok []
  | some v => do
    let items ← Field.along (path ++ [.field name]) (Field.items v)
    Field.each (fun i => read (path ++ [.field name, .index i])) 0 items

/-- A permission read from its fields: the identity of its actor and its operations. -/
structure PermissionFields where
  actor : Option String
  operations : List String
deriving Repr, DecidableEq

/-- A permission read from its fields, which are found at a path. -/
def readPermission (path : List Step) (fields : Fields) :
    Except (List FieldError) PermissionFields :=
  (fun p => ⟨p.1, p.2⟩) <$>
    Field.both (fieldOr fields "actor" path (Field.optional Field.text) none)
      (listField fields "operations" path fun path v => Field.along path (Field.text v))

/-- What stands for a permission in a body: a model, which is kept, or fields to make one from. -/
inductive PermissionEntry where
  | model (v : Value)
  | fields (p : PermissionFields)
deriving Repr

/-- The fields that a mapping holds. -/
def fieldsOf (entries : List (Value × Value)) : Fields :=
  entries.filterMap fun e => e.1.text?.map fun name => (name, e.2)

/-- What stands for a permission in a body. -/
def readEntry (path : List Step) (v : Value) : Except (List FieldError) PermissionEntry :=
  match v with
  | .object .permissionPayload c attrs => .ok (.model (.object .permissionPayload c attrs))
  | v => match v.entries? with
    | some es => .fields <$> readPermission path (fieldsOf es)
    | none => .error [⟨path, .notModel "PermissionPayload"⟩]

/-- A body read from its fields. -/
structure RequestFields where
  overwrite : Bool
  name : Option String
  type : Option String
  value : Value
  permissions : List PermissionEntry
deriving Repr

/-- A body read from its fields. -/
def readRequest (fields : Fields) : Except (List FieldError) RequestFields :=
  (fun p => ⟨p.1, p.2.1, p.2.2.1, (fields.lookup "value").getD .null, p.2.2.2⟩) <$>
    Field.both (fieldOr fields "overwrite" [] Field.bool false)
      (Field.both (fieldOr fields "name" [] (Field.optional Field.text) none)
        (Field.both (fieldOr fields "type" [] (Field.optional Field.text) none)
          (listField fields "additional_permissions" [] readEntry)))

/-- What was read, or the fault of the errors. -/
def accept {α : Type} (r : Except (List FieldError) α) : Making α :=
  match r with
  | .ok a => return a
  | .error errors => Making.fail (.validation errors)

/-- A new model of a permission. -/
def makePermission (p : PermissionFields) : Making Value := do
  let operations ← Making.list (p.operations.map .text)
  Making.object .permissionPayload [("actor", optionalText p.actor), ("operations", operations)]

/-- The model that stands for a permission in a body. -/
def makeEntry : PermissionEntry → Making Value
  | .model v => return v
  | .fields p => makePermission p

/-- A new model of a body. -/
def makeRequest (r : RequestFields) : Making Value := do
  let permissions ← Making.list (← r.permissions.mapM makeEntry)
  Making.object .requestPayload [("overwrite", .bool r.overwrite), ("name", optionalText r.name),
    ("type", optionalText r.type), ("value", r.value), ("additional_permissions", permissions)]

/-- A value that a list is read from. All items of a stream are taken. -/
def takeList (v : Value) : Making Value :=
  match v with
  | .stream c vs => do return .tuple (← (Value.stream c vs).takeItems)
  | v => return v

/-- Fields of which one is read from a value that was looked at first. -/
def takeField (name : String) (take : Value → Making Value) : Fields → Making Fields
  | [] => return []
  | f :: fs =>
    if f.1 = name then do return (f.1, ← take f.2) :: fs
    else do return f :: (← takeField name take fs)

/-- The entries that a permission is read from, with its operations taken. -/
def takeOperations : List (Value × Value) → Making (List (Value × Value))
  | [] => return []
  | e :: es =>
    if e.1.text? = some "operations" then do return (e.1, ← takeList e.2) :: es
    else do return e :: (← takeOperations es)

/-- What stands for a permission in a body, with its operations taken. -/
def takeEntry (v : Value) : Making Value :=
  match v with
  | .map c es => do return .map c (← takeOperations es)
  | .view es => do return .view (← takeOperations es)
  | v => return v

/-- What the permissions of a body are read from, with all that is read taken from streams. -/
def takeEntries (v : Value) : Making Value := do
  match ← takeList v with
  | .tuple vs => return .tuple (← Making.each takeEntry vs)
  | .list c vs => return .list c (← Making.each takeEntry vs)
  | v => return v

/-- A model of a permission from fields. -/
def permission (fields : Fields) : Making Value := do
  let fields ← takeField "operations" takeList fields
  makePermission (← accept (readPermission [] fields))

/-- A model of a body from fields. -/
def request (fields : Fields) : Making Value := do
  let fields ← takeField "additional_permissions" takeEntries fields
  makeRequest (← accept (readRequest fields))

/-- The payload of a permission. -/
def ofPermission (v : Value) : Making Value := do
  let actor ← v.storedAttr "actor"
  let identity ← match actor with
    | .null => pure Value.null
    | actor => (actor.storedAttr "identity" : Except Fault Value)
  let tokens ← v.attr "operation_tokens"
  let operations ← Making.list (← tokens.takeItems)
  permission [("actor", identity), ("operations", operations)]

/-- The payload of a request. The value is a copy that can be changed. -/
def ofRequest (v : Value) : Making Value := do
  let overwrite ← v.storedAttr "overwrite"
  let name ← v.storedAttr "name"
  let type ← v.storedAttr "type"
  let value ← Value.thaw (← v.storedAttr "value")
  let permissions ← v.storedAttr "additional_permissions"
  let payloads ← Making.list (← permissions.forEach ofPermission)
  request [("overwrite", overwrite), ("name", name), ("type", type), ("value", value),
    ("additional_permissions", payloads)]

end Payload

end CredentialWrites
