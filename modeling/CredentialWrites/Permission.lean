import CredentialWrites.Actor
import CredentialWrites.Log.Record
import CredentialWrites.Making

/-!
# Permissions

A permission names one actor and the operations that it may perform on a credential. It is made by a
builder: the actor can be set once, operations accumulate in the order of the calls, duplicates
included, and building leaves the builder as it is.

* `PermissionBuilder.set` : one call on a builder.
* `PermissionBuilder.build` : the permission of a builder.
* `PermissionBuilder.perform` : a call or a build, with the log records that it leaves.
* `PermissionBuilder.ofAttrs?`, `PermissionBuilder.store` : a builder from and to its attributes.
-/

namespace CredentialWrites

/-- The operations that an actor may perform on a credential. -/
structure Permission where
  actor : Option Actor
  operations : List Operation
deriving Repr, DecidableEq

namespace Permission

/-- The value that a permission is. -/
def toValue (p : Permission) : Value :=
  .record .permission [(p.actor.map Actor.toValue).getD .null,
    .tuple (p.operations.map fun op => .member (.operation op))]

/-- The log record of a permission just built. -/
def trace (p : Permission) : LogRecord :=
  .trace "src.credhub.permissions" "Built credential permission"
    [("actor", (p.actor.map fun a => .text a.identity).getD .null),
     ("operation_count", .int p.operations.length)]

end Permission

/-- The state of a permission that is being built. Whether no operations were ever added or none in
effect makes no difference to the permission. -/
structure PermissionBuilder where
  actor : Option Actor
  operations : Option (List Operation)
deriving Repr, DecidableEq

namespace PermissionBuilder

/-- A builder on which nothing has been called. -/
def start : PermissionBuilder :=
  ⟨none, none⟩

/-- The calls that set something. -/
inductive Call where
  | app (id : Value)
  | user (id : Value)
  | zoneUser (zone id : Value)
  | client (id : Value)
  | zoneClient (zone id : Value)
  | operation (v : Value)
  | operations (vs : List Value)
deriving Repr

/-- The fault of a second actor. -/
def onlyOneActor : String := "only one actor can be specified"

/-- The builder with an actor, which may not be set already. -/
def setActor (b : PermissionBuilder) (actor : Except Fault Actor) :
    Except Fault PermissionBuilder := do
  Argument.unset onlyOneActor b.actor
  return { b with actor := some (← actor) }

/-- The builder with more operations. -/
def addOperations (b : PermissionBuilder) (ops : List Operation) : PermissionBuilder :=
  { b with operations := some (b.operations.getD [] ++ ops) }

/-- The builder after a call. The arguments are checked first, then the state, and then whether they
make an actor. -/
def set (b : PermissionBuilder) : Call → Except Fault PermissionBuilder
  | .app id => do
    let _ ← Argument.word "appId" id
    b.setActor (Actor.app id)
  | .user id => do
    let _ ← Argument.word "userId" id
    b.setActor (Actor.user id .null)
  | .zoneUser zone id => do
    let _ ← Argument.word "zoneId" zone
    let _ ← Argument.word "userId" id
    b.setActor (Actor.user id zone)
  | .client id => do
    let _ ← Argument.word "clientId" id
    b.setActor (Actor.client id .null)
  | .zoneClient zone id => do
    let _ ← Argument.word "zoneId" zone
    let _ ← Argument.word "clientId" id
    b.setActor (Actor.client id zone)
  | .operation v => do
    let op ← Argument.operation v
    return b.addOperations [op]
  | .operations vs => do
    let ops ← Argument.operations vs
    return b.addOperations ops

/-- The permission of a builder. -/
def build (b : PermissionBuilder) : Permission :=
  ⟨b.actor, b.operations.getD []⟩

/-- What can be asked of a builder. -/
inductive Act where
  | call (c : Call)
  | build
deriving Repr

/-- What an act answers. -/
inductive Answer where
  /-- The builder itself. -/
  | self
  | built (p : Permission)
  | refused (f : Fault)
deriving Repr

/-- The builder after an act, with its answer and the log records that it leaves. A refused call
leaves the builder as it was. -/
def perform (b : PermissionBuilder) : Act → PermissionBuilder × Answer × List LogRecord
  | .call c => match b.set c with
    | .ok b' => (b', .self, [])
    | .error f => (b, .refused f, [])
  | .build => (b, .built b.build, [b.build.trace])

/-- The operation that a value is, if it is one. -/
def operationOf? : Value → Option Operation
  | .member (.operation op) => some op
  | _ => none

/-- The operations that a value holds, if it holds nothing else. -/
def operationsOf? : Value → Option (Option (List Operation))
  | .null => some none
  | .list _ vs => some <$> vs.mapM operationOf?
  | _ => none

/-- The value of some operations. -/
def operationValues (ops : List Operation) : List Value :=
  ops.map fun op => .member (.operation op)

theorem mapM_operationValues (ops : List Operation) :
    (operationValues ops).mapM operationOf? = some ops := by
  induction ops with
  | nil => rfl
  | cons op ops ih =>
    simp only [operationValues, List.map_cons, List.mapM_cons] at ih ⊢
    rw [ih]
    rfl

/-- The attributes of a builder on which nothing has been called. -/
def startAttrs : List (String × Value) :=
  [("_actor", .null), ("_operations", .null)]

/-- The builder with the given attributes, unless they hold what no call puts there. -/
def ofAttrs? (attrs : List (String × Value)) : Option PermissionBuilder := do
  let actor ← match ← attrs.lookup "_actor" with
    | .null => pure none
    | v => some (← Actor.ofValue? v)
  let operations ← operationsOf? (← attrs.lookup "_operations")
  return ⟨actor, operations⟩

/-- A list kept in an attribute with its new items. It stays the object that it is, and is a new one
if there was none. -/
def storeList (old : Option Value) (items : Option (List Value)) : Making Value :=
  match items with
  | none => return .null
  | some items => match old with
    | some (.list c _) => return .list c items
    | _ => Making.list items

/-- The attributes of a builder. -/
def store (b : PermissionBuilder) (attrs : List (String × Value)) :
    Making (List (String × Value)) := do
  let operations ← storeList (attrs.lookup "_operations") (b.operations.map operationValues)
  return Value.putAttr "_operations" operations
    (Value.putAttr "_actor" ((b.actor.map Actor.toValue).getD .null) attrs)

end PermissionBuilder

end CredentialWrites
