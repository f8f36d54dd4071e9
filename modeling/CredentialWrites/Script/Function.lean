import CredentialWrites.Log.Root
import CredentialWrites.Payload.Wire

/-!
# The functions of the library by name

A script calls a function by its name, with arguments by place and by name. Constructors come in two
kinds: those that check their arguments, and the bare ones of records and models of faults, which do
not.

* `Function.call` : the result of a function.
-/

namespace CredentialWrites

namespace Member

/-- The member of a vocabulary that a value is or is equal to the token of. -/
def ofValue? (vocabulary : Vocabulary) (v : Value) : Option Member :=
  vocabulary.members.find? fun m => v.eq (.member m) || v.text? = some m.token

/-- The member of a vocabulary that a value stands for. -/
def ofValue (vocabulary : Vocabulary) (v : Value) : Except Fault Member :=
  match ofValue? vocabulary v with
  | some m => .ok m
  | none => do .error (.notMember (← v.display) vocabulary.name)

end Member

namespace Function

/-- The arguments of a call. -/
structure Arguments where
  byPlace : List Value
  byName : List (String × Value)
deriving Repr

namespace Arguments

/-- The argument of a parameter: the one at its place, or the one of its name, or its default. -/
def get (a : Arguments) (place : Nat) (name : String) (default : Value) : Value :=
  match a.byPlace[place]? with
  | some v => v
  | none => (a.byName.lookup name).getD default

/-- The argument of a parameter that is null by default. -/
def arg (a : Arguments) (place : Nat) (name : String) : Value :=
  a.get place name .null

end Arguments

/-- A new fault of the builders as a value, with message, code and field. -/
def newFault (c : FaultClass) (message code field : Value) : Making Value := do
  return .fault c (← Making.fresh) [message]
    [("message", message), ("error_code", code), ("field", field)]

/-- A new fault of another class as a value. -/
def newOtherFault (c : FaultClass) (args : List Value) : Making Value := do
  return .fault c (← Making.fresh) args []

/-- The code of a refused argument as a value. -/
def invalidArgument : Value :=
  .member (.errorCode .invalidArgument)

/-- The functions on actors, names and operations. -/
def identityFunction (name : String) (a : Arguments) : Option (Making Value) :=
  match name with
  | "Actor" => some do
    return .record .actor [a.arg 0 "actor_type", a.arg 1 "primary_identifier", a.arg 2 "zone_id"]
  | "Actor.app" => some do return (← Actor.app (a.arg 0 "app_id")).toValue
  | "Actor.user" => some do
    return (← Actor.user (a.arg 0 "user_id") (a.arg 1 "zone_id")).toValue
  | "Actor.client" => some do
    return (← Actor.client (a.arg 0 "client_id") (a.arg 1 "zone_id")).toValue
  | "Actor.from_identity" => some do
    return (← Actor.ofIdentity (a.arg 0 "identity")).toValue
  | "CredentialName" => some do return (← CredentialName.ofValue (a.arg 0 "name")).toValue
  | "CredentialName.of" => some do return (← CredentialName.ofSegments a.byPlace).toValue
  | "Operation.from_token" => some do
    return .member (.operation (← Argument.operationOfToken (a.arg 0 "token")))
  | _ => none

/-- The functions on permissions, requests and credential values. -/
def requestFunction (name : String) (a : Arguments) : Option (Making Value) :=
  match name with
  | "CredentialPermission" => some do
    return .record .permission [a.arg 0 "actor", a.get 1 "operations" (.tuple [])]
  | "CredentialPermission.builder" => some
    (Making.object .permissionBuilder PermissionBuilder.startAttrs)
  | "WriteRequest" => some do
    return .record .request [a.get 0 "overwrite" (.bool false), a.arg 1 "credential_name",
      a.arg 2 "credential_value", a.get 3 "additional_permissions" (.tuple [])]
  | "WriteRequest.builder" => some (Making.object .requestBuilder RequestBuilder.startAttrs)
  | "PasswordValue" => some do return .record .password [a.arg 0 "value"]
  | "JsonValue.of" => some do
    return .record .json [← Value.freezeMapping (a.arg 0 "mapping")]
  | _ => none

/-- The functions on payloads. -/
def payloadFunction (name : String) (a : Arguments) : Option (Making Value) :=
  match name with
  | "PermissionPayload" => some (Payload.permission a.byName)
  | "PermissionPayload.from_permission" => some (Payload.ofPermission (a.arg 0 "permission"))
  | "WriteRequestPayload" => some (Payload.request a.byName)
  | "WriteRequestPayload.from_request" => some (Payload.ofRequest (a.arg 0 "request"))
  | "to_payload" => some (Payload.ofRequest (a.arg 0 "request"))
  | "to_json" => some do
    return .text (← Payload.requestToJson (a.arg 0 "request") (a.arg 1 "indent"))
  | _ => none

/-- The functions on values of any kind. -/
def valueFunction (name : String) (a : Arguments) : Option (Making Value) :=
  match name with
  | "freeze_sequence" => some do return ← Value.freezeSequence (a.arg 0 "items")
  | "freeze_mapping" => some (Value.freezeMapping (a.arg 0 "mapping"))
  | "thaw" => some (Value.thaw (a.arg 0 "value"))
  | "hashable" => some do return ← Value.hashable (a.arg 0 "value")
  | "str" => some do return .ofWord (← (a.arg 0 "object").plain)
  | "repr" => some do return .text (← (a.arg 0 "obj").display)
  | _ => none

/-- A state that may be set once has not been set; the fault has the plain form of a message. -/
def requireUnset (current message : Value) : Making Value := do
  match current with
  | .null => return .null
  | current =>
    let w ← message.plain
    Argument.unset w.text (some current)
    return .null

/-- The checks of arguments. -/
def checkFunction (name : String) (a : Arguments) : Option (Making Value) :=
  let field := a.arg 1 "field"
  match name with
  | "require_not_none" => some do
    return ← Argument.named field fun field => Argument.present field (a.arg 0 "value")
  | "require_unset" => some (requireUnset (a.arg 0 "current") (a.arg 1 "message"))
  | "require_string" => some do
    return .ofWord (← Argument.named field fun field => Argument.word field (a.arg 0 "value"))
  | "require_mapping" => some do
    let v := a.arg 0 "value"
    let _ ← Argument.named field fun field => Argument.mapping field v
    return v
  | "resolve_operation" => some do
    return .member (.operation (← Argument.operation (a.arg 0 "value")))
  | "resolve_operations" => some do
    let ops ← (a.arg 0 "values").forEach fun v => return ← Argument.operation v
    Making.list (ops.map fun op => .member (.operation op))
  | _ => none

/-- The constructors of faults as values. -/
def faultFunction (name : String) (a : Arguments) : Option (Making Value) :=
  match name with
  | "CredHubError" => some
    (newFault .base (a.arg 0 "message") (a.get 1 "error_code" invalidArgument) (a.arg 2 "field"))
  | "InvalidArgumentError" => some
    (newFault .invalidArgument (a.arg 0 "message") invalidArgument (a.arg 1 "field"))
  | "InvalidStateError" => some
    (newFault .invalidState (a.arg 0 "message") (.member (.errorCode .invalidState)) .null)
  | "ValueError" => some (newOtherFault .badValue a.byPlace)
  | "KeyError" => some (newOtherFault .noKey a.byPlace)
  | "RuntimeError" => some (newOtherFault .runtime a.byPlace)
  | _ => none

/-- The members of vocabularies by their tokens. -/
def memberFunction (name : String) (a : Arguments) : Option (Making Value) :=
  (Vocabulary.ofName? name).map fun vocabulary => do
    return .member (← Member.ofValue vocabulary (a.arg 0 "value"))

/-- The function with a name. -/
def find? (name : String) (a : Arguments) : Option (Making Value) :=
  [identityFunction, requestFunction, payloadFunction, valueFunction, checkFunction, faultFunction,
    memberFunction].findSome? fun table => table name a

/-- The result of the function with a name. -/
def call (name : String) (a : Arguments) : Making Value :=
  (find? name a).getD (Making.fail (.noAttribute "library" name))

end Function

end CredentialWrites
