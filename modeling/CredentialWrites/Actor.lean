import CredentialWrites.Argument
import CredentialWrites.Text.Cut

/-!
# Actors

The principals that permissions are granted to: an application, a user or a client, the last two
optionally in an identity zone. The *identity* of an actor is its type, a colon, its zone with a
slash if it has one, and its identifier. The first slash splits the zone from the identifier, so
neither a zone nor an identifier without a zone may contain one.

* `Actor.app`, `Actor.user`, `Actor.client` : actors from checked arguments.
* `Actor.identity` : the identity of an actor.
* `Actor.ofIdentity` : the actor with an identity.
-/

namespace CredentialWrites

/-- A principal. -/
structure Actor where
  type : ActorType
  id : Word
  zone : Option Word
deriving Repr, DecidableEq

namespace Actor

/-- What stands between the type and the rest of an identity. -/
def identitySeparator : Char := ':'

/-- What stands between a zone and an identifier. -/
def zoneSeparator : Char := '/'

/-- An application. -/
def app (id : Value) : Except Fault Actor := do
  return ⟨.app, ← Argument.word "appId" id, none⟩

/-- An actor of a type that may have a zone, which is null if it has none. -/
def zoned (type : ActorType) (field : String) (id : Word) (zone : Value) : Except Fault Actor :=
  match zone with
  | .null =>
    if zoneSeparator ∈ id.text.toList then
      .error (.argument (.separatorWithoutZone field id.text))
    else .ok ⟨type, id, none⟩
  | zone => do
    let zone ← Argument.word "zoneId" zone
    if zoneSeparator ∈ zone.text.toList then .error (.argument (.separatorInZone zone.text))
    else .ok ⟨type, id, some zone⟩

/-- A user, in a zone unless that is null. -/
def user (id zone : Value) : Except Fault Actor := do
  zoned .user "userId" (← Argument.word "userId" id) zone

/-- A client, in a zone unless that is null. -/
def client (id zone : Value) : Except Fault Actor := do
  zoned .client "clientId" (← Argument.word "clientId" id) zone

/-- The identity of an actor. -/
def identity (a : Actor) : String :=
  match a.zone with
  | none => a.type.token ++ ":" ++ a.id.shown
  | some zone => a.type.token ++ ":" ++ zone.shown ++ "/" ++ a.id.shown

/-- Zone and identifier from what follows the type of an identity. -/
def splitZone (type : ActorType) (rest : List Char) : Option (Option Word × Word) :=
  match type with
  | .app => some (none, .plain (String.ofList rest))
  | _ => match Text.cut? zoneSeparator rest with
    | none => some (none, .plain (String.ofList rest))
    | some (zone, id) =>
      if zone.isEmpty || id.isEmpty then none
      else some (some (.plain (String.ofList zone)), .plain (String.ofList id))

/-- The actor with an identity. -/
def ofIdentity (v : Value) : Except Fault Actor := do
  let w ← Argument.word "identity" v
  match Text.cut? identitySeparator w.text.toList with
  | none => .error (.argument (.malformedIdentity w))
  | some (found, rest) =>
    if rest.isEmpty then .error (.argument (.malformedIdentity w))
    else match ActorType.ofToken? (String.ofList found) with
      | none => .error (.argument (.unknownActorType (String.ofList found) w.text))
      | some type => match splitZone type rest with
        | none => .error (.argument (.malformedIdentity w))
        | some (zone, id) => .ok ⟨type, id, zone⟩

/-- The value that an actor is. -/
def toValue (a : Actor) : Value :=
  .record .actor [.member (.actorType a.type), .ofWord a.id, (a.zone.map .ofWord).getD .null]

/-- The actor that a value is. An unchecked record may hold other things than an actor does. -/
def ofValue? : Value → Option Actor
  | .record .actor [.member (.actorType type), id, zone] => do
    let id ← id.word?
    match zone with
    | .null => return ⟨type, id, none⟩
    | zone => return ⟨type, id, some (← zone.word?)⟩
  | _ => none

theorem ofValue?_toValue (a : Actor) : ofValue? a.toValue = some a := by
  obtain ⟨type, id, zone⟩ := a
  cases zone with
  | none => cases id <;> rfl
  | some w => cases id <;> cases w <;> rfl

end Actor

end CredentialWrites
