import CredentialWrites.Permission
import CredentialWrites.Proofs.Making

/-!
# The calls on a permission builder

What a call asks for is told by its arguments alone: an actor or some operations, or nothing if an
argument is refused. A call is accepted if it asks for operations, or for an actor while there is
none.

* `PermissionBuilder.Call.actor?`, `PermissionBuilder.Call.operations?` : what a call asks for.
* `PermissionBuilder.set_eq_ok_iff` : the calls that are accepted, and what they do.
-/

namespace CredentialWrites

namespace Argument

theorem word_eq_ok_iff {field : String} {v : Value} {w : Word} :
    word field v = .ok w ↔ v.word? = some w := by
  unfold word
  split
  · simp [Value.word?]
  · split <;> simp_all

end Argument

namespace Actor

/-- An actor of a type without a zone, unless the identifier holds the separator. -/
def bare? (type : ActorType) (id : Word) : Option Actor :=
  if zoneSeparator ∈ id.text.toList then none else some ⟨type, id, none⟩

/-- An actor of a type in a zone, unless the zone holds the separator. -/
def inZone? (type : ActorType) (zone id : Word) : Option Actor :=
  if zoneSeparator ∈ zone.text.toList then none else some ⟨type, id, some zone⟩

theorem app_eq_ok_iff {id : Value} {a : Actor} :
    app id = .ok a ↔ id.word?.bind (fun w => some ⟨.app, w, none⟩) = some a := by
  simp only [app, Except.bind_eq_ok, Argument.word_eq_ok_iff, Except.pure_eq_ok,
    Option.bind_eq_some_iff, Option.some.injEq]

theorem zoned_null_eq_ok_iff {type : ActorType} {field : String} {id : Word} {a : Actor} :
    zoned type field id .null = .ok a ↔ bare? type id = some a := by
  simp only [zoned, bare?]
  split <;> simp

theorem zoned_eq_ok_iff {type : ActorType} {field : String} {id w : Word} {zone : Value} {a : Actor}
    (hz : zone.word? = some w) :
    zoned type field id zone = .ok a ↔ inZone? type w id = some a := by
  unfold zoned
  split
  · cases hz
  · rw [Argument.word_eq_ok_iff.2 hz]
    simp only [bind, Except.bind, inZone?]
    split <;> simp

theorem user_null_eq_ok_iff {id : Value} {a : Actor} :
    user id .null = .ok a ↔ id.word?.bind (bare? .user) = some a := by
  simp only [user, Except.bind_eq_ok, Argument.word_eq_ok_iff, zoned_null_eq_ok_iff,
    Option.bind_eq_some_iff]

theorem client_null_eq_ok_iff {id : Value} {a : Actor} :
    client id .null = .ok a ↔ id.word?.bind (bare? .client) = some a := by
  simp only [client, Except.bind_eq_ok, Argument.word_eq_ok_iff, zoned_null_eq_ok_iff,
    Option.bind_eq_some_iff]

theorem user_eq_ok_iff {id zone : Value} {w : Word} {a : Actor} (hz : zone.word? = some w) :
    user id zone = .ok a ↔ id.word?.bind (inZone? .user w) = some a := by
  simp only [user, Except.bind_eq_ok, Argument.word_eq_ok_iff, zoned_eq_ok_iff hz,
    Option.bind_eq_some_iff]

theorem client_eq_ok_iff {id zone : Value} {w : Word} {a : Actor} (hz : zone.word? = some w) :
    client id zone = .ok a ↔ id.word?.bind (inZone? .client w) = some a := by
  simp only [client, Except.bind_eq_ok, Argument.word_eq_ok_iff, zoned_eq_ok_iff hz,
    Option.bind_eq_some_iff]

end Actor

namespace Operation

/-- The operation that a value is or spells. -/
def ofValue? (v : Value) : Option Operation :=
  match v with
  | .member (.operation op) => some op
  | v => v.word?.bind fun w => ofSpelling? w.text

theorem ofValue?_eq {v : Value} (h : ∀ op, v ≠ .member (.operation op)) :
    ofValue? v = v.word?.bind fun w => ofSpelling? w.text := by
  unfold ofValue?
  split
  · exact absurd rfl (h _)
  · rfl

end Operation

namespace Argument

theorem operationOfToken_eq_ok_iff {v : Value} {op : Operation} :
    operationOfToken v = .ok op ↔ (v.word?.bind fun w => Operation.ofSpelling? w.text) =
      some op := by
  unfold operationOfToken
  cases v.word? with
  | none => simp
  | some w =>
    simp only [Option.bind_some]
    split <;> simp_all

theorem operation_eq_ok_iff {v : Value} {op : Operation} :
    operation v = .ok op ↔ Operation.ofValue? v = some op := by
  unfold operation
  split
  · simp [Operation.ofValue?, Value.word?]
  · simp [Operation.ofValue?]
  · rename_i hv
    rw [Operation.ofValue?_eq fun op => hv op, ← operationOfToken_eq_ok_iff]
    split
    · rename_i h
      rw [h]
    · rename_i h
      simp [h, Except.bind_eq_ok]

theorem operations_eq_ok_iff {vs : List Value} {ops : List Operation} :
    operations vs = .ok ops ↔ vs.mapM Operation.ofValue? = some ops :=
  Except.mapM_eq_ok_iff fun _ _ => operation_eq_ok_iff

end Argument

namespace PermissionBuilder

namespace Call

/-- The actor that a call asks for. -/
def actor? : Call → Option Actor
  | .app id => id.word?.bind fun id => some ⟨.app, id, none⟩
  | .user id => id.word?.bind (Actor.bare? .user)
  | .zoneUser zone id => zone.word?.bind fun zone => id.word?.bind (Actor.inZone? .user zone)
  | .client id => id.word?.bind (Actor.bare? .client)
  | .zoneClient zone id => zone.word?.bind fun zone => id.word?.bind (Actor.inZone? .client zone)
  | .operation _ => none
  | .operations _ => none

/-- The operations that a call asks for, of which each argument has to name one. -/
def operations? : Call → Option (List Operation)
  | .operation v => (Operation.ofValue? v).map fun op => [op]
  | .operations vs => vs.mapM Operation.ofValue?
  | _ => none

end Call

theorem setActor_eq_ok_iff {b b' : PermissionBuilder} {actor : Except Fault Actor} :
    b.setActor actor = .ok b' ↔
      ∃ a, actor = .ok a ∧ b.actor = none ∧ { b with actor := some a } = b' := by
  simp only [setActor, Except.bind_eq_ok, Except.pure_eq_ok]
  constructor
  · rintro ⟨_, hb, a, ha, rfl⟩
    refine ⟨a, ha, ?_, rfl⟩
    revert hb
    cases b.actor <;> simp [Argument.unset]
  · rintro ⟨a, ha, hb, rfl⟩
    exact ⟨(), by rw [hb]; rfl, a, ha, rfl⟩

variable {b b' : PermissionBuilder} {field : String} {id zone : Value}

/-- A call with an identifier, which is checked before its actor is made. -/
theorem setChecked_eq_ok_iff {make : Except Fault Actor} {of : Word → Option Actor}
    (h : ∀ a, make = .ok a ↔ id.word?.bind of = some a) :
    (Argument.word field id >>= fun _ => b.setActor make) = .ok b' ↔
      ∃ a, id.word?.bind of = some a ∧ b.actor = none ∧ { b with actor := some a } = b' := by
  simp only [Except.bind_eq_ok, setActor_eq_ok_iff, Argument.word_eq_ok_iff, h]
  constructor
  · -- the first check is made once more when the actor is made
    rintro ⟨-, -, hset⟩; exact hset
  · rintro ⟨a, ha, hset⟩
    obtain ⟨w, hw, -⟩ := Option.bind_eq_some_iff.1 ha
    exact ⟨w, hw, a, ha, hset⟩

/-- A call with a zone and an identifier, which are checked in this order before its actor is
made. -/
theorem setZoned_eq_ok_iff {make : Except Fault Actor} {of : Word → Word → Option Actor}
    (h : ∀ w a, zone.word? = some w → (make = .ok a ↔ id.word?.bind (of w) = some a)) :
    (Argument.word "zoneId" zone >>= fun _ => Argument.word field id >>= fun _ => b.setActor make) =
        .ok b' ↔
      ∃ a, (zone.word?.bind fun w => id.word?.bind (of w)) = some a ∧ b.actor = none ∧
        { b with actor := some a } = b' := by
  rw [Except.bind_eq_ok]
  simp only [Argument.word_eq_ok_iff]
  cases hz : zone.word? with
  | none => simp
  | some w =>
    -- with a zone at hand, the call is one with an identifier
    simp only [Option.some.injEq, exists_eq_left', Option.bind_some]
    exact setChecked_eq_ok_iff (h w · hz)

/-- The calls that are accepted, and what they do: one that asks for an actor sets it if there is
none, and one that asks for operations adds them. -/
theorem set_eq_ok_iff {c : Call} :
    b.set c = .ok b' ↔
      (∃ a, c.actor? = some a ∧ b.actor = none ∧ { b with actor := some a } = b') ∨
        ∃ ops, c.operations? = some ops ∧ b.addOperations ops = b' := by
  -- a call for an actor asks for no operations
  have actor_only {p q : Prop} (h : p ↔ q) {c : Call} (hc : c.operations? = none) :
      p ↔ q ∨ ∃ ops, c.operations? = some ops ∧ b.addOperations ops = b' := by
    simp [h, hc]
  cases c with
  | app id => exact actor_only (setChecked_eq_ok_iff fun _ => Actor.app_eq_ok_iff) rfl
  | user id => exact actor_only (setChecked_eq_ok_iff fun _ => Actor.user_null_eq_ok_iff) rfl
  | zoneUser zone id => exact actor_only (setZoned_eq_ok_iff fun _ _ => Actor.user_eq_ok_iff) rfl
  | client id => exact actor_only (setChecked_eq_ok_iff fun _ => Actor.client_null_eq_ok_iff) rfl
  | zoneClient zone id => exact actor_only (setZoned_eq_ok_iff fun _ _ =>
    Actor.client_eq_ok_iff) rfl
  | operation v =>
    simp only [set, Except.bind_eq_ok, Argument.operation_eq_ok_iff, Except.pure_eq_ok, Call.actor?,
      Call.operations?, Option.map_eq_some_iff, reduceCtorEq, false_and, exists_false, false_or]
    constructor
    · rintro ⟨op, hop, rfl⟩; exact ⟨_, ⟨op, hop, rfl⟩, rfl⟩
    · rintro ⟨_, ⟨op, hop, rfl⟩, rfl⟩; exact ⟨op, hop, rfl⟩
  | operations vs =>
    simp only [set, Except.bind_eq_ok, Argument.operations_eq_ok_iff,
      Except.pure_eq_ok, Call.actor?, Call.operations?, reduceCtorEq, false_and,
      exists_false, false_or]

end PermissionBuilder

end CredentialWrites
