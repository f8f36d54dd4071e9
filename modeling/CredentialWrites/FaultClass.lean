/-!
# Classes of faults

The classes under which faults are reported. A fault can also be held as a value; the class then
says what kind of value it is.
-/

namespace CredentialWrites

/-- The class under which a fault is reported. -/
inductive FaultClass where
  | base | invalidArgument | invalidState | wrongType | badValue | noAttribute | noKey | badIndex
  | overflow | outOfMemory | frozen | unserializable | validation | runtime
deriving Repr, DecidableEq

namespace FaultClass

/-- The name of a class of faults. -/
def name : FaultClass → String
  | base => "CredHubError"
  | invalidArgument => "InvalidArgumentError"
  | invalidState => "InvalidStateError"
  | wrongType => "TypeError"
  | badValue => "ValueError"
  | noAttribute => "AttributeError"
  | noKey => "KeyError"
  | badIndex => "IndexError"
  | overflow => "OverflowError"
  | outOfMemory => "MemoryError"
  | frozen => "FrozenInstanceError"
  | unserializable => "PydanticSerializationError"
  | validation => "ValidationError"
  | runtime => "RuntimeError"

/-- The faults of the builders, which carry a message, a code and a field. -/
def isOfBuilders : FaultClass → Bool
  | base => true
  | invalidArgument => true
  | invalidState => true
  | _ => false

/-- The name of a class of faults with its surroundings. -/
def path (c : FaultClass) : String :=
  if c.isOfBuilders then "src.credhub.exceptions." ++ c.name else c.name

end FaultClass

end CredentialWrites
