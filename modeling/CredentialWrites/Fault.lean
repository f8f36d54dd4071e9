import CredentialWrites.Value.Basic
import CredentialWrites.Word

/-!
# Faults

Every way in which a call can fail, as a cause; the wording is in `Fault.message` alone. Arguments
that the builders refuse, calls that conflict with state already set, and the failures of the values
themselves: a thing that has no items, no length, no such key, or cannot be hashed or copied.

Kinds of values and already rendered values appear in causes as texts.
-/

namespace CredentialWrites

/-- Why a builder or a constructor refuses an argument. -/
inductive ArgumentFault where
  /-- The argument is missing. -/
  | null (field : String)
  /-- The argument is no text but of kind `got`. -/
  | notText (field got : String)
  /-- The argument is no mapping but of kind `got`. -/
  | notMapping (field got : String)
  /-- The zone holds the separator. -/
  | separatorInZone (zone : String)
  /-- The identifier holds the separator and no zone is given. -/
  | separatorWithoutZone (field id : String)
  /-- The identity has no type, no identifier or an empty part. -/
  | malformedIdentity (identity : Word)
  /-- The identity starts with an unknown type. -/
  | unknownActorType (found identity : String)
  /-- A name needs at least one segment. -/
  | noSegments
  /-- A segment holds nothing but separators. -/
  | emptySegment (segment : String)
  /-- The rendered value names no operation. -/
  | unknownOperation (shown : String)
  /-- The argument is neither a name nor a text. -/
  | notName (got : String)
  /-- The argument is no truth value. -/
  | notBool (got : String)
  /-- The argument is no permission. -/
  | notPermission (got : String)
deriving Repr, DecidableEq

namespace ArgumentFault

/-- The parameter that a refused argument was given for. -/
def field : ArgumentFault → String
  | null field => field
  | notText field _ => field
  | notMapping field _ => field
  | separatorInZone _ => "zoneId"
  | separatorWithoutZone field _ => field
  | malformedIdentity _ => "identity"
  | unknownActorType _ _ => "identity"
  | noSegments => "segments"
  | emptySegment _ => "segment"
  | unknownOperation _ => "operation"
  | notName _ => "name"
  | notBool _ => "overwrite"
  | notPermission _ => "permission"

/-- The wording of a refusal. -/
def message : ArgumentFault → String
  | null field => field ++ " must not be null"
  | notText field got => field ++ " must be a string, got " ++ got
  | notMapping field got => field ++ " must be a mapping, got " ++ got
  | separatorInZone zone => "zoneId must not contain '/': " ++ Text.quoted zone
  | separatorWithoutZone field id =>
    field ++ " must not contain '/' without a zone: " ++ Text.quoted id
  | malformedIdentity identity => "Malformed actor identity: " ++ identity.quoted
  | unknownActorType found identity =>
    "Unknown actor type " ++ Text.quoted found ++ " in identity " ++ Text.quoted identity
  | noSegments => "at least one name segment is required"
  | emptySegment segment => "Empty name segment: " ++ Text.quoted segment
  | unknownOperation shown =>
    "Unknown operation: " ++ shown ++ ". Expected one of: "
      ++ String.intercalate ", " (Operation.all.map Operation.token)
  | notName got => "name must be a CredentialName or string, got " ++ got
  | notBool got => "overwrite must be a bool, got " ++ got
  | notPermission got => "permission must be a CredentialPermission, got " ++ got

end ArgumentFault

/-- Why a value cannot be written as a document on the wire. -/
inductive SerializationFault where
  /-- Containers are nested too deeply. -/
  | tooDeep
  /-- Bytes end within a character that starts at the index. -/
  | truncatedBytes (index : Nat)
  /-- Bytes are ill-formed from the index on, for the given length. -/
  | malformedBytes (length index : Nat)
  /-- A key of bytes is ill-formed from the index on, where the given byte stands, for the given
  length. -/
  | malformedKey (byte index length : Nat)
  /-- A key has no plain form, for a reason of the given class and wording. -/
  | failedKey (className message : String)
  /-- Values of the kind cannot be member names. -/
  | badKey (kind : String)
  /-- There is no way to write values of the kind, whose full name is given. -/
  | unknownKind (path : String)
  /-- The same for a member name. -/
  | unknownKeyKind (path : String)
deriving Repr, DecidableEq

namespace SerializationFault

/-- The wording of a failure to write a value. -/
def message : SerializationFault → String
  | tooDeep => "Error serializing to JSON: ValueError: Maximum serialization depth exceeded"
  | truncatedBytes index =>
    "Error serializing to JSON: incomplete utf-8 byte sequence from index " ++ toString index
  | malformedBytes length index =>
    "Error serializing to JSON: invalid utf-8 sequence of " ++ toString length
      ++ " bytes from index " ++ toString index
  | malformedKey byte index length =>
    "Error serializing to JSON: UnicodeDecodeError: 'utf-8' codec can't decode "
      ++ (if length = 1 then
          "byte 0x" ++ String.ofList (Text.hex 2 byte) ++ " in position " ++ toString index
        else "bytes in position " ++ toString index ++ "-" ++ toString (index + length - 1))
      ++ ": invalid utf-8"
  | failedKey className message => "Error serializing to JSON: " ++ className ++ ": " ++ message
  | badKey kind =>
    "Error serializing to JSON: TypeError: \x60" ++ kind ++ "\x60 not valid as object key"
  | unknownKind path => "Unable to serialize unknown type: <class '" ++ path ++ "'>"
  | unknownKeyKind path =>
    "Error serializing to JSON: PydanticSerializationError: "
      ++ "Unable to serialize unknown type: <class '" ++ path ++ "'>"

end SerializationFault

/-- Why a template cannot be filled in. -/
inductive TemplateFault where
  | notEnoughArguments
  | unusedArguments
  | incompleteKey
  | incomplete
  | needsMapping
  | widthNotInt
  | widthTooBig
  | precisionTooBig
  /-- The number of digits asked for is too large for a whole number. -/
  | precisionTooLarge
  /-- The text would be too long to be held. -/
  | outOfMemory
  | starTooBig (size : String)
  | unsupported (c : Char) (index : Nat)
  | needsNumber (conversion : Char) (got : String)
  | needsInteger (conversion : Char) (got : String)
  | needsReal (got : String)
  | needsCharacter
  | characterOutOfRange
  | infinityToInteger
  | nanToInteger
  | intTooLarge
deriving Repr, DecidableEq

namespace TemplateFault

/-- The class of a failure to fill in a template. -/
def faultClass : TemplateFault → FaultClass
  | incompleteKey | incomplete | unsupported _ _ | widthTooBig | precisionTooBig | nanToInteger =>
    .badValue
  | characterOutOfRange | infinityToInteger | starTooBig _ | intTooLarge
  | precisionTooLarge => .overflow
  | outOfMemory => .outOfMemory
  | _ => .wrongType

/-- The wording of a failure to fill in a template. -/
def message : TemplateFault → String
  | notEnoughArguments => "not enough arguments for format string"
  | unusedArguments => "not all arguments converted during string formatting"
  | incompleteKey => "incomplete format key"
  | incomplete => "incomplete format"
  | needsMapping => "format requires a mapping"
  | widthNotInt => "* wants int"
  | widthTooBig => "width too big"
  | precisionTooBig => "precision too big"
  | precisionTooLarge => "precision too large"
  | outOfMemory => ""
  | starTooBig size => "Python int too large to convert to C " ++ size
  | unsupported c index =>
    "unsupported format character '" ++ (if 31 ≤ c.toNat && c.toNat < 127 then c.toString else "?")
      ++ "' (0x" ++ String.ofList (Nat.toDigits 16 c.toNat) ++ ") at index " ++ toString index
  | needsNumber conversion got =>
    "%" ++ conversion.toString ++ " format: a real number is required, not " ++ got
  | needsInteger conversion got =>
    "%" ++ conversion.toString ++ " format: an integer is required, not " ++ got
  | needsReal got => "must be real number, not " ++ got
  | needsCharacter => "%c requires int or char"
  | characterOutOfRange => "%c arg not in range(0x110000)"
  | infinityToInteger => "cannot convert float infinity to integer"
  | nanToInteger => "cannot convert float NaN to integer"
  | intTooLarge => "int too large to convert to float"

end TemplateFault

/-- A step into a structure on the way to a field. -/
inductive Step where
  | field (name : String)
  | index (i : Nat)
deriving Repr, DecidableEq

/-- Why a field of a model refuses its value. -/
inductive FieldFault where
  | notText
  | notTextBytes
  | notBool
  | unreadableBool
  | notInt
  | unreadableInt
  | fractionalInt
  | infiniteInt
  | oversizedInt
  | notList
  | notModel (model : String)
deriving Repr, DecidableEq

namespace FieldFault

/-- The short name of a refusal. -/
def code : FieldFault → String
  | notText => "string_type"
  | notTextBytes => "string_unicode"
  | notBool => "bool_type"
  | unreadableBool => "bool_parsing"
  | notInt => "int_type"
  | unreadableInt => "int_parsing"
  | fractionalInt => "int_from_float"
  | infiniteInt => "finite_number"
  | oversizedInt => "int_parsing_size"
  | notList => "list_type"
  | notModel _ => "model_type"

/-- The wording of a refusal. -/
def message : FieldFault → String
  | notText => "Input should be a valid string"
  | notTextBytes => "Input should be a valid string, unable to parse raw data as a unicode string"
  | notBool => "Input should be a valid boolean"
  | unreadableBool => "Input should be a valid boolean, unable to interpret input"
  | notInt => "Input should be a valid integer"
  | unreadableInt => "Input should be a valid integer, unable to parse string as an integer"
  | fractionalInt => "Input should be a valid integer, got a number with a fractional part"
  | infiniteInt => "Input should be a finite number"
  | oversizedInt =>
    "Unable to parse input string as an integer, exceeded maximum size"
  | notList => "Input should be a valid list"
  | notModel model => "Input should be a valid dictionary or instance of " ++ model

end FieldFault

/-- A refusal with the way to its field. -/
structure FieldError where
  path : List Step
  fault : FieldFault
deriving Repr, DecidableEq

/-- The part that an index is out of range for. -/
inductive IndexUse where
  | listItem | listAssignment | tupleItem | textItem | bytesItem | bufferItem
deriving Repr, DecidableEq

namespace IndexUse

/-- The words in front of "index out of range". -/
def name : IndexUse → String
  | listItem => "list"
  | listAssignment => "list assignment"
  | tupleItem => "tuple"
  | textItem => "string"
  | bytesItem => ""
  | bufferItem => "bytearray"

end IndexUse

/-- Why a call fails. -/
inductive Fault where
  /-- A builder or a constructor refuses an argument. -/
  | argument (cause : ArgumentFault)
  /-- The same for a parameter that the caller names by a value of any kind. -/
  | argumentNamed (name : Value) (cause : ArgumentFault)
  /-- A call conflicts with state already set. -/
  | state (message : String)
  /-- The rendered value is no member of the vocabulary. -/
  | notMember (shown vocabulary : String)
  /-- An operation token is no text. -/
  | tokenNotText (got : String)
  | notIterable (kind : String)
  | noLength (kind : String)
  | notSubscriptable (kind : String)
  | unhashable (kind : String)
  | noAttribute (kind attr : String)
  /-- A model has no field of the name. -/
  | noField (model field : String)
  /-- A field of an immutable record was assigned. -/
  | frozenField (field : String)
  /-- A method of a value was assigned. -/
  | readOnlyAttribute (kind attr : String)
  /-- A part of a value that is seen as an attribute was assigned. -/
  | fixedAttribute (kind attr : String)
  /-- A computed attribute was assigned. -/
  | noSetter (kind attr : String)
  /-- The name or the token of a member of a vocabulary was assigned. -/
  | memberAttribute (attr : String)
  /-- What is called is no function. -/
  | notCallable (kind : String)
  | uncopyable (kind : String)
  | noItemAssignment (kind : String)
  | noItemDeletion (kind : String)
  /-- The same for the item at an index. -/
  | noIndexDeletion (kind : String)
  /-- No entry has the rendered key. -/
  | missingKey (shown : String)
  | indexOutOfRange (use : IndexUse)
  | indexTooBig
  /-- An index of kind `got` where a number is needed. -/
  | badIndex (container got : String)
  | notInteger (kind : String)
  | byteOutOfRange
  | negativeUnsigned
  | unsignedTooBig
  /-- The log has nothing of the name. -/
  | unknownLevel (name : String)
  /-- The name of a level is of another kind than text. -/
  | levelNameNotText (kind : String)
  /-- The rendered text that the log has under the name is no level. -/
  | levelText (shown : String)
  /-- What the log has under the name is neither a number nor a text. -/
  | levelKind (shown : String)
  /-- An extra field of a log record is named like one of the fields that every record has. -/
  | takenField (name : String)
  /-- A member name of a log line is of kind `got`. -/
  | logKey (got : String)
  | template (cause : TemplateFault)
  | serialization (cause : SerializationFault)
  | validation (errors : List FieldError)
  /-- A register of a script was never filled. -/
  | unfilledRegister (name : String)
deriving Repr

namespace Fault

/-- The class of a fault, absent for an unfilled register, which is a fault of the script. -/
def faultClass? : Fault → Option FaultClass
  | argument _ => some .invalidArgument
  | argumentNamed _ _ => some .invalidArgument
  | state _ => some .invalidState
  | notMember _ _ => some .badValue
  | tokenNotText _ => some .badValue
  | notIterable _ => some .wrongType
  | noLength _ => some .wrongType
  | notSubscriptable _ => some .wrongType
  | unhashable _ => some .wrongType
  | noAttribute _ _ => some .noAttribute
  | noField _ _ => some .badValue
  | frozenField _ => some .frozen
  | readOnlyAttribute _ _ => some .noAttribute
  | fixedAttribute _ _ => some .noAttribute
  | noSetter _ _ => some .noAttribute
  | memberAttribute _ => some .noAttribute
  | notCallable _ => some .wrongType
  | uncopyable _ => some .wrongType
  | noItemAssignment _ => some .wrongType
  | noItemDeletion _ => some .wrongType
  | noIndexDeletion _ => some .wrongType
  | missingKey _ => some .noKey
  | indexOutOfRange _ => some .badIndex
  | indexTooBig => some .badIndex
  | badIndex _ _ => some .wrongType
  | notInteger _ => some .wrongType
  | byteOutOfRange => some .badValue
  | negativeUnsigned => some .overflow
  | unsignedTooBig => some .overflow
  | unknownLevel _ => some .noAttribute
  | levelNameNotText _ => some .wrongType
  | levelText _ => some .badValue
  | levelKind _ => some .wrongType
  | takenField _ => some .noKey
  | logKey _ => some .wrongType
  | template cause => some cause.faultClass
  | serialization _ => some .unserializable
  | validation _ => some .validation
  | unfilledRegister _ => none

/-- The wording of a fault. A refused model has no wording of its own but one for each field. -/
def message : Fault → String
  | argument cause => cause.message
  | argumentNamed _ cause => cause.message
  | state message => message
  | notMember shown vocabulary => shown ++ " is not a valid " ++ vocabulary
  | tokenNotText got => "operation token must be a string, got " ++ got
  | notIterable kind => "'" ++ kind ++ "' object is not iterable"
  | noLength kind => "object of type '" ++ kind ++ "' has no len()"
  | notSubscriptable kind => "'" ++ kind ++ "' object is not subscriptable"
  | unhashable kind => "unhashable type: '" ++ kind ++ "'"
  | noAttribute kind attr => "'" ++ kind ++ "' object has no attribute '" ++ attr ++ "'"
  | noField model field => "\"" ++ model ++ "\" object has no field \"" ++ field ++ "\""
  | frozenField field => "cannot assign to field " ++ Text.quoted field
  | readOnlyAttribute kind attr => "'" ++ kind ++ "' object attribute '" ++ attr ++ "' is read-only"
  | fixedAttribute kind attr => "attribute '" ++ attr ++ "' of '" ++ kind ++
      "' objects is not writable"
  | noSetter kind attr => "property '" ++ attr ++ "' of '" ++ kind ++ "' object has no setter"
  | memberAttribute attr => "<enum 'Enum'> cannot set attribute " ++ Text.quoted attr
  | notCallable kind => "'" ++ kind ++ "' object is not callable"
  | uncopyable kind => "cannot pickle '" ++ kind ++ "' object"
  | noItemAssignment kind => "'" ++ kind ++ "' object does not support item assignment"
  | noItemDeletion kind => "'" ++ kind ++ "' object does not support item deletion"
  | noIndexDeletion kind => "'" ++ kind ++ "' object doesn't support item deletion"
  | missingKey shown => shown
  | indexOutOfRange .bytesItem => "index out of range"
  | indexOutOfRange use => use.name ++ " index out of range"
  | indexTooBig => "cannot fit 'int' into an index-sized integer"
  | badIndex "str" got => "string indices must be integers, not '" ++ got ++ "'"
  | badIndex "bytes" got => "byte indices must be integers or slices, not " ++ got
  | badIndex container got => container ++ " indices must be integers or slices, not " ++ got
  | notInteger kind => "'" ++ kind ++ "' object cannot be interpreted as an integer"
  | byteOutOfRange => "byte must be in range(0, 256)"
  | negativeUnsigned => "can't convert negative int to unsigned"
  | unsignedTooBig => "int too big to convert"
  | unknownLevel name => "module 'logging' has no attribute '" ++ name ++ "'"
  | levelNameNotText kind => "attribute name must be string, not '" ++ kind ++ "'"
  | levelText shown => "Unknown level: " ++ shown
  | levelKind shown => "Level not an integer or a valid string: " ++ shown
  | takenField name => Text.quoted ("Attempt to overwrite " ++ Text.quoted name ++ " in LogRecord")
  | logKey got => "keys must be str, int, float, bool or None, not " ++ got
  | template cause => cause.message
  | serialization cause => cause.message
  | validation _ => ""
  | unfilledRegister name => name

/-- The code that a fault of the builders carries. -/
def code? : Fault → Option ErrorCode
  | argument _ => some .invalidArgument
  | argumentNamed _ _ => some .invalidArgument
  | state _ => some .invalidState
  | _ => none

/-- The parameter that a fault names. -/
def field? : Fault → Option Value
  | argument cause => some (.text cause.field)
  | argumentNamed name _ => some name
  | _ => none

end Fault

end CredentialWrites
