import CredentialWrites.Fault

/-!
# Log records

What is handed to the log: the name of a logger, a level, a message with its arguments, the place in
a program that it comes from, extra fields, and possibly a fault. Of the extra fields only those of
`LogRecord.extraFields` are ever written, and none may be named like a field that every record has.
-/

namespace CredentialWrites

/-- The place in a program that a log record comes from. -/
structure Origin where
  path : String
  line : Int
  function : Option String
deriving Repr

namespace Origin

/-- A place of which nothing is known. -/
def unknown : Origin :=
  ⟨"(unknown file)", 0, some "(unknown function)"⟩

/-- The last part of a path. -/
def fileName (path : List Char) : List Char :=
  (path.reverse.takeWhile (· ≠ '/')).reverse

/-- The file name without its extension. Dots at its start begin no extension. -/
def stem (name : List Char) : List Char :=
  let dots := name.takeWhile (· = '.')
  let rest := name.dropWhile (· = '.')
  if rest.contains '.' then dots ++ ((rest.reverse.dropWhile (· ≠ '.')).drop 1).reverse else name

/-- The module that a path belongs to. -/
def moduleName (o : Origin) : String :=
  String.ofList (stem (fileName o.path.toList))

end Origin

/-- The fault that a log record tells of. -/
inductive Attached where
  | nothing
  /-- A fault was asked for, but there was none. -/
  | empty
  /-- A fault, and what the log is told of how it came about: the calls that led to it and the
  faults behind it, as the lines of a report in front of the last one. -/
  | fault (v : Value) (background : String)
deriving Repr

/-- A log record. -/
structure LogRecord where
  logger : String
  level : Int
  /-- The message, in which arguments are still to be filled in if there are any. -/
  template : Value
  args : List Value
  origin : Origin
  extras : List (String × Value)
  attached : Attached
deriving Repr

namespace LogRecord

/-- The extra fields that are written, in their order. A field `value` is only set by callers on
their own records and is masked unless they decide otherwise. -/
def extraFields : List String :=
  ["credential_name", "value_type", "permission_count", "operation_count", "actor", "value"]

/-- The fields that every record has. -/
def ownFields : List String :=
  ["message", "asctime", "name", "msg", "args", "levelname", "levelno", "pathname",
    "filename", "module",
    "exc_info", "exc_text", "stack_info", "lineno", "funcName", "created", "msecs",
    "relativeCreated",
    "thread", "threadName", "processName", "process"]

/-- The record, unless an extra field is named like one that every record has. -/
def checked (r : LogRecord) : Except Fault LogRecord :=
  match r.extras.find? fun extra => ownFields.contains extra.1 with
  | some extra => .error (.takenField extra.1)
  | none => .ok r

/-- The value of an extra field. -/
def extra? (r : LogRecord) (field : String) : Option Value :=
  r.extras.lookup field

/-- A debug record of the library, which does not say where it comes from. -/
def trace (logger message : String) (extras : List (String × Value)) : LogRecord :=
  ⟨logger, LogLevel.debug.rank, .text message, [], .unknown, extras, .nothing⟩

end LogRecord

end CredentialWrites
