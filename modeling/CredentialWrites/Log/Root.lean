import CredentialWrites.Log.Line
import CredentialWrites.Settings.Basic

/-!
# The log

The log has a level and handlers, each of which gets every record that reaches the log. A
configuration removes all handlers, adds one that writes lines, and sets the level, in this order,
so that a configuration with a bad level leaves its handler behind. A logger lets records through
from a level on: its own if the program around the library has given it one, or else that of the
nearest logger above it that has one, or else that of the log. The loggers of the library may be
recorded apart: then they let every debug record through, whatever the levels are. What handlers
write are code points; how a stream stores them is its own affair.

* `RootLog.configure` : the log under a configuration.
* `RootLog.write` : what the handlers write for a record.
-/

namespace CredentialWrites

/-- How the log is to be configured. Nothing is checked before it is used. -/
structure LoggingConfig where
  level : Value
  format : Value
  includeCaller : Value
  serviceName : Value
  redactedFields : Value
deriving Repr

namespace LoggingConfig

/-- The fields that are redacted by default. -/
def redactedByDefault : List Value := [.text "value"]

/-- A configuration from fields by name, the others having their defaults. -/
def ofFields (fields : List (String × Value)) : Making LoggingConfig := do
  let redacted ← Making.list redactedByDefault
  let field (name : String) (default : Value) : Value := (fields.lookup name).getD default
  return ⟨field "level" (.member (.logLevel .info)), field "format" (.member (.logFormat .json)),
    field "include_caller" (.bool true), field "service_name" (.text "credhub-client"),
    field "redacted_fields" redacted⟩

/-- The level that a setting names, or the default. -/
def levelOf (s : String) : LogLevel :=
  (LogLevel.ofToken? (Text.upper s)).getD .info

/-- The format that a setting names, or the default. -/
def formatOf (s : String) : LogFormat :=
  (LogFormat.ofToken? (Text.lower s)).getD .json

/-- The configuration that settings ask for. -/
def ofSettings (s : Settings) : Making LoggingConfig := do
  let redacted ← Making.list (if s.redactValues then redactedByDefault else [])
  return ⟨.member (.logLevel (levelOf s.logLevel)), .member (.logFormat (formatOf s.logFormat)),
    .bool s.includeCaller, .text s.serviceName, redacted⟩

/-- The form of lines that a configuration asks for. -/
def lineFormat (c : LoggingConfig) : Making LineFormat :=
  if c.format.eq (.member (.logFormat .json)) then
    LineFormat.ofStructured c.serviceName c.includeCaller c.redactedFields
  else LineFormat.ofConsole c.redactedFields

/-- The level that a configuration asks for in a log that is set to a level. -/
def threshold (c : LoggingConfig) (current : LogThreshold) : Except Fault LogThreshold := do
  let name ← c.level.storedAttr "value"
  match name.text? with
  | some name => LogThreshold.ofName current name
  | none => .error (.levelNameNotText name.kindName)

end LoggingConfig

/-- A handler of the log. -/
inductive LogHandler where
  /-- It writes every record as a line. -/
  | lines (format : LineFormat)
  /-- The program around the library has put it there, and it writes elsewhere. -/
  | foreign (kind : ForeignKind)
deriving Repr

namespace LogHandler

/-- What the handler writes for a record, if it can write it. -/
def write (h : LogHandler) (now : Clock) (r : LogRecord) : List CodePoint :=
  match h with
  | lines format => match format.write now r with
    | .ok line => line ++ Text.points "\n"
    | .error _ => []
  | foreign _ => []

end LogHandler

/-- The log: its level, the levels that loggers have been given, where zero is none, and its
handlers in the order in which records reach them. -/
structure RootLog where
  level : LogThreshold
  levels : List (String × Int)
  handlers : List LogHandler
deriving Repr

namespace RootLog

/-- The log at the start. -/
def start : RootLog :=
  ⟨.rank LogLevel.warning.rank, [], []⟩

/-- The log without handlers. -/
def clear (log : RootLog) : RootLog :=
  { log with handlers := [] }

/-- The log with one more handler. -/
def add (log : RootLog) (h : LogHandler) : RootLog :=
  { log with handlers := log.handlers ++ [h] }

/-- How the handler of the log writes, if the log has exactly one and that writes lines. -/
def handler (log : RootLog) : Option LineFormat :=
  match log.handlers with
  | [.lines format] => some format
  | _ => none

/-- The log under a configuration, whether that succeeded, and what was made and taken by then. -/
def configure (log : RootLog) (c : LoggingConfig) (made : Making.State) :
    RootLog × Except Fault Unit × Making.State :=
  match c.lineFormat made with
  | (.error f, made) => (log, .error f, made)
  | (.ok format, made) => match c.threshold log.level with
    | .error f => (log.clear.add (.lines format), .error f, made)
    | .ok level => ({ log.clear.add (.lines format) with level }, .ok (), made)

/-- The logger is one of the library's. -/
def ofLibrary (logger : String) : Bool :=
  logger = "src.credhub" || "src.credhub.".isPrefixOf logger

/-- The level that a logger has been given. -/
def ownLevel? (log : RootLog) (logger : String) : Option Int :=
  (log.levels.lookup logger).filter (· ≠ 0)

/-- A text and its parts in front of its dots, the longest first. -/
def atDots : List Char → List (List Char)
  | [] => [[]]
  | c :: cs => (atDots cs).map (c :: ·) ++ if c = '.' then [[]] else []

/-- The name of a logger and the names of the loggers above it, the nearest first. -/
def lineage (logger : String) : List String :=
  ((atDots logger.toList).map String.ofList).filter (· ≠ "")

/-- The level from which on a logger lets records through. -/
def levelFor (log : RootLog) (recorded : Bool) (logger : String) : Int :=
  if recorded && ofLibrary logger then LogLevel.debug.rank
  else ((lineage logger).findSome? log.ownLevel?).getD log.level.number

/-- A logger lets records of a level through. -/
def isEnabled (log : RootLog) (recorded : Bool) (logger : String) (level : Int) : Bool :=
  0 < level && log.levelFor recorded logger ≤ level

/-- What the handlers write for a record that a logger lets through. -/
def write (log : RootLog) (now : Clock) (r : LogRecord) : List CodePoint :=
  log.handlers.flatMap fun h => h.write now r

end RootLog

end CredentialWrites
