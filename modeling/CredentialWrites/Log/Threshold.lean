import CredentialWrites.Fault

/-!
# Levels of the log by name

The log is set to a level by the name that it knows the level under. It knows more names than the
vocabulary of levels has, and other things under other names: switches, which are on and serve as a
level, and texts and parts of the log, which do not. Some of these are written in a way that depends
on the run or the installation; they are told by their names instead.

* `LogThreshold.ofName` : the level that a name stands for.
-/

namespace CredentialWrites

/-- What the log is set to. -/
inductive LogThreshold where
  | rank (i : Int)
  /-- A switch that is on, which counts as one. -/
  | switch
deriving Repr, DecidableEq

namespace LogThreshold

/-- The number that records are compared with. -/
def number : LogThreshold → Int
  | rank i => i
  | switch => 1

/-- The value that a level is. -/
def toValue : LogThreshold → Value
  | rank i => .int i
  | switch => .bool true

/-- The numbers of the levels by all names that the log has for them. -/
def ranks : List (String × Int) :=
  [("CRITICAL", LogLevel.critical.rank), ("FATAL", LogLevel.critical.rank),
    ("ERROR", LogLevel.error.rank), ("WARN", LogLevel.warning.rank),
    ("WARNING", LogLevel.warning.rank), ("INFO", LogLevel.info.rank),
    ("DEBUG", LogLevel.debug.rank),
    ("NOTSET", 0)]

/-- The switches of the log. -/
def switches : List String :=
  ["raiseExceptions", "logThreads", "logMultiprocessing", "logProcesses"]

/-- The texts that the log has under a name. -/
def texts : List (String × String) :=
  [("BASIC_FORMAT", "%(levelname)s:%(name)s:%(message)s"), ("__name__", "logging"),
    ("__package__", "logging"), ("__status__", "production"), ("__version__", "0.5.1.2"),
    ("__date__", "07 February 2010")]

/-- The names of texts of the log that depend on the installation. -/
def localTexts : List String :=
  ["__author__", "__cached__", "__doc__", "__file__", "_srcfile"]

/-- The written form of a table. -/
def tableText (entries : List (String × String)) : String :=
  "\x7b" ++ String.intercalate ", " (entries.map fun e => e.1 ++ ": " ++ e.2) ++ "\x7d"

/-- The tables of the log: the names of the levels by their numbers, and the numbers by all
names. -/
def tables : List (String × String) :=
  [("_levelToName", tableText
      ((LogLevel.all.reverse.map fun l => (toString l.rank, Text.quoted l.token)) ++
        [("0", Text.quoted "NOTSET")])),
    ("_nameToLevel", tableText (ranks.map fun r => (Text.quoted r.1, toString r.2)))]

/-- The classes of the log. -/
def classes : List String :=
  ["BufferingFormatter", "FileHandler", "Filter", "Filterer", "Formatter", "Handler", "LogRecord",
    "Logger", "LoggerAdapter", "Manager", "NullHandler", "PercentStyle",
    "PlaceHolder", "RootLogger",
    "StrFormatStyle", "StreamHandler", "StringTemplateStyle", "_StderrHandler"]

/-- The written forms of other things that the log has under a name. -/
def others : List (String × String) :=
  [("GenericAlias", "<class 'types.GenericAlias'>"), ("Template", "<class 'string.Template'>"),
    ("_logRecordFactory", "<class 'logging.LogRecord'>"),
    ("_loggerClass", "<class 'logging.Logger'>"),
    ("lastResort", "<_StderrHandler <stderr> (WARNING)>"),
    ("_defaultLastResort", "<_StderrHandler <stderr> (WARNING)>"),
    ("_warnings_showwarning", "None"),
    ("atexit", "<module 'atexit' (built-in)>"), ("sys", "<module 'sys' (built-in)>"),
    ("time", "<module 'time' (built-in)>"), ("io", "<module 'io' (frozen)>"),
    ("os", "<module 'os' (frozen)>")]

/-- The names of parts of the log whose written form depends on the run or the installation:
functions, modules with a file, locks, and what the log keeps for itself. -/
def localParts : List String :=
  ["addLevelName", "basicConfig", "captureWarnings", "critical", "currentframe", "debug", "disable",
    "error", "exception", "fatal", "getLevelName", "getLevelNamesMapping", "getLogRecordFactory",
    "getLogger", "getLoggerClass", "info", "log", "makeLogRecord", "setLogRecordFactory",
    "setLoggerClass", "shutdown", "warn", "warning", "_acquireLock", "_addHandlerRef",
    "_after_at_fork_child_reinit_locks", "_checkLevel", "_is_internal_frame",
    "_register_at_fork_reinit_lock", "_releaseLock", "_removeHandlerRef", "_showwarning",
    "collections", "re", "threading", "traceback", "warnings", "weakref", "_STYLES",
    "_at_fork_reinit_lock_weakset", "_defaultFormatter", "_handlerList", "_handlers", "_lock",
    "_startTime", "_str_formatter", "__all__", "__builtins__", "__loader__", "__path__", "__spec__"]

/-- What stands for a written form that depends on the run or the installation. -/
def localForm (name : String) : String :=
  "<" ++ name ++ ">"

/-- The name of a level as the log writes it. -/
def nameOf (level : Int) : String :=
  if level = 0 then "NOTSET"
  else match LogLevel.all.find? (·.rank = level) with
    | some l => l.token
    | none => "Level " ++ toString level

/-- The written form of a level, a switch being written as a truth value. -/
def shown : LogThreshold → String
  | rank i => nameOf i
  | switch => "Level True"

/-- The written form of the text that the log has under a name. -/
def text? (name : String) : Option String :=
  if localTexts.contains name then some (localForm name) else (texts.lookup name).map Text.quoted

/-- The written form of what the log has under a name that is neither a number nor a text. The log
itself is among it, with the level that it is set to. -/
def part? (current : LogThreshold) (name : String) : Option String :=
  if classes.contains name then some ("<class 'logging." ++ name ++ "'>")
  else if localParts.contains name then some (localForm name)
  else if name = "root" then some ("<RootLogger root (" ++ current.shown ++ ")>")
  else (others ++ tables).lookup name

/-- The level that a name stands for in a log that is set to a level. -/
def ofName (current : LogThreshold) (name : String) : Except Fault LogThreshold :=
  match ranks.lookup name, text? name, current.part? name with
  | some i, _, _ => .ok (rank i)
  | none, some shown, _ => .error (.levelText shown)
  | none, none, some shown => .error (.levelKind shown)
  | none, none, none => if switches.contains name then .ok switch else .error (.unknownLevel name)

theorem ofName_token (current : LogThreshold) (l : LogLevel) :
    ofName current l.token = .ok (rank l.rank) := by
  cases l <;> rfl

end LogThreshold

end CredentialWrites
