import CredentialWrites.Json.Writer
import CredentialWrites.Log.Clock
import CredentialWrites.Log.Record
import CredentialWrites.Log.Template
import CredentialWrites.Log.Threshold

/-!
# Log lines

A record is written in one of two forms. The structured form is a document on one line with the
time, the level, the logger, the message and the service, then the place of the record if that is
asked for, the extra fields and the fault. The console form is for people and shows the level in
colour. In both, the extra fields that are to be redacted are masked. A structured line is a text of
characters; in a console line the message may have half of a character in it. Whole numbers are
written as if no bound were set on their digits, which an interpreter may have.

* `LineFormat.write` : a record as a line.
* `LineFormat.extras` : the extra fields as they are shown.
-/

namespace CredentialWrites

/-- What stands for a masked field. -/
def redactedMark : String := "***"

namespace LogRecord

/-- The message with its arguments filled in. -/
def message (r : LogRecord) : Except Fault Message := do
  Template.fill (← r.template.plain) r.args

/-- The fault of a record, if it has one, as its class and the value. -/
def fault? (r : LogRecord) : Option Value :=
  match r.attached with
  | .fault v _ => some v
  | _ => none

/-- What a report tells of how the fault of a record came about. -/
def background (r : LogRecord) : String :=
  match r.attached with
  | .fault _ background => background
  | _ => ""

/-- What stands for the text of a fault that has none. -/
def textless : String := "<exception str() failed>"

/-- A fault as the last line of a report: its class, and its text unless that is empty. -/
def faultLine (v : Value) : String :=
  match v.plain with
  | .ok w => if w.shown.isEmpty then v.kindPath else v.kindPath ++ ": " ++ w.shown
  | .error _ => v.kindPath ++ ": " ++ textless

/-- The report of a fault of a record. -/
def report (r : LogRecord) (v : Value) : String :=
  r.background ++ faultLine v

end LogRecord

/-- How records are written. -/
inductive LineFormat where
  | structured (service caller : Value) (redacted : List Value)
  | console (redacted : List Value)
deriving Repr

namespace LineFormat

/-- The structured form. The fields to redact may come as anything that yields items. -/
def ofStructured (service caller redacted : Value) : Making LineFormat := do
  return .structured service caller (← redacted.takeItems)

/-- The console form. -/
def ofConsole (redacted : Value) : Making LineFormat := do
  return .console (← redacted.takeItems)

/-- The fields that are to be redacted. -/
def redacted : LineFormat → List Value
  | structured _ _ redacted => redacted
  | console redacted => redacted

/-- The extra fields of a record as they are shown, those that are to be redacted masked. -/
def extras (redacted : List Value) (r : LogRecord) : Except Fault (List (String × Value)) := do
  let masked ← Value.distinct redacted
  return LogRecord.extraFields.filterMap fun field =>
    (r.extra? field).map fun v =>
      (field, if masked.any (Value.same (.text field)) then .text redactedMark else v)

/-- A number in a log line. -/
def numberText (x : Double) : String :=
  DecimalLayout.log.write x

/-- The name that a key of a mapping becomes, whole numbers of any length among them. -/
def memberName (k : Value) : Except Fault String :=
  match k with
  | .null => .ok "null"
  | .bool b => .ok (if b then "true" else "false")
  | .int i => .ok (toString i)
  | .float x => .ok (numberText x)
  | .nan _ => .ok "NaN"
  | k => match k.text? with
    | some s => .ok s
    | none => .error (.logKey k.kindName)

mutual

/-- The document of a value, with whole numbers of any length. What has none of its own is the text
of its plain form. -/
def document : Value → Except Fault Json
  | .null => .ok .null
  | .bool b => .ok (.bool b)
  | .int i => .ok (.int i)
  | .float x => .ok (.number (numberText x))
  | .nan _ => .ok (.number "NaN")
  | .text s => .ok (.text s)
  | .list _ items => do return .array (← documents items)
  | .tuple items => do return .array (← documents items)
  | .map _ es => do return .object (← members es)
  | .member m => .ok (.text (if m.isText then m.token else m.fullName))
  | v => do return .text (← v.plain).text

/-- The documents of some values. -/
def documents : List Value → Except Fault (List Json)
  | [] => .ok []
  | v :: vs => do
    let j ← document v
    return j :: (← documents vs)

/-- The members of the entries of a mapping. -/
def members : List (Value × Value) → Except Fault (List (String × Json))
  | [] => .ok []
  | (k, v) :: es => do
    let name ← memberName k
    let j ← document v
    return (name, j) :: (← members es)

end

/-- The documents of named values. -/
def namedDocuments : List (String × Value) → Except Fault (List (String × Json))
  | [] => .ok []
  | (name, v) :: rest => do
    let j ← document v
    return (name, j) :: (← namedDocuments rest)

/-- The members that tell where a record comes from. -/
def callerMembers (o : Origin) : List (String × Json) :=
  [("module", .text o.moduleName), ("function", (o.function.map .text).getD .null),
   ("line", .int o.line)]

/-- The members that tell of a fault. -/
def faultMembers (v : Value) (report : String) : Except Fault (List (String × Json)) := do
  let w ← v.plain
  return [("exception", .object [("type", .text v.kindName), ("message", .text w.text),
    ("traceback", .text report)])]

/-- The members that tell of the fault of a record, if it has one. -/
def attachedMembers (r : LogRecord) : Except Fault (List (String × Json)) :=
  match r.fault? with
  | some v => faultMembers v (r.report v)
  | none => .ok []

/-- The document of a record at a time. -/
def structuredDocument (service caller : Value) (redacted : List Value) (now : Clock)
    (r : LogRecord) : Except Fault Json := do
  let message ← r.message
  let shown ← extras redacted r
  let attached ← attachedMembers r
  let service ← document service
  let shown ← namedDocuments shown
  return .object
    ([("timestamp", .text now.timestamp), ("level", .text (LogThreshold.nameOf r.level)),
      ("logger", .text r.logger), ("message", .ofPoints message.points), ("service", service)]
    ++ (if caller.isTruthy then callerMembers r.origin else [])
    ++ shown
    ++ attached)

/-- The colour of a level. -/
def color (levelName : String) : String :=
  match levelName with
  | "DEBUG" => "\x1b[36m"
  | "INFO" => "\x1b[32m"
  | "WARNING" => "\x1b[33m"
  | "ERROR" => "\x1b[31m"
  | "CRITICAL" => "\x1b[35m"
  | _ => "\x1b[0m"

/-- The end of a colour. -/
def colorEnd : String := "\x1b[0m"

/-- A text with blanks behind it up to a width. -/
def padRight (width : Nat) (s : String) : String :=
  s ++ String.ofList (List.replicate (width - s.length) ' ')

/-- An extra field of a console line. -/
def consoleExtra (extra : String × Value) : Except Fault String := do
  return extra.1 ++ "=" ++ (← extra.2.plain).text

/-- The extra fields of a console line. -/
def consoleExtras (shown : List (String × Value)) : Except Fault String := do
  let parts ← shown.mapM consoleExtra
  return if parts.isEmpty then "" else " [" ++ String.intercalate ", " parts ++ "]"

/-- The console form of a record at a time. -/
def consoleText (redacted : List Value) (now : Clock) (r : LogRecord) :
    Except Fault (List CodePoint) := do
  let shown ← extras redacted r
  let shown ← consoleExtras shown
  let message ← r.message
  let name := LogThreshold.nameOf r.level
  let head := color name ++ now.timeOfDay ++ " " ++ padRight 8 name ++ colorEnd ++ " " ++
  r.logger ++ ": "
  let report := (r.fault?.map fun v => "\n" ++ r.report v).getD ""
  return Text.points head ++ message.shown ++ Text.points (shown ++ report)

/-- A record as a line at a time. -/
def write (f : LineFormat) (now : Clock) (r : LogRecord) : Except Fault (List CodePoint) :=
  match f with
  | structured service caller redacted => do
    return Text.points ((← structuredDocument service caller redacted now r).write .log)
  | console redacted => consoleText redacted now r

end LineFormat

end CredentialWrites
