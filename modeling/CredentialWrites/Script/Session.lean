import CredentialWrites.Script.Expression
import CredentialWrites.Value.Poke

/-!
# Sessions

A session runs the steps of a script one after the other. It holds what the steps can change: the
registers, the surroundings that settings are loaded from, the settings that are kept, and the log.
A change to an object shows in every register where the object occurs.

* `Session.step` : a session after a step, and what is reported of the step.
* `Session.run` : the reports of all steps.
-/

namespace CredentialWrites

/-- The state of a session. -/
structure Session where
  /-- What was made and taken so far. -/
  made : Making.State
  registers : Registers
  surroundings : Surroundings
  cache : SettingsCache
  log : RootLog
  now : Clock
  /-- The loggers of the library are recorded apart. -/
  recorded : Bool
deriving Repr

/-- A log record whose values are still to be evaluated. -/
structure RecordExpr where
  logger : String
  level : Int
  template : Expr
  args : List Expr
  origin : Origin
  extras : List (String × Expr)
  /-- Nothing, an empty fault, or an expression for a fault. -/
  attached : Option (Option Expr)
deriving Repr

/-- A change to an object. -/
inductive Change where
  | set (key value : Expr)
  | delete (key : Expr)
  | append (value : Expr)
deriving Repr

/-- What a step does. -/
inductive Action where
  /-- A function, or a method of the object in a register. -/
  | call (function : String) (on : Option String) (args : List Expr) (named : List (String × Expr))
      (store : Option String)
  | define (value : Expr) (store : String)
  | view (on : String)
  | attribute (on name : String) (store : Option String)
  | setAttribute (on name : String) (value : Expr)
  | change (on : String) (path : List Expr) (change : Change)
  /-- A comparison, with or without the size of the set of both values. -/
  | compare (a b : Expr) (hashed : Bool)
  | environment (set : List (String × String)) (unset : List String)
  | clearCache
  | settings
  | configure (fields : Option (List (String × Expr)))
  | log (record : RecordExpr)
deriving Repr

/-- A step, of which less is reported if it is quiet. -/
structure ScriptStep where
  action : Action
  quiet : Bool
deriving Repr

/-- What a step answers. -/
inductive Answer where
  | nothing
  /-- The object that the method was called on. -/
  | self
  | value (v : Value)
  /-- Whether two values are equal, and how many members the set of both has. -/
  | comparison (equal : Bool) (distinct : Option (Except Fault Nat))
  | settings (s : Settings)
  | log (log : RootLog)
  | enabled (b : Bool)
deriving Repr

/-- What is reported of a step. -/
structure Report where
  outcome : Except Fault Answer
  /-- The builder in the register that the step works on. -/
  state : Option Value
  /-- The records of the library's loggers. -/
  records : List LogRecord
  /-- What the handlers of the log wrote. -/
  output : List CodePoint
deriving Repr

namespace Session

/-- A session at its start. -/
def start (surroundings : Surroundings) (now : Clock) (recorded : Bool) : Session :=
  ⟨.start, [], surroundings, none, .start, now, recorded⟩

/-- The builder in a register. -/
def builderIn? (s : Session) (register : String) : Option Value :=
  match s.registers.lookup register with
  | some (.object .permissionBuilder c attrs) => some (.object .permissionBuilder c attrs)
  | some (.object .requestBuilder c attrs) => some (.object .requestBuilder c attrs)
  | _ => none

/-- The session with another object in place of the one of a cell. -/
def replace (s : Session) (cell : Cell) (new : Value) : Session :=
  { s with registers := s.registers.map fun r => (r.1, Value.replace cell new r.2) }

/-- The session with an object in place of the one that it was made from. -/
def put (s : Session) (new : Value) : Session :=
  match new.cell? with
  | some cell => s.replace cell new
  | none => s

/-- The session with a builder in place of the one that it was made from, and with the lists that
the builder keeps. -/
def putBuilder (s : Session) (kind : ObjectKind) (cell : Cell) (attrs : List (String × Value)) :
    Session :=
  ((attrs.map Prod.snd).foldl put s).put (.object kind cell attrs)

/-- What is known of a step while it runs: the session, the records and the output. -/
structure Progress where
  session : Session
  records : List LogRecord
  output : List CodePoint

/-- A step that can fail, after which the session is as far as the step came. -/
abbrev Run (α : Type) := ExceptT Fault (StateM Progress) α

namespace Run

/-- The session as it is. -/
def current : Run Session := do
  return (← get).session

/-- The session is changed. -/
def update (f : Session → Session) : Run Unit :=
  modify fun p => { p with session := f p.session }

/-- A computation that makes objects and takes from streams. -/
def make {α : Type} (m : Making α) : Run α := do
  let s ← current
  let (result, made) := m s.made
  update fun s => { s with made }
  match result with
  | .ok a => return a
  | .error f => throw f

/-- The value of an expression. -/
def eval (e : Expr) : Run Value := do
  make (e.eval (← current).registers)

/-- The values of some expressions. -/
def evalAll (es : List Expr) : Run (List Value) := do
  make (Expr.evalAll (← current).registers es)

/-- The values of named expressions. -/
def evalNamed (es : List (String × Expr)) : Run (List (String × Value)) := do
  make (Expr.evalNamed (← current).registers es)

/-- The content of a register. -/
def read (register : String) : Run Value := do
  match (← current).registers.read register with
  | .ok v => return v
  | .error f => throw f

/-- A value is stored in a register, if one is given. -/
def store (register : Option String) (v : Value) : Run Unit :=
  match register with
  | some name => update fun s => { s with registers := s.registers.store name v }
  | none => return ()

/-- A log record is handed to its logger. Whether it was let through is the result. A record that is
kept apart has to have a message. -/
def emit (r : LogRecord) : Run Bool := do
  let s ← current
  if s.log.isEnabled s.recorded r.logger r.level then
    if s.recorded && RootLog.ofLibrary r.logger then
      match r.message with
      | .ok _ => modify fun p => { p with records := p.records ++ [r] }
      | .error f => throw f
    modify fun p => { p with output := p.output ++ s.log.write s.now r }
    return true
  else return false

/-- The settings that are kept. Loading them leaves warnings in the log. -/
def settings : Run Settings := do
  let s ← current
  if s.cache.isNone then s.surroundings.warnings.forM fun r => discard (emit r)
  let (result, cache) := SettingsCache.get s.cache s.surroundings
  update fun s => { s with cache }
  match result with
  | .ok settings => return settings
  | .error f => throw f

/-- An act on a permission builder with some attributes. -/
def onPermissionBuilder (cell : Cell) (attrs : List (String × Value)) (b : PermissionBuilder)
    (act : PermissionBuilder.Act) : Run Answer := do
  let (b, answer, records) := b.perform act
  let attrs ← make (b.store attrs)
  update fun s => s.putBuilder .permissionBuilder cell attrs
  records.forM fun r => discard (emit r)
  match answer with
  | .self => return .self
  | .built p => return .value p.toValue
  | .refused f => throw f

/-- An act on a request builder with some attributes. -/
def onRequestBuilder (cell : Cell) (attrs : List (String × Value)) (b : RequestBuilder)
    (act : RequestBuilder.Act) : Run Answer := do
  let (b, answer, records, made) := b.perform act (← current).made
  update fun s => { s with made }
  let attrs ← make (b.store attrs)
  update fun s => s.putBuilder .requestBuilder cell attrs
  records.forM fun r => discard (emit r)
  match answer with
  | .self => return .self
  | .built r => return .value r.toValue
  | .refused f => throw f

end Run

/-- The act that a method of a permission builder is. -/
def permissionAct? (method : String) (a : Function.Arguments) : Option PermissionBuilder.Act :=
  match method with
  | "app" => some (.call (.app (a.arg 0 "app_id")))
  | "user" => some (.call (.user (a.arg 0 "user_id")))
  | "zone_user" => some (.call (.zoneUser (a.arg 0 "zone_id") (a.arg 1 "user_id")))
  | "client" => some (.call (.client (a.arg 0 "client_id")))
  | "zone_client" => some (.call (.zoneClient (a.arg 0 "zone_id") (a.arg 1 "client_id")))
  | "operation" => some (.call (.operation (a.arg 0 "operation")))
  | "operations" => some (.call (.operations a.byPlace))
  | "build" => some .build
  | _ => none

/-- The act that a method of a request builder is. -/
def requestAct? (method : String) (a : Function.Arguments) : Option RequestBuilder.Act :=
  match method with
  | "password_value" => some (.call (.passwordValue (a.arg 0 "value")))
  | "json_value" => some (.call (.jsonValue (a.arg 0 "value")))
  | "name" => some (.call (.name (a.arg 0 "name")))
  | "overwrite" => some (.call (.overwrite (a.arg 0 "overwrite")))
  | "additional_permission" => some (.call (.additionalPermission (a.arg 0 "permission")))
  | "additional_permissions" => some (.call (.additionalPermissions (a.arg 0 "permissions")))
  | "build" => some .build
  | _ => none

/-- The indentation of a request's text: the one that is given, or else that of the settings. -/
def indentOf (given : Value) : Run Value :=
  match given with
  | .null => do
    return ((← Run.settings).jsonIndent.map Field.Numeral.toValue).getD .null
  | v => return v

/-- A method of a value that is no builder. One that works without the value is a function of its
kind. -/
def valueMethod (v : Value) (method : String) (a : Function.Arguments) : Run Value :=
  match v, method with
  | .record .request _, "to_dict" => Run.make (Payload.requestToDict v)
  | .record .request _, "to_payload" => Run.make (Payload.ofRequest v)
  | .record .request _, "to_json" => do
    let indent ← indentOf (a.arg 0 "indent")
    return .text (← Run.make (Payload.requestToJson v indent))
  | .record .permission _, "to_dict" => Run.make (Payload.permissionToDict v)
  | .record .json [content], "to_dict" => Run.make (Value.thaw content)
  | .object .requestPayload _ _, "to_dict" => Run.make (Payload.toDict v)
  | .object .requestPayload _ _, "to_json" => Run.make do
    return .text (← Payload.toJson v (a.arg 0 "indent"))
  | v, method => do
    let part ← Run.make (v.attr method)
    if part.eq Value.boundMethod then Run.make (Function.call (v.kindName ++ "." ++ method) a)
    else throw (.notCallable part.kindName)

/-- A method of the object in a register. An attribute of a builder hides a method of its name. -/
def method (v : Value) (name : String) (a : Function.Arguments) : Run Answer :=
  match v with
  | .object .permissionBuilder cell attrs =>
    match attrs.lookup name, permissionAct? name a, PermissionBuilder.ofAttrs? attrs with
    | none, some act, some b => Run.onPermissionBuilder cell attrs b act
    | _, _, _ => Answer.value <$> valueMethod v name a
  | .object .requestBuilder cell attrs =>
    match attrs.lookup name, requestAct? name a, RequestBuilder.ofAttrs? attrs with
    | none, some act, some b => Run.onRequestBuilder cell attrs b act
    | _, _, _ => Answer.value <$> valueMethod v name a
  | v => Answer.value <$> valueMethod v name a

/-- A call, whose result is stored if it succeeds. The arguments come before the object. -/
def call (function : String) (on : Option String) (args : List Expr) (named : List (String × Expr))
    (store : Option String) : Run Answer := do
  let byPlace ← Run.evalAll args
  let byName ← Run.evalNamed named
  let a : Function.Arguments := ⟨byPlace, byName⟩
  match on with
  | none => do
    let v ← Run.make (Function.call function a)
    Run.store store v
    return .value v
  | some on => do
    match ← method (← Run.read on) function a with
    | .self => do
      Run.store store (← Run.read on)
      return .self
    | .value v => do
      Run.store store v
      return .value v
    | answer => return answer

/-- The value at the end of a path of keys, each of which is evaluated when the value before it is
there. -/
def along (v : Value) : List Expr → Run Value
  | [] => return v
  | e :: es => do
    let key ← Run.eval e
    along (← Run.make (v.item key)) es

/-- An object after a change. The value to be put there is evaluated before its key, and one to be
appended when it is clear that the object takes any. -/
def changed (container : Value) : Change → Run Value
  | .set key value => do
    let value ← Run.eval value
    let key ← Run.eval key
    Run.make (container.setItem key value)
  | .delete key => do
    let key ← Run.eval key
    Run.make (container.deleteItem key)
  | .append value => do
    match container.unappendable? with
    | some (.notCallable kind) => do
      let _ ← Run.eval value
      throw (.notCallable kind)
    | some f => throw f
    | none => do
      let value ← Run.eval value
      Run.make (container.append value)

/-- A change to the object at the end of a path. -/
def change (on : String) (path : List Expr) (c : Change) : Run Answer := do
  let container ← along (← Run.read on) path
  let new ← changed container c
  Run.update fun s => s.put new
  return .value (← Run.read on)

/-- An assignment to an attribute of the object in a register. -/
def setAttribute (on name : String) (value : Expr) : Run Answer := do
  let v ← Run.read on
  let value ← Run.eval value
  let new ← Run.make (v.setAttr name value)
  Run.update fun s => s.put new
  return .nothing

/-- A comparison of two values. -/
def compare (a b : Expr) (hashed : Bool) : Run Answer := do
  let a ← Run.eval a
  let b ← Run.eval b
  return .comparison (a.eq b)
    (if hashed then some ((Value.distinct [a, b]).map List.length) else none)

/-- The configuration that is asked for: the one that is given, or else the one of the settings. -/
def configOf (fields : Option (List (String × Expr))) : Run LoggingConfig :=
  match fields with
  | some fields => do
    let fields ← Run.evalNamed fields
    Run.make (LoggingConfig.ofFields fields)
  | none => do
    let settings ← Run.settings
    Run.make (LoggingConfig.ofSettings settings)

/-- The log is configured. -/
def install (config : LoggingConfig) : Run Answer := do
  let s ← Run.current
  let (log, result, made) := s.log.configure config s.made
  Run.update fun s => { s with log, made }
  match result with
  | .ok () => return .log log
  | .error f => throw f

/-- The log is configured: as given, or as the settings ask for. -/
def configure (fields : Option (List (String × Expr))) : Run Answer := do
  install (← configOf fields)

/-- The log record that a record of expressions stands for. -/
def evalRecord (registers : Registers) (r : RecordExpr) : Making LogRecord := do
  let template ← r.template.eval registers
  let attached ← match r.attached with
    | none => pure Attached.nothing
    | some none => pure Attached.empty
    | some (some e) => do
      let v ← e.eval registers
      pure (Attached.fault v "")
  let args ← Expr.evalAll registers r.args
  let extras ← Expr.evalNamed registers r.extras
  return ← (LogRecord.checked
    ⟨r.logger, r.level, template, args, r.origin, extras, attached⟩ : Except Fault LogRecord)

/-- A record is logged. It is evaluated only if its logger lets it through. -/
def logRecord (r : RecordExpr) : Run Answer := do
  let s ← Run.current
  if s.log.isEnabled s.recorded r.logger r.level then
    return .enabled (← Run.emit (← Run.make (evalRecord s.registers r)))
  else return .enabled false

/-- What a step does, with its answer. -/
def act : Action → Run Answer
  | .call function on args named store => call function on args named store
  | .define value store => do
    let v ← Run.eval value
    Run.store (some store) v
    return .value v
  | .view on => do return .value (← Run.read on)
  | .attribute on name store => do
    let v ← Run.read on
    let v ← Run.make (v.attr name)
    Run.store store v
    return .value v
  | .setAttribute on name value => setAttribute on name value
  | .change on path c => change on path c
  | .compare a b hashed => compare a b hashed
  | .environment set unset => do
    Run.update fun s => { s with surroundings := (s.surroundings.unset unset).set set }
    return .nothing
  | .clearCache => do
    Run.update fun s => { s with cache := none }
    return .nothing
  | .settings => do return .settings (← Run.settings)
  | .configure fields => configure fields
  | .log record => logRecord record

/-- The register that an action works on. -/
def registerOf : Action → Option String
  | .call _ on _ _ _ => on
  | .view on => some on
  | .attribute on _ _ => some on
  | .setAttribute on _ _ => some on
  | .change on _ _ => some on
  | _ => none

/-- What is reported of a quiet step: neither its answer nor the state of a builder. -/
def quieten (r : Report) : Report :=
  { r with outcome := r.outcome.map fun _ => .nothing, state := none }

/-- The session after a step, and what is reported of the step. -/
def step (s : Session) (t : ScriptStep) : Session × Report :=
  let (outcome, progress) := (act t.action).run.run ⟨s, [], []⟩
  let s := progress.session
  let report : Report :=
    ⟨outcome, (registerOf t.action).bind s.builderIn?, progress.records, progress.output⟩
  (s, if t.quiet then quieten report else report)

/-- The sessions after some steps, each with what is reported of its step. -/
def run (s : Session) : List ScriptStep → List (Session × Report)
  | [] => []
  | t :: ts =>
    let r := s.step t
    r :: run r.1 ts

end Session

end CredentialWrites
