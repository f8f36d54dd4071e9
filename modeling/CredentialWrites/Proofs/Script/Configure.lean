import CredentialWrites.Proofs.Log.Line
import CredentialWrites.Proofs.Script.Likeness

/-!
# The log under configurations

A configuration finds what it is to do, makes the form of the lines, puts one handler in place of
all others, and sets the level last. Whatever came before, one that succeeds leaves exactly one
handler and the level that it asks for, and every record that a logger lets through afterwards is
written once. One that fails leaves the log as it was, unless it is only the level that it fails
over: then the new handler stays behind.

* `RootLog.configure_cases` : all that a configuration can do to the log.
* `Session.configured_log` : the log after a configuration that succeeded, and the records that
  reach it.
* `Session.log_of_refused_configuration` : the log after a configuration that failed.
-/

namespace CredentialWrites

open Making

theorem LogThreshold.part?_isSome (current other : LogThreshold) (name : String) :
    (part? current name).isSome = (part? other name).isSome := by
  unfold part?
  split
  · rfl
  · split
    · rfl
    · split
      · rfl
      · rfl

/-- A name stands for the same level whatever the log is set to. -/
theorem LogThreshold.ofName_congr {current level : LogThreshold} {name : String}
    (h : ofName current name = .ok level) (other : LogThreshold) :
    ofName other name = .ok level := by
  have hpart := part?_isSome current other name
  unfold ofName at h ⊢
  cases hrank : ranks.lookup name with
  | some i =>
    rw [hrank] at h
    exact h
  | none =>
    rw [hrank] at h
    cases htext : text? name with
    | some s =>
      rw [htext] at h
      cases h
    | none =>
      rw [htext] at h
      cases hcurrent : current.part? name with
      | some shown =>
        rw [hcurrent] at h
        cases h
      | none =>
        rw [hcurrent] at h hpart
        have hother : other.part? name = none := by simpa using hpart.symm
        rw [hother]
        exact h

namespace LoggingConfig

variable {c : LoggingConfig} {made made' : Making.State}

/-- The form of lines that a configuration asks for when it names some fields to redact. -/
def lineFormatOf (c : LoggingConfig) (redacted : List Value) : LineFormat :=
  if c.format.eq (.member (.logFormat .json)) then
    .structured c.serviceName c.includeCaller redacted
  else .console redacted

theorem lineFormat_eq (c : LoggingConfig) :
    c.lineFormat = c.lineFormatOf <$> c.redactedFields.takeItems := by
  unfold lineFormat
  split
  · rename_i hjson
    have hformat : c.lineFormatOf = .structured c.serviceName c.includeCaller := by
      funext redacted
      rw [lineFormatOf, if_pos hjson]
    rw [hformat]
    rfl
  · rename_i hconsole
    have hformat : c.lineFormatOf = .console := by
      funext redacted
      rw [lineFormatOf, if_neg hconsole]
    rw [hformat]
    rfl

theorem left?_of_gives_lineFormat {format : LineFormat} (h : c.lineFormat.Gives made format made') :
    ∃ redacted, c.redactedFields.left? made = some redacted ∧ format = c.lineFormatOf redacted := by
  rw [lineFormat_eq] at h
  obtain ⟨redacted, t, htake, hformat⟩ := gives_bind.1 h
  exact ⟨redacted, Value.left?_of_gives_takeItems htake, (gives_pure.1 hformat).1.symm⟩

theorem gives_lineFormat_again {redacted : List Value}
    (h : c.redactedFields.left? made = some redacted)
    (hstream : ∀ cell items, c.redactedFields ≠ .stream cell items) (again : Making.State) :
    c.lineFormat.Gives again (c.lineFormatOf redacted) again := by
  rw [lineFormat_eq]
  exact gives_bind.2 ⟨redacted, again, Value.gives_takeItems_again h hstream again, rfl⟩

theorem threshold_congr {current level : LogThreshold} (h : c.threshold current = .ok level)
    (other : LogThreshold) : c.threshold other = .ok level := by
  unfold threshold at h ⊢
  obtain ⟨name, hname, h⟩ := Except.bind_eq_ok.1 h
  refine Except.bind_eq_ok.2 ⟨name, hname, ?_⟩
  cases htext : name.text? with
  | none =>
    rw [htext] at h
    cases h
  | some s =>
    rw [htext] at h
    exact LogThreshold.ofName_congr h other

/-- A level of the vocabulary is known to every log. -/
theorem threshold_of_logLevel {l : LogLevel} (h : c.level = .member (.logLevel l))
    (current : LogThreshold) : c.threshold current = .ok (.rank l.rank) := by
  unfold threshold
  rw [h]
  exact LogThreshold.ofName_token current l

end LoggingConfig

namespace RootLog

variable {log log' : RootLog} {c : LoggingConfig} {made made' : Making.State} {f : Fault}

/-- **All that a configuration can do to the log.** It fails over the form of the lines and does
nothing, or it puts its handler in place of the others; then it fails over the level, or sets it. -/
theorem configure_cases (log : RootLog) (c : LoggingConfig) (made : Making.State) :
    (∃ f made', c.redactedFields.left? made = none ∧
      log.configure c made = (log, .error f, made')) ∨
    (∃ redacted f made', c.redactedFields.left? made = some redacted ∧
      c.threshold log.level = .error f ∧
      log.configure c made =
        ({ log with handlers := [.lines (c.lineFormatOf redacted)] }, .error f, made')) ∨
    (∃ redacted level made', c.redactedFields.left? made = some redacted ∧
      c.threshold log.level = .ok level ∧
      log.configure c made =
        ({ log with level, handlers := [.lines (c.lineFormatOf redacted)] }, .ok (), made')) := by
  unfold configure
  rcases gives_or_fails c.lineFormat made with ⟨format, made', hgives⟩ | ⟨f, made', hfails⟩
  · obtain ⟨redacted, hleft, rfl⟩ := LoggingConfig.left?_of_gives_lineFormat hgives
    have hrun : (c.lineFormat made : Except Fault LineFormat × Making.State) =
        (.ok (c.lineFormatOf redacted), made') := hgives
    rw [hrun]
    cases hlevel : c.threshold log.level with
    | error f => exact .inr (.inl ⟨redacted, f, made', hleft, rfl, rfl⟩)
    | ok level => exact .inr (.inr ⟨redacted, level, made', hleft, rfl, rfl⟩)
  · have hrun : (c.lineFormat made : Except Fault LineFormat × Making.State) = (.error f, made') :=
      hfails
    rw [hrun]
    refine .inl ⟨f, made', ?_, rfl⟩
    -- the form of the lines is refused only if there are no items to take
    rw [LoggingConfig.lineFormat_eq] at hfails
    rcases fails_bind.1 hfails with htake | ⟨_, _, -, hpure⟩
    · exact (Value.fails_forEach (fun _ _ _ _ => not_fails_pure) htake).1
    · exact absurd hpure not_fails_pure

/-- A configuration that succeeded does nothing new if it is made again, unless it names the fields
to redact by a stream, which is used up by then. -/
theorem configure_again {redacted : List Value} {level : LogThreshold}
    (hleft : c.redactedFields.left? made = some redacted)
    (hlevel : c.threshold log.level = .ok level)
    (hstream : ∀ cell items, c.redactedFields ≠ .stream cell items) (other : RootLog)
    (again : Making.State) :
    other.configure c again =
      ({ other with level, handlers := [.lines (c.lineFormatOf redacted)] }, .ok (), again) := by
  have hrun : (c.lineFormat again : Except Fault LineFormat × Making.State) =
      (.ok (c.lineFormatOf redacted), again) :=
      LoggingConfig.gives_lineFormat_again hleft hstream again
  unfold configure
  rw [hrun]
  dsimp only
  rw [LoggingConfig.threshold_congr hlevel other.level]
  rfl

end RootLog

/-! ### The configuration of the settings -/

/-- The fields that settings ask to redact. -/
def LoggingConfig.redactedBySettings (x : Settings) : List Value :=
  if x.redactValues then redactedByDefault else []

theorem LoggingConfig.eq_of_gives_ofSettings {x : Settings} {c : LoggingConfig}
    {made made' : Making.State} (h : (ofSettings x).Gives made c made') :
    ∃ cell, c = ⟨.member (.logLevel (levelOf x.logLevel)),
      .member (.logFormat (formatOf x.logFormat)), .bool x.includeCaller, .text x.serviceName,
      .list cell (redactedBySettings x)⟩ := by
  obtain ⟨redacted, t, hlist, hconfig⟩ := gives_bind.1 h
  obtain ⟨cell, rfl⟩ := eq_of_gives_list hlist
  exact ⟨cell, (gives_pure.1 hconfig).1.symm⟩

/-- The form of the lines that settings ask for. -/
def LineFormat.ofSettings (x : Settings) : LineFormat :=
  match LoggingConfig.formatOf x.logFormat with
  | .json => .structured (.text x.serviceName) (.bool x.includeCaller)
      (LoggingConfig.redactedBySettings x)
  | .console => .console (LoggingConfig.redactedBySettings x)

/-- The log with the level and the handler that settings ask for. -/
def RootLog.withSettings (log : RootLog) (x : Settings) : RootLog :=
  { log with
    level := .rank (LoggingConfig.levelOf x.logLevel).rank
    handlers := [.lines (.ofSettings x)] }

/-- The configuration that settings ask for never fails, and does the same to every log. -/
theorem RootLog.configure_ofSettings {x : Settings} {c : LoggingConfig} {made made' : Making.State}
    (h : (LoggingConfig.ofSettings x).Gives made c made') (log : RootLog) (again : Making.State) :
    log.configure c again = (log.withSettings x, .ok (), again) := by
  obtain ⟨cell, rfl⟩ := LoggingConfig.eq_of_gives_ofSettings h
  have hlevel := LoggingConfig.threshold_of_logLevel (l := LoggingConfig.levelOf x.logLevel)
    (c := ⟨.member (.logLevel (LoggingConfig.levelOf x.logLevel)), .member (.logFormat
      (LoggingConfig.formatOf x.logFormat)), .bool x.includeCaller, .text x.serviceName,
      .list cell (LoggingConfig.redactedBySettings x)⟩) rfl log.level
  have hleft : Value.left? (.list cell (LoggingConfig.redactedBySettings x)) again =
      some (LoggingConfig.redactedBySettings x) := rfl
  rw [configure_again hleft hlevel (fun _ _ h => nomatch h)]
  unfold withSettings LineFormat.ofSettings LoggingConfig.lineFormatOf
  cases LoggingConfig.formatOf x.logFormat with
  | json => rfl
  | console => rfl

namespace Session

/-! ### Looking the settings up -/

/-- The settings that a look at them finds, and what is kept of them afterwards. -/
def lookUp (s : Session) : Except Fault Settings × SettingsCache :=
  SettingsCache.get s.cache s.surroundings

namespace Run

/-- A record of another logger than the library's is handed over without a failure. -/
theorem run_emit_of_foreign {r : LogRecord} (hr : RootLog.ofLibrary r.logger = false)
    (p : Progress) : ∃ b text, emit r p = (.ok b, { p with output := p.output ++ text }) := by
  rw [run_emit, hr, Bool.and_false]
  by_cases henabled : p.session.log.isEnabled p.session.recorded r.logger r.level
  · rw [if_pos henabled]
    exact ⟨true, _, rfl⟩
  · rw [if_neg henabled]
    exact ⟨false, [], by rw [List.append_nil]⟩

theorem run_emitAll_of_foreign {rs : List LogRecord}
    (hrs : ∀ r ∈ rs, RootLog.ofLibrary r.logger = false) (p : Progress) :
    ∃ text, (rs.forM fun r => discard (emit r)) p =
      (.ok (), { p with output := p.output ++ text }) := by
  induction rs generalizing p with
  | nil => exact ⟨[], by rw [List.append_nil]; rfl⟩
  | cons r rs ih =>
    rw [List.forall_mem_cons] at hrs
    obtain ⟨b, first, hfirst⟩ := run_emit_of_foreign hrs.1 p
    obtain ⟨rest, hrest⟩ := ih hrs.2 { p with output := p.output ++ first }
    refine ⟨first ++ rest, ?_⟩
    change (discard (emit r) >>= fun _ => rs.forM fun r => discard (emit r)) p = _
    have hdiscard : (discard (emit r) : Run Unit) p =
        (.ok (), { p with output := p.output ++ first }) := by
      change (emit r >>= fun _ => pure ()) p = _
      rw [run_bind, hfirst]
      rfl
    rw [run_bind, hdiscard]
    dsimp only
    rw [hrest, List.append_assoc]

/-- A look at the settings changes what is kept of them, and may leave warnings on the output. -/
theorem run_settings (p : Progress) :
    ∃ text, Run.settings p = (p.session.lookUp.1, { p with
      session := { p.session with cache := p.session.lookUp.2 }
      output := p.output ++ text }) := by
  have hwarnings : ∀ r ∈ p.session.surroundings.warnings, RootLog.ofLibrary r.logger = false := by
    intro r hr
    obtain ⟨line, -, rfl⟩ := List.mem_map.1 hr
    rfl
  rw [settings, run_bind, run_current]
  dsimp only
  by_cases hnone : p.session.cache.isNone
  · rw [if_pos hnone]
    obtain ⟨text, htext⟩ := run_emitAll_of_foreign hwarnings p
    refine ⟨text, ?_⟩
    rw [run_bind, htext, lookUp]
    rcases SettingsCache.get p.session.cache p.session.surroundings with ⟨f | x, cache⟩
    · rfl
    · rfl
  · rw [if_neg hnone]
    refine ⟨[], ?_⟩
    rw [List.append_nil, lookUp]
    rcases SettingsCache.get p.session.cache p.session.surroundings with ⟨f | x, cache⟩
    · rfl
    · rfl

/-- An installation is a configuration of the log. -/
theorem run_install (config : LoggingConfig) (p : Progress) :
    install config p = match p.session.log.configure config p.session.made with
      | (log, .ok (), made) => (.ok (.log log), { p with session := { p.session with log, made } })
      | (log, .error f, made) => (.error f,
          { p with session := { p.session with log, made } }) := by
  rw [install, run_bind, run_current]
  dsimp only
  rcases p.session.log.configure config p.session.made with ⟨log, result, made⟩
  cases result with
  | ok _ => rfl
  | error f => rfl

end Run

/-- Without a configuration the log becomes the one that the settings ask for, or the step fails
with them. -/
theorem act_configure_none (p : Progress) :
    ∃ text made, act (.configure none) p = match p.session.lookUp with
      | (.ok x, cache) => (.ok (.log (p.session.log.withSettings x)), { p with
          session := { p.session with cache, made, log := p.session.log.withSettings x }
          output := p.output ++ text })
      | (.error f, cache) => (.error f, { p with
          session := { p.session with cache }
          output := p.output ++ text }) := by
  obtain ⟨text, htext⟩ := Run.run_settings p
  have hgives (x : Settings) : ∃ c made',
      (LoggingConfig.ofSettings x).Gives p.session.made c made' :=
    ⟨_, _, rfl⟩
  change ∃ text made,
      ((Run.settings >>= fun x => Run.make (LoggingConfig.ofSettings x)) >>= install) p = _
  rcases hlook : p.session.lookUp with ⟨f | x, cache⟩
  · refine ⟨text, p.session.made, ?_⟩
    rw [Run.run_bind, Run.run_bind, htext, hlook]
  · obtain ⟨c, made', hc⟩ := hgives x
    have hmake : (LoggingConfig.ofSettings x p.session.made :
        Except Fault LoggingConfig × Making.State) = (.ok c, made') := hc
    refine ⟨text, made', ?_⟩
    rw [Run.run_bind, Run.run_bind, htext, hlook]
    dsimp only
    rw [Run.run_make]
    dsimp only
    rw [hmake]
    dsimp only
    rw [Run.run_install]
    dsimp only
    rw [RootLog.configure_ofSettings hc]

/-! ### Records that reach the log -/

/-- What a record comes to on the output of a session whose handler writes lines of a form. -/
def written (s : Session) (format : LineFormat) (r : LogRecord) : List CodePoint :=
  if s.log.isEnabled s.recorded r.logger r.level then (LogHandler.lines format).write s.now r
  else []

/-- A record with a line has a message. -/
theorem message_of_write {format : LineFormat} {now : Clock} {r : LogRecord} {line : List CodePoint}
    (h : format.write now r = .ok line) : ∃ w, r.message = .ok w := by
  cases format with
  | structured service caller redacted =>
    obtain ⟨j, hj, -⟩ := LineFormat.write_structured_eq_ok_iff.1 h
    obtain ⟨message, _, _, _, hmessage, -⟩ := LineFormat.structuredDocument_eq_ok_iff.1 hj
    exact ⟨message, hmessage⟩
  | console redacted =>
    simp only [LineFormat.write, LineFormat.consoleText, Except.bind_eq_ok] at h
    obtain ⟨_, -, _, -, message, hmessage, -⟩ := h
    exact ⟨message, hmessage⟩

/-- A record is written once by the handler, if its logger lets it through and it can be written. -/
theorem output_emit {format : LineFormat} {p : Progress}
    (h : p.session.log.handlers = [.lines format]) (r : LogRecord) :
    (Run.emit r p).2.output = p.output ++ p.session.written format r := by
  have hwrite : p.session.log.write p.session.now r =
      (LogHandler.lines format).write p.session.now r := by
    rw [RootLog.write, h]
    simp
  rw [Run.run_emit, hwrite, written]
  by_cases henabled : p.session.log.isEnabled p.session.recorded r.logger r.level
  · rw [if_pos henabled, if_pos henabled]
    split
    · cases hmessage : r.message with
      | ok w => rfl
      | error f =>
        -- without a message there is no line either
        have hnone : (LogHandler.lines format).write p.session.now r = [] := by
          unfold LogHandler.write
          dsimp only
          split
          · rename_i line hline
            obtain ⟨w, hw⟩ := message_of_write hline
            rw [hmessage] at hw
            cases hw
          · rfl
        rw [hnone, List.append_nil]
    · rfl
  · rw [if_neg henabled, if_neg henabled, List.append_nil]

/-- A record of expressions has the logger and the level that they name. -/
theorem named_of_gives_evalRecord {registers : Registers} {r : RecordExpr} {record : LogRecord}
    {made made' : Making.State} (h : (evalRecord registers r).Gives made record made') :
    record.logger = r.logger ∧ record.level = r.level := by
  have hchecked {r' : LogRecord} (h : LogRecord.checked r' = .ok record) : r' = record := by
    unfold LogRecord.checked at h
    split at h
    · cases h
    · exact Except.ok.inj h
  have hrest {template : Value} {attached : Attached} {s : Making.State} (h : (do
      let args ← Expr.evalAll registers r.args
      let extras ← Expr.evalNamed registers r.extras
      return ← (LogRecord.checked
        ⟨r.logger, r.level, template, args, r.origin, extras, attached⟩ :
        Except Fault LogRecord)).Gives
          s record made') : record.logger = r.logger ∧ record.level = r.level := by
    obtain ⟨args, _, -, h⟩ := gives_bind.1 h
    obtain ⟨extras, _, -, h⟩ := gives_bind.1 h
    rw [← hchecked (gives_lift.1 h).1]
    exact ⟨rfl, rfl⟩
  obtain ⟨template, _, -, h⟩ := gives_bind.1 h
  dsimp only at h
  split at h
  · obtain ⟨_, _, -, h⟩ := gives_bind.1 h
    exact hrest h
  · obtain ⟨_, _, -, h⟩ := gives_bind.1 h
    exact hrest h
  · obtain ⟨_, _, -, h⟩ := gives_bind.1 h
    obtain ⟨_, _, -, h⟩ := gives_bind.1 h
    exact hrest h

/-- What a step writes that logs a record. -/
theorem output_log_step {format : LineFormat} {s : Session} (h : s.log.handlers = [.lines format])
    {r : RecordExpr} {record : LogRecord} {made' : Making.State}
    (hrecord : (evalRecord s.registers r).Gives s.made record made') (quiet : Bool) :
    (s.step ⟨.log r, quiet⟩).2.output = s.written format record := by
  obtain ⟨hlogger, hlevel⟩ := named_of_gives_evalRecord hrecord
  have hmake : (evalRecord s.registers r s.made : Except Fault LogRecord × Making.State) =
      (.ok record, made') :=
    hrecord
  rcases hact : (act (.log r) ⟨s, [], []⟩ : Except Fault Answer × Progress) with ⟨result, q⟩
  obtain ⟨-, -, -, houtput⟩ := step_of_act (t := ⟨.log r, quiet⟩) hact
  rw [houtput]
  change logRecord r ⟨s, [], []⟩ = _ at hact
  rw [logRecord, Run.run_bind, Run.run_current] at hact
  dsimp only at hact
  by_cases henabled : s.log.isEnabled s.recorded r.logger r.level
  · rw [if_pos henabled, Run.run_bind, Run.run_make] at hact
    dsimp only at hact
    rw [hmake] at hact
    dsimp only at hact
    rw [Run.run_bind] at hact
    have hemit := output_emit (p := ⟨{ s with made := made' }, [], []⟩) h record
    rw [List.nil_append] at hemit
    rcases hrun : (Run.emit record ⟨{ s with made := made' }, [], []⟩ :
      Except Fault Bool × Progress) with
      ⟨f | b, q'⟩
    · rw [hrun] at hact hemit
      cases hact
      exact hemit
    · rw [hrun] at hact hemit
      cases hact
      exact hemit
  · rw [if_neg henabled] at hact
    cases hact
    rw [written, hlogger, hlevel, if_neg henabled]

/-! ### Configurations as steps -/

/-- **All that a step can do to the log that configures it.** -/
theorem configure_step_cases (s : Session) (fields : Option (List (String × Expr))) (quiet : Bool) :
    ((∃ f, (s.step ⟨.configure fields, quiet⟩).2.outcome = .error f) ∧
      (s.step ⟨.configure fields, quiet⟩).1.log = s.log) ∨
    ∃ config p redacted,
      @Eq (Except Fault LoggingConfig × Progress) (configOf fields ⟨s, [], []⟩) (.ok config, p) ∧
      config.redactedFields.left? p.session.made = some redacted ∧
      ((∃ f, config.threshold s.log.level = .error f ∧
        (s.step ⟨.configure fields, quiet⟩).2.outcome = .error f ∧
        (s.step ⟨.configure fields, quiet⟩).1.log =
          { s.log with handlers := [.lines (config.lineFormatOf redacted)] }) ∨
      ∃ level, config.threshold s.log.level = .ok level ∧
        (∃ a, (s.step ⟨.configure fields, quiet⟩).2.outcome = .ok a) ∧
        (s.step ⟨.configure fields, quiet⟩).1.log =
          { s.log with level, handlers := [.lines (config.lineFormatOf redacted)] }) := by
  have hlogs := logsAlike_configOf fields ⟨s, [], []⟩
  rcases hconfig : (configOf fields ⟨s, [], []⟩ : Except Fault LoggingConfig × Progress) with
    ⟨f | config, p⟩
  · rw [hconfig] at hlogs
    have hrun : @Eq (Except Fault Answer × Progress) (configure fields ⟨s, [], []⟩)
        (.error f, p) := by
      rw [configure, Run.run_bind, hconfig]
    obtain ⟨hsession, houtcome⟩ := step_of_act_error (t := ⟨.configure fields, quiet⟩) hrun
    exact .inl ⟨⟨f, houtcome⟩, hsession ▸ hlogs.log⟩
  · rw [hconfig] at hlogs
    have hlog : p.session.log = s.log := hlogs.log
    have hrun : @Eq (Except Fault Answer × Progress) (configure fields ⟨s, [], []⟩)
        (install config p) := by
      rw [configure, Run.run_bind, hconfig]
    rw [Run.run_install] at hrun
    obtain ⟨f, made', -, hcase⟩ | ⟨redacted, f, made', hleft, hlevel, hcase⟩ |
        ⟨redacted, level, made', hleft, hlevel, hcase⟩ :=
      RootLog.configure_cases p.session.log config p.session.made
    · rw [hcase] at hrun
      obtain ⟨hsession, houtcome⟩ := step_of_act_error (t := ⟨.configure fields, quiet⟩) hrun
      exact .inl ⟨⟨f, houtcome⟩, by rw [hsession, hlog]⟩
    · rw [hcase] at hrun
      obtain ⟨hsession, houtcome⟩ := step_of_act_error (t := ⟨.configure fields, quiet⟩) hrun
      rw [hlog] at hlevel
      exact .inr ⟨config, p, redacted, rfl, hleft,
        .inl ⟨f, hlevel, houtcome, by rw [hsession, hlog]⟩⟩
    · rw [hcase] at hrun
      obtain ⟨hsession, houtcome⟩ := step_of_act_ok (t := ⟨.configure fields, quiet⟩) hrun
      rw [hlog] at hlevel
      exact .inr ⟨config, p, redacted, rfl, hleft,
        .inr ⟨level, hlevel, houtcome, by rw [hsession, ← hlog]⟩⟩

/-- The log of a session is the one of a configuration: it has one handler, which writes lines of
the form that the configuration asks for with some fields to redact, and the level that it asks
for. -/
structure ConfiguredBy (s : Session) (config : LoggingConfig) (redacted : List Value) : Prop where
  handlers : s.log.handlers = [.lines (config.lineFormatOf redacted)]
  level : ∀ current, config.threshold current = .ok s.log.level

theorem ConfiguredBy.of_logsAlike {s s' : Session} {config : LoggingConfig} {redacted : List Value}
    (h : s.ConfiguredBy config redacted) (hlogs : LogsAlike s' s) :
    s'.ConfiguredBy config redacted :=
  ⟨hlogs.log ▸ h.handlers, hlogs.log ▸ h.level⟩

/-- Without a configuration the log becomes the one that the settings ask for, if they are found,
and stays what it was otherwise. -/
theorem step_configure_none (s : Session) (quiet : Bool) :
    (∀ x, s.lookUp.1 = .ok x → (s.step ⟨.configure none, quiet⟩).1.log = s.log.withSettings x) ∧
      (∀ f, s.lookUp.1 = .error f → (s.step ⟨.configure none, quiet⟩).1.log = s.log) ∧
      (s.step ⟨.configure none, quiet⟩).1.cache = s.lookUp.2 ∧
      (s.step ⟨.configure none, quiet⟩).2.outcome.map (fun _ => ()) =
        s.lookUp.1.map fun _ => () := by
  obtain ⟨text, made, hact⟩ := act_configure_none ⟨s, [], []⟩
  dsimp only at hact
  rcases hlook : s.lookUp with ⟨f | x, cache⟩
  · rw [hlook] at hact
    obtain ⟨hsession, houtcome, -⟩ := step_of_act (t := ⟨.configure none, quiet⟩) hact
    rw [hsession]
    exact ⟨nofun, fun _ _ => rfl, rfl, houtcome⟩
  · rw [hlook] at hact
    obtain ⟨hsession, houtcome, -⟩ := step_of_act (t := ⟨.configure none, quiet⟩) hact
    rw [hsession]
    refine ⟨?_, nofun, rfl, houtcome⟩
    rintro y ⟨⟩
    rfl

/-- What was found is kept, and found again. -/
theorem lookUp_again {s s' : Session} {x : Settings} (h : s.lookUp.1 = .ok x)
    (hcache : s'.cache = s.lookUp.2) : s'.lookUp.1 = .ok x := by
  have hkept : s.lookUp.2 = some x := by
    unfold lookUp SettingsCache.get at h ⊢
    split at h
    · cases h
      rfl
    · split at h
      · cases h
        rfl
      · cases h
  rw [lookUp, hcache, hkept]
  rfl

/-- Without a configuration, the log is the same after a second time. -/
theorem configure_none_again {s : Session} {quiet : Bool} {a : Answer}
    (hok : (s.step ⟨.configure none, quiet⟩).2.outcome = .ok a) (quiet' : Bool) :
    ((s.step ⟨.configure none, quiet⟩).1.step ⟨.configure none, quiet'⟩).1.log =
      (s.step ⟨.configure none, quiet⟩).1.log := by
  obtain ⟨hlog, -, hcache, houtcome⟩ := step_configure_none s quiet
  rw [hok] at houtcome
  cases hlook : s.lookUp.1 with
  | error f =>
    rw [hlook] at houtcome
    cases houtcome
  | ok x =>
    rw [(step_configure_none _ quiet').1 x (lookUp_again hlook hcache), hlog x hlook]
    rfl

/-- **The log after a configuration that succeeded**, whatever was done before and as long as no
other comes after it: it has one handler, with what the configuration says, and the level that it
says. Every record is written once from then on, if its logger lets it through and it can be
written. The same configuration again changes nothing, unless it has a stream of fields to
redact. -/
theorem configured_log {s : Session} {before after : List ScriptStep}
    {fields : Option (List (String × Expr))} {quiet : Bool} {a : Answer}
    (hok : ((s.after before).step ⟨.configure fields, quiet⟩).2.outcome = .ok a)
    (hafter : ∀ t ∈ after, ∀ fields, t.action ≠ .configure fields) :
    ∃ config p redacted,
      @Eq (Except Fault LoggingConfig × Progress) (configOf fields ⟨s.after before, [], []⟩)
        (.ok config, p) ∧
      config.redactedFields.left? p.session.made = some redacted ∧
      let now := s.after (before ++ ⟨.configure fields, quiet⟩ :: after)
      now.ConfiguredBy config redacted ∧
      (∀ r q, LogsAlike q.session now →
        (Run.emit r q).2.output = q.output ++ now.written (config.lineFormatOf redacted) r) ∧
      (∀ r record made quiet, (evalRecord now.registers r).Gives now.made record made →
        (now.step ⟨.log r, quiet⟩).2.output = now.written (config.lineFormatOf redacted) record) ∧
      ((∀ cell items, config.redactedFields ≠ .stream cell items) →
        ∀ made, now.log.configure config made = (now.log, .ok (), made)) ∧
      (fields = none → ∀ quiet', (((s.after before).step ⟨.configure none, quiet⟩).1.step
        ⟨.configure none, quiet'⟩).1.log = now.log) := by
  have hnow : s.after (before ++ ⟨.configure fields, quiet⟩ :: after) =
      ((s.after before).step ⟨.configure fields, quiet⟩).1.after after := by
    simp [Session.after, List.foldl_append]
  have hkept := logsAlike_after (s := ((s.after before).step ⟨.configure fields, quiet⟩).1) hafter
  obtain ⟨⟨f, hf⟩, -⟩ |
      ⟨config, p, redacted, hconfig, hleft, ⟨f, -, hf, -⟩ | ⟨level, hlevel, -, hlog⟩⟩ :=
    configure_step_cases (s.after before) fields quiet
  · rw [hok] at hf
    cases hf
  · rw [hok] at hf
    cases hf
  refine ⟨config, p, redacted, hconfig, hleft, ?_⟩
  have hconfigured :
      (s.after (before ++ ⟨.configure fields, quiet⟩ :: after)).ConfiguredBy config redacted := by
    rw [hnow]
    refine ConfiguredBy.of_logsAlike ⟨?_, ?_⟩ hkept
    · rw [hlog]
    · rw [hlog]
      exact LoggingConfig.threshold_congr hlevel
  generalize hlast : s.after (before ++ ⟨.configure fields, quiet⟩ :: after) = now
  at hnow hconfigured
  refine ⟨hconfigured, fun r q hq => ?_, fun r record made quiet hr => ?_,
    fun hstream made => ?_, ?_⟩
  · have hwritten : q.session.written (config.lineFormatOf redacted) r =
        now.written (config.lineFormatOf redacted) r := by
      rw [written, written, hq.log, hq.now, hq.recorded]
    rw [← hwritten]
    exact output_emit (hq.log ▸ hconfigured.handlers) r
  · exact output_log_step hconfigured.handlers hr quiet
  · have hagain := RootLog.configure_again hleft (hconfigured.level now.log.level) hstream
      now.log made
    rw [hagain, ← hconfigured.handlers]
  · rintro rfl quiet'
    rw [configure_none_again hok, hnow, hkept.log]

/-- A session at its start, without variables and without a file. -/
def plainStart : Session :=
  .start ⟨[], none⟩ ⟨2024, 1, 2, 3, 4, 5, 0⟩ true

/-- A step that asks for a configuration with some fields. -/
def configureWith (fields : List (String × Expr)) : ScriptStep :=
  ⟨.configure (some fields), false⟩

/-- A level that is none is refused, the next configuration succeeds, and the settings that cannot
be loaded afterwards do not matter to the log. -/
theorem configured_log_after_refusal : ∃ config p redacted,
    @Eq (Except Fault LoggingConfig × Progress)
      (configOf (some [("service_name", .constant (.text "vault"))])
        ⟨plainStart.after [configureWith [("level", .constant (.text "INFO"))]], [], []⟩)
          (.ok config, p) ∧
    config.redactedFields.left? p.session.made = some redacted ∧
    let now := plainStart.after ([configureWith [("level", .constant (.text "INFO"))]] ++
      configureWith [("service_name", .constant (.text "vault"))] ::
      [⟨.environment [("CREDHUB_JSON_INDENT", "two")] [], false⟩, ⟨.settings, false⟩])
    now.ConfiguredBy config redacted := by
  have hok : ∃ a, ((plainStart.after [configureWith [("level", .constant (.text "INFO"))]]).step
      (configureWith [("service_name", .constant (.text "vault"))])).2.outcome = .ok a := ⟨_, rfl⟩
  obtain ⟨a, ha⟩ := hok
  have hafter : ∀ t ∈ ([⟨.environment [("CREDHUB_JSON_INDENT", "two")] [], false⟩,
    ⟨.settings, false⟩] :
      List ScriptStep), ∀ fields, t.action ≠ .configure fields := by
    simp
  obtain ⟨config, p, redacted, hconfig, hleft, hnow, -⟩ := configured_log ha hafter
  exact ⟨config, p, redacted, hconfig, hleft, hnow⟩

/-- The items of a stream are gone when the same configuration is used for a second time. -/
theorem configured_twice_with_stream :
    let s := plainStart.after [⟨.define (.stream [.constant (.text "value")]) "fields", false⟩]
    let fields := [("redacted_fields", Expr.register "fields")]
    let once := s.step (configureWith fields)
    let twice := once.1.step (configureWith fields)
    (configOf (some fields) ⟨once.1, [], []⟩).1 = (configOf (some fields) ⟨s, [], []⟩).1 ∧
      once.2.outcome.isOk ∧ twice.2.outcome.isOk ∧
      once.1.log.handler.map LineFormat.redacted ≠ twice.1.log.handler.map LineFormat.redacted := by
  refine ⟨rfl, rfl, rfl, ?_⟩
  change some [Value.text "value"] ≠ some []
  simp

/-- **The log after a configuration that failed.** Its level is the one that it was set to. It has
the handlers that it had, if the configuration came from the settings or has a level of the
vocabulary; otherwise the configuration may have failed only over its level, and then its handler is
in place of the others. -/
theorem log_of_refused_configuration {s : Session} {fields : Option (List (String × Expr))}
    {quiet : Bool} {f : Fault}
    (hrefused : (s.step ⟨.configure fields, quiet⟩).2.outcome = .error f) :
    let log := (s.step ⟨.configure fields, quiet⟩).1.log
    log.level = s.log.level ∧
    (fields = none → log = s.log) ∧
    (∀ config p, @Eq (Except Fault LoggingConfig × Progress) (configOf fields ⟨s, [], []⟩)
      (.ok config, p) →
      (∃ l, config.level = .member (.logLevel l)) → log = s.log) ∧
    (log = s.log ∨ ∃ config p redacted,
      @Eq (Except Fault LoggingConfig × Progress) (configOf fields ⟨s, [], []⟩) (.ok config, p) ∧
      config.redactedFields.left? p.session.made = some redacted ∧
      config.threshold s.log.level = .error f ∧
      log = { s.log with handlers := [.lines (config.lineFormatOf redacted)] }) := by
  have hnone : fields = none → (s.step ⟨.configure fields, quiet⟩).1.log = s.log := by
    rintro rfl
    obtain ⟨-, hlog, -, houtcome⟩ := step_configure_none s quiet
    rw [hrefused] at houtcome
    cases hlook : s.lookUp.1 with
    | error g => exact hlog g hlook
    | ok x =>
      rw [hlook] at houtcome
      cases houtcome
  obtain ⟨-, hlog⟩ |
      ⟨config, p, redacted, hconfig, hleft, ⟨g, hlevel, hg, hlog⟩ | ⟨_, -, ⟨a, ha⟩, -⟩⟩ :=
    configure_step_cases s fields quiet
  · exact ⟨by rw [hlog], hnone, fun _ _ _ _ => hlog, .inl hlog⟩
  · obtain rfl : g = f := Except.error.inj (hg.symm.trans hrefused)
    refine ⟨by rw [hlog], hnone, fun config' p' hconfig' hmember => ?_,
      .inr ⟨config, p, redacted, hconfig, hleft, hlevel, hlog⟩⟩
    -- a level of the vocabulary is not what it failed over
    obtain ⟨l, hl⟩ := hmember
    rw [hconfig] at hconfig'
    cases hconfig'
    rw [LoggingConfig.threshold_of_logLevel hl] at hlevel
    cases hlevel
  · rw [ha] at hrefused
    cases hrefused

/-- Fields to redact that are none leave the handler of the configuration before. -/
theorem log_of_refused_fields :
    let s := plainStart.after [configureWith []]
    (s.step (configureWith [("redacted_fields", .constant (.int 5))])).1.log = s.log := by
  have hrefused : ∃ f, ((plainStart.after [configureWith []]).step
      (configureWith [("redacted_fields", .constant (.int 5))])).2.outcome = .error f := ⟨_, rfl⟩
  obtain ⟨f, hf⟩ := hrefused
  exact (log_of_refused_configuration hf).2.2.1 _ _ rfl ⟨.info, rfl⟩

/-- The name of a level is no level, and the handler for it stays behind. -/
theorem handler_left_by_level_name :
    let r := plainStart.step (configureWith [("level", .constant (.text "INFO"))])
    (∃ f, r.2.outcome = .error f) ∧ r.1.log.handlers.length ≠ plainStart.log.handlers.length :=
  ⟨⟨_, rfl⟩, by decide⟩

end Session

end CredentialWrites
