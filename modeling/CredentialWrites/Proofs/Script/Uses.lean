import CredentialWrites.Proofs.Script.Layout

/-!
# Actions and the registers that they use

An action reads from registers and writes to registers. Some only look at values: what they evaluate
makes objects and takes from streams, but it is stored nowhere. An action that reads what is in a
scope, and writes to registers that may hold all that is, keeps what every register may hold.

* `Action.Uses` : the registers that an action reads from and writes to.
* `Session.Layout.keeps_act` : an action that uses the registers of a layout keeps it.
-/

namespace CredentialWrites

open Making Value

/-! ### What is only looked at -/

theorem LoggingConfig.timePasses_list (vs : List Value) : TimePasses (Making.list vs) :=
  .of_yields fun s => yields_list (scope_all s.moment).toAdmits (Nat.le_refl _)
    (withinAll_of_forall (fun _ => trivial) vs)

theorem LoggingConfig.timePasses_ofFields (fields : List (String × Value)) :
    TimePasses (LoggingConfig.ofFields fields) :=
  (timePasses_list _).map

theorem LoggingConfig.timePasses_ofSettings (s : Settings) :
    TimePasses (LoggingConfig.ofSettings s) :=
  (timePasses_list _).map

theorem LoggingConfig.timePasses_lineFormat (c : LoggingConfig) : TimePasses c.lineFormat := by
  unfold lineFormat
  split
  · exact (timePasses_takeItems _).map
  · exact (timePasses_takeItems _).map

/-- Time does not go back while the log is configured. -/
theorem RootLog.moment_le_configure (log : RootLog) (c : LoggingConfig) (made : Making.State) :
    made.moment ≤ (log.configure c made).2.2.moment := by
  have hle := (c.timePasses_lineFormat made).1
  unfold configure
  split
  · rename_i heq
    rwa [heq] at hle
  · rename_i heq
    rw [heq] at hle
    split <;> exact hle

/-- What the expressions of a record mention does not matter, as long as their constants have no
objects. -/
structure RecordExpr.IsOpen (r : RecordExpr) : Prop where
  template : r.template.Over fun _ => True
  args : Expr.AllOver (fun _ => True) r.args
  extras : Expr.NamedOver (fun _ => True) r.extras
  attached : ∀ e, r.attached = some (some e) → e.Over fun _ => True

/-- An action reads from registers of a kind, but for what it only looks at, and writes to registers
of another. -/
def Action.Uses (reads writes : String → Prop) : Action → Prop
  | .call _ on args named store => Expr.AllOver reads args ∧ Expr.NamedOver reads named ∧
      (∀ x, on = some x → reads x) ∧ ∀ x, store = some x → writes x
  | .define value store => value.Over reads ∧ writes store
  | .attribute on _ store => reads on ∧ ∀ x, store = some x → writes x
  | .setAttribute on _ value => reads on ∧ value.Over reads
  | .change on path c => reads on ∧ Expr.AllOver reads path ∧ ∀ e ∈ c.exprs, e.Over reads
  | .compare a b _ => (a.Over fun _ => True) ∧ b.Over fun _ => True
  | .configure fields => ∀ es, fields = some es → Expr.NamedOver (fun _ => True) es
  | .log r => r.IsOpen
  | .view _ | .environment _ _ | .clearCache | .settings => True

theorem Action.Uses.mono {reads reads' writes writes' : String → Prop}
    (hreads : ∀ x, reads x → reads' x)
    (hwrites : ∀ x, writes x → writes' x) {a : Action} (ha : a.Uses reads writes) :
    a.Uses reads' writes' := by
  match a with
  | .call _ _ _ _ _ =>
    obtain ⟨hargs, hnamed, hon, hstore⟩ := ha
    exact ⟨hargs.mono hreads, hnamed.mono hreads, fun x hx => hreads x (hon x hx),
      fun x hx => hwrites x (hstore x hx)⟩
  | .define _ _ => exact ⟨ha.1.mono hreads, hwrites _ ha.2⟩
  | .attribute _ _ _ => exact ⟨hreads _ ha.1, fun x hx => hwrites x (ha.2 x hx)⟩
  | .setAttribute _ _ _ => exact ⟨hreads _ ha.1, ha.2.mono hreads⟩
  | .change _ _ _ => exact ⟨hreads _ ha.1, ha.2.1.mono hreads,
      fun e he => (ha.2.2 e he).mono hreads⟩
  | .compare _ _ _ | .configure _ | .log _ | .view _ | .environment _ _ | .clearCache
  | .settings => exact ha

namespace Session

variable {P : Nat → Cell → Prop} {start : Nat} {reads writes filled : String → Prop}
  {J : String → Nat → Value → Prop} {p : Progress}

theorem timePasses_evalRecord {r : RecordExpr} (hr : r.IsOpen) (registers : Registers) :
    TimePasses (evalRecord registers r) := by
  have hrest (attached : Attached) (template : Value) : TimePasses (do
      let args ← Expr.evalAll registers r.args
      let extras ← Expr.evalNamed registers r.extras
      return ← (LogRecord.checked
        ⟨r.logger, r.level, template, args, r.origin, extras, attached⟩ :
        Except Fault LogRecord)) := by
    refine (Expr.timePasses_evalAll hr.args).bind fun args => ?_
    exact (Expr.timePasses_evalNamed hr.extras).bind fun extras => timePasses_lift _
  refine (Expr.timePasses_eval hr.template).bind fun template => ?_
  split
  · exact (timePasses_pure _).bind fun attached => hrest attached template
  · exact (timePasses_pure _).bind fun attached => hrest attached template
  · rename_i e he
    refine (Expr.timePasses_eval (hr.attached e he)).bind fun v => ?_
    exact (timePasses_pure _).bind fun attached => hrest attached template

namespace Layout

variable (L : Layout P start reads writes J)

include L

/-- What is evaluated only to be looked at leaves the registers as they are. -/
theorem keeps_look {α : Type} {m : Making α} (h : Holds J filled start p.session)
    (hm : TimePasses m) : (Run.make m).Keeps p (Holds J filled start) fun _ _ => True :=
  (L.keeps_make h (hm p.session.made)).mono fun _ _ _ _ => trivial

theorem keeps_lookAt {e : Expr} (h : Holds J filled start p.session) (he : e.Over fun _ => True) :
    (Run.eval e).Keeps p (Holds J filled start) fun _ _ => True :=
  Run.keeps_eval (L.keeps_look h (Expr.timePasses_eval he))

theorem keeps_compare {a b : Expr} {hashed : Bool} (h : Holds J filled start p.session)
    (ha : a.Over fun _ => True) (hb : b.Over fun _ => True) :
    (compare a b hashed).Keeps p (Holds J filled start) fun _ _ => True := by
  refine (L.keeps_lookAt h ha).bind fun v q hq _ => ?_
  exact (L.keeps_lookAt hq hb).bind fun w r hr _ => Run.keeps_pure hr trivial

theorem keeps_configOf {fields : Option (List (String × Expr))} (h : Holds J filled start p.session)
    (hfields : ∀ es, fields = some es → Expr.NamedOver (fun _ => True) es) :
    (configOf fields).Keeps p (Holds J filled start) fun _ _ => True := by
  cases fields with
  | none =>
    refine (keeps_settings h).bind fun settings q hq _ => ?_
    exact L.keeps_look hq (LoggingConfig.timePasses_ofSettings settings)
  | some es =>
    have heval : (Run.evalNamed es).Keeps p (Holds J filled start) fun _ _ => True := by
      have hmake : TimePasses (Expr.evalNamed p.session.registers es) :=
        Expr.timePasses_evalNamed (hfields es rfl)
      refine (L.keeps_look h hmake).of_run_eq ?_
      rw [Run.evalNamed, Run.run_bind, Run.run_current]
    exact heval.bind fun fields q hq _ => L.keeps_look hq (LoggingConfig.timePasses_ofFields fields)

/-- The log is kept apart from the registers. -/
theorem keeps_configure {fields : Option (List (String × Expr))}
    (h : Holds J filled start p.session)
    (hfields : ∀ es, fields = some es → Expr.NamedOver (fun _ => True) es) :
    (configure fields).Keeps p (Holds J filled start) fun _ _ => True := by
  refine (L.keeps_configOf h hfields).bind fun config r hr _ => ?_
  refine (Run.keeps_current hr).bind fun s t ht hs => ?_
  obtain ⟨hts, rfl⟩ := hs
  have hle := r.session.log.moment_le_configure config r.session.made
  rcases hconfigure : r.session.log.configure config r.session.made with ⟨log, result, made⟩
  rw [hconfigure, ← hts] at hle
  have hlater : Holds J filled start { t.session with log, made } :=
    (L.later_holds ht hle).of_eq rfl rfl
  refine (Run.keeps_update hlater).bind fun _ u hu _ => ?_
  split
  · exact Run.keeps_pure hu trivial
  · exact Run.keeps_throw hu

theorem keeps_logRecord {r : RecordExpr} (h : Holds J filled start p.session) (hr : r.IsOpen) :
    (logRecord r).Keeps p (Holds J filled start) fun _ _ => True := by
  refine (Run.keeps_current h).bind fun s q hq hs => ?_
  split
  · refine (L.keeps_look hq (timePasses_evalRecord hr _)).bind fun record t ht _ => ?_
    exact (Run.keeps_emit ht).bind fun _ u hu _ => Run.keeps_pure hu trivial
  · exact Run.keeps_pure hq trivial

/-- **An action that uses the registers of a layout keeps it.** -/
theorem keeps_act {a : Action} (h : Holds J filled start p.session) (ha : a.Uses reads writes) :
    (act a).Keeps p (Holds J filled start) fun _ _ => True := by
  match a with
  | .call function on args named store =>
    obtain ⟨hargs, hnamed, hon, hstore⟩ := ha
    exact L.keeps_call h hargs hnamed (fun _ h => h) fun a q hq hall =>
      L.keeps_callWith hon hstore hq hall
  | .define value name =>
    refine (L.keeps_eval h ha.1).bind fun v q hq hv => ?_
    refine L.keeps_store hq hv.2 ?_
    rintro x ⟨⟩
    exact ha.2
  | .view on => exact (Run.keeps_read h).bind fun _ q hq _ => Run.keeps_pure hq trivial
  | .attribute on name store =>
    refine (L.keeps_read ha.1 h).bind fun v q hq hv => ?_
    exact (L.keeps_makeValue hq (yields_attr L.scope hq.start_le hv.2)).bind fun w r hr hw =>
      L.keeps_store hr hw ha.2
  | .setAttribute on name value => exact L.keeps_setAttribute ha.1 ha.2 h
  | .change on path c => exact L.keeps_change ha.1 ha.2.1 ha.2.2 h
  | .compare a b hashed => exact L.keeps_compare h ha.1 ha.2
  | .environment _ _ =>
    exact (Run.keeps_update (h.of_eq rfl rfl)).bind fun _ q hq _ => Run.keeps_pure hq trivial
  | .clearCache =>
    exact (Run.keeps_update (h.of_eq rfl rfl)).bind fun _ q hq _ => Run.keeps_pure hq trivial
  | .settings => exact (keeps_settings h).bind fun _ q hq _ => Run.keeps_pure hq trivial
  | .configure fields => exact L.keeps_configure h ha
  | .log r => exact L.keeps_logRecord h ha

end Layout

end Session

end CredentialWrites
