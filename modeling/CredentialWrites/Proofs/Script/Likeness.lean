import CredentialWrites.Proofs.Request.InSession
import CredentialWrites.Proofs.Script.Agree
import CredentialWrites.Proofs.Script.Layout

/-!
# Actions in sessions that are alike

An action works on the registers, on what was made and on what the log lets through. In two sessions
that have these in common it does the same, gives the same and leaves the same behind, whatever else
the sessions hold. Only what a session knows of the settings is looked at by some actions and not by
others: those use the settings which load them, configure the log without being told how, or write a
request down without being given an indentation.

* `Session.Likeness` : a relation of sessions that have in common what actions work on.
* `Session.usesSettings` : the actions that use the settings.
* `Session.Likeness.agree_act` : an action in two sessions that are alike.
* `Session.property_step` : what a step may change.
* `Session.logsAlike_after`, `Session.surroundings_step` : what only a configuration and a change of
  the environment change.
-/

namespace CredentialWrites

namespace Session

/-! ### One record -/

/-- What is left behind by a record that is handed to its logger. -/
theorem Run.run_emit (r : LogRecord) (p : Progress) :
    Run.emit r p =
      if p.session.log.isEnabled p.session.recorded r.logger r.level then
        if p.session.recorded && RootLog.ofLibrary r.logger then
          match r.message with
          | .ok _ => (.ok true, { p with
              records := p.records ++ [r]
              output := p.output ++ p.session.log.write p.session.now r })
          | .error f => (.error f, p)
        else (.ok true, { p with output := p.output ++ p.session.log.write p.session.now r })
      else (.ok false, p) := by
  rw [Run.emit, Run.run_bind, Run.run_current]
  dsimp only
  split
  · split
    · cases r.message <;> rfl
    · rfl
  · rfl

/-! ### What uses the settings -/

/-- The arguments of a call, and what was made and taken when they are there. -/
def argumentsOf (s : Session) (args : List Expr) (named : List (String × Expr)) :
    Making Function.Arguments := do
  let byPlace ← Expr.evalAll s.registers args
  let byName ← Expr.evalNamed s.registers named
  return ⟨byPlace, byName⟩

/-- A method looks at the settings: a request is written down, and no indentation is given. -/
def looksUp (v : Value) (method : String) (a : Function.Arguments) : Bool :=
  match v, method, a.arg 0 "indent" with
  | .record .request _, "to_json", .null => true
  | _, _, _ => false

/-- An action uses the settings in a session. -/
def usesSettings (s : Session) : Action → Bool
  | .settings => true
  | .configure none => true
  | .call function (some on) args named _ =>
    match s.registers.lookup on, (s.argumentsOf args named s.made :
      Except Fault _ × Making.State) with
    | some v, (.ok a, _) => looksUp v function a
    | _, _ => false
  | _ => false

/-! ### Calls and steps -/

/-- The arguments of a call are evaluated, and then it is made. -/
theorem run_call (function : String) (on : Option String) (args : List Expr)
    (named : List (String × Expr)) (store : Option String) (p : Progress) :
    call function on args named store p =
      match (p.session.argumentsOf args named p.session.made : Except Fault _ × Making.State) with
      | (.ok a, made) => Layout.callWith function on store a { p with session :=
  { p.session with made } }
      | (.error f, made) => (.error f, { p with session := { p.session with made } }) := by
  rw [argumentsOf, Making.run_bind, call, Run.run_bind, Run.evalAll, Run.run_bind, Run.run_current]
  dsimp only
  rw [Run.run_make]
  rcases (Expr.evalAll p.session.registers args p.session.made : Except Fault _ × Making.State) with
    ⟨e | vs, made⟩
  · rfl
  · dsimp only
    rw [Making.run_bind, Run.run_bind, Run.evalNamed, Run.run_bind, Run.run_current]
    dsimp only
    rw [Run.run_make]
    dsimp only
    rcases (Expr.evalNamed p.session.registers named made : Except Fault _ × Making.State) with
      ⟨e | vs, made⟩
    · rfl
    · rfl

/-- A step and its report, from what the action does. -/
theorem step_eq {s : Session} {t : ScriptStep} {r : Except Fault Answer} {q : Progress}
    (h : @Eq (Except Fault Answer × Progress) (act t.action ⟨s, [], []⟩) (r, q)) :
    s.step t =
      let report : Report := ⟨r, (registerOf t.action).bind q.session.builderIn?,
        q.records, q.output⟩
      (q.session, if t.quiet then quieten report else report) := by
  have hrun : (act t.action).run.run ⟨s, [], []⟩ = (r, q) := h
  unfold step
  rw [hrun]

/-! ### Sessions that are alike -/

/-- Sessions in a relation have in common the registers, what was made, and what they log, and stay
in the relation when the same is made or stored in both. -/
structure Likeness (R : Session → Session → Prop) : Prop where
  made : ∀ {s s'}, R s s' → s.made = s'.made
  registers : ∀ {s s'}, R s s' → s.registers = s'.registers
  logs : ∀ {s s'}, R s s' → LogsAlike s s'
  withMade : ∀ {s s'}, R s s' → ∀ made, R { s with made } { s' with made }
  withRegisters : ∀ {s s'}, R s s' → ∀ registers, R { s with registers } { s' with registers }

/-- A computation is blind to what sessions differ in that are alike: it gives the same in both,
leaves the same behind, and leaves them alike. -/
def Blind {α : Type} (R : Session → Session → Prop) (m : Run α) : Prop :=
  ∀ p p', Run.SameTrace p p' → R p.session p'.session →
    m.Agree m p p' R fun s s' a b => R s s' ∧ a = b

section Rules

variable {R : Session → Session → Prop} {α β : Type} {m : Run α}

theorem Blind.bind {f : α → Run β} (h : Blind R m) (hf : ∀ a, Blind R (f a)) :
    Blind R (m >>= f) := by
  intro p p' hp hR
  refine (h p p' hp hR).bind fun a b q q' hq hab => ?_
  obtain ⟨hR', rfl⟩ := hab
  exact hf a q q' hq hR'

theorem blind_pure (a : α) : Blind R (pure a : Run α) :=
  fun _ _ hp hR => Run.agree_pure hp ⟨hR, rfl⟩

theorem Blind.map {g : α → β} (h : Blind R m) : Blind R (g <$> m) :=
  h.bind fun a => blind_pure (g a)

theorem blind_throw (f : Fault) : Blind R (throw f : Run α) :=
  fun _ _ hp hR => Run.agree_throw hp hR

/-- What is done next may depend on the session, as long as it does not on what sessions differ
in. -/
theorem blind_current {f : Session → Run α} (hf : ∀ s s', R s s' → f s = f s')
    (h : ∀ s, Blind R (f s)) : Blind R (Run.current >>= f) := by
  intro p p' hp hR
  unfold Run.Agree
  rw [Run.run_bind, Run.run_bind, Run.run_current, Run.run_current]
  dsimp only
  rw [← hf _ _ hR]
  exact h p.session p p' hp hR

theorem blind_update {g : Session → Session} (hg : ∀ s s', R s s' → R (g s) (g s')) :
    Blind R (Run.update g) :=
  fun _ _ hp hR => ⟨hp, hg _ _ hR, rfl⟩

end Rules

namespace Likeness

variable {R : Session → Session → Prop} (L : Likeness R) {α : Type}

include L

/-! ### Parts of actions -/

theorem blind_make (m : Making α) : Blind R (Run.make m) := by
  intro p p' hp hR
  unfold Run.Agree
  rw [Run.run_make, Run.run_make, ← L.made hR]
  rcases (m p.session.made : Except Fault α × Making.State) with ⟨e | a, made⟩
  · exact ⟨hp, L.withMade hR made, rfl⟩
  · exact ⟨hp, L.withMade hR made, rfl⟩

theorem blind_eval (e : Expr) : Blind R (Run.eval e) :=
  blind_current (fun s s' hR => by rw [L.registers hR]) fun s => L.blind_make _

theorem blind_evalNamed (es : List (String × Expr)) : Blind R (Run.evalNamed es) :=
  blind_current (fun s s' hR => by rw [L.registers hR]) fun s => L.blind_make _

/-- What is read is what the register holds in both sessions. -/
theorem agree_read (register : String) {p p' : Progress} (hp : Run.SameTrace p p')
    (hR : R p.session p'.session) :
    (Run.read register).Agree (Run.read register) p p' R fun s s' v w =>
      (R s s' ∧ v = w) ∧ p.session.registers.lookup register = some v := by
  refine (Run.agree_current hp).bind fun s s' q q' hq hs => ?_
  obtain ⟨hs, hs', rfl, rfl⟩ := hs
  rw [← hs, ← hs'] at hR
  rw [← hs, Registers.read, Registers.read, ← L.registers hR]
  cases q.session.registers.lookup register with
  | none => exact Run.agree_throw hq hR
  | some v => exact Run.agree_pure hq ⟨⟨hR, rfl⟩, rfl⟩

theorem blind_read (register : String) : Blind R (Run.read register) :=
  fun _ _ hp hR => (L.agree_read register hp hR).mono fun _ _ _ _ h => h.1

theorem blind_store (register : Option String) (v : Value) : Blind R (Run.store register v) := by
  cases register with
  | none => exact blind_pure ()
  | some name =>
    unfold Run.store
    refine blind_update fun s s' hR => ?_
    rw [← L.registers hR]
    exact L.withRegisters hR _

theorem blind_put (new : Value) : Blind R (Run.update fun s => s.put new) := by
  refine blind_update fun s s' hR => ?_
  have hput : (s.put new).registers = (s'.put new).registers := by
    unfold put
    split <;> simp [replace, L.registers hR]
  rw [put_eq s, put_eq s', ← hput]
  exact L.withRegisters hR _

theorem blind_putBuilder (kind : ObjectKind) (cell : Cell) (attrs : List (String × Value)) :
    Blind R (Run.update fun s => s.putBuilder kind cell attrs) := by
  have hput (new : Value) : ∀ s s', R s s' → R (s.put new) (s'.put new) := by
    intro s s' hR
    exact (L.blind_put new ⟨s, [], []⟩ ⟨s', [], []⟩ ⟨rfl, rfl⟩ hR).2.1
  refine blind_update fun s s' hR => hput _ _ _ ?_
  generalize attrs.map Prod.snd = news
  induction news generalizing s s' with
  | nil => exact hR
  | cons new news ih => exact ih _ _ (hput new s s' hR)

theorem blind_emit (r : LogRecord) : Blind R (Run.emit r) := by
  intro p p' hp hR
  have hlogs := L.logs hR
  unfold Run.Agree
  rw [Run.run_emit, Run.run_emit, ← hlogs.log, ← hlogs.now, ← hlogs.recorded]
  by_cases henabled : p.session.log.isEnabled p.session.recorded r.logger r.level
  · by_cases hown : p.session.recorded && RootLog.ofLibrary r.logger
    · rw [if_pos henabled, if_pos henabled, if_pos hown, if_pos hown]
      cases r.message with
      | ok _ => exact ⟨⟨by rw [hp.1], by rw [hp.2]⟩, hR, rfl⟩
      | error f => exact ⟨hp, hR, rfl⟩
    · rw [if_pos henabled, if_pos henabled, if_neg hown, if_neg hown]
      exact ⟨⟨hp.1, by rw [hp.2]⟩, hR, rfl⟩
  · rw [if_neg henabled, if_neg henabled]
    exact ⟨hp, hR, rfl⟩

theorem blind_emitAll (rs : List LogRecord) : Blind R (rs.forM fun r => discard (Run.emit r)) := by
  induction rs with
  | nil => exact blind_pure ()
  | cons r rs ih => exact (L.blind_emit r).map.bind fun _ => ih

theorem blind_onPermissionBuilder (cell : Cell) (attrs : List (String × Value))
    (b : PermissionBuilder) (act : PermissionBuilder.Act) :
    Blind R (Run.onPermissionBuilder cell attrs b act) := by
  rcases hperform : b.perform act with ⟨b', answer, records⟩
  unfold Run.onPermissionBuilder
  rw [hperform]
  refine (L.blind_make _).bind fun attrs' => ?_
  refine (L.blind_putBuilder _ _ _).bind fun _ => (L.blind_emitAll records).bind fun _ => ?_
  cases answer with
  | self => exact blind_pure _
  | built p => exact blind_pure _
  | refused f => exact blind_throw f

theorem blind_onRequestBuilder (cell : Cell) (attrs : List (String × Value)) (b : RequestBuilder)
    (act : RequestBuilder.Act) : Blind R (Run.onRequestBuilder cell attrs b act) := by
  refine blind_current (fun s s' hR => by rw [L.made hR]) fun s => ?_
  rcases b.perform act s.made with ⟨b', answer, records, made⟩
  refine (blind_update fun s s' hR => L.withMade hR made).bind fun _ => ?_
  refine (L.blind_make _).bind fun attrs' => ?_
  refine (L.blind_putBuilder _ _ _).bind fun _ => (L.blind_emitAll records).bind fun _ => ?_
  cases answer with
  | self => exact blind_pure _
  | built r => exact blind_pure _
  | refused f => exact blind_throw f

/-! ### Calls -/

theorem blind_valueMethod {v : Value} {name : String} {a : Function.Arguments}
    (hs : looksUp v name a → Blind R Run.settings) : Blind R (valueMethod v name a) := by
  unfold valueMethod
  split
  · exact L.blind_make _
  · exact L.blind_make _
  · -- an indentation that is given is taken without a look at the settings
    refine Blind.bind ?_ fun indent => (L.blind_make _).bind fun _ => blind_pure _
    unfold indentOf
    split
    · rename_i hnull
      exact (hs (by simp [looksUp, hnull])).bind fun _ => blind_pure _
    · exact blind_pure _
  · exact L.blind_make _
  · exact L.blind_make _
  · exact L.blind_make _
  · exact L.blind_make _
  · refine (L.blind_make _).bind fun part => ?_
    split
    · exact L.blind_make _
    · exact blind_throw _

theorem blind_method {v : Value} {name : String} {a : Function.Arguments}
    (hs : looksUp v name a → Blind R Run.settings) : Blind R (method v name a) := by
  unfold method
  split
  · split
    · exact L.blind_onPermissionBuilder _ _ _ _
    · exact (L.blind_valueMethod hs).map
  · split
    · exact L.blind_onRequestBuilder _ _ _ _
    · exact (L.blind_valueMethod hs).map
  · exact (L.blind_valueMethod hs).map

theorem agree_callWith {function : String} {on store : Option String} {a : Function.Arguments}
    {p p' : Progress} (hp : Run.SameTrace p p') (hR : R p.session p'.session)
    (hs : ∀ x v, on = some x → p.session.registers.lookup x = some v → looksUp v function a →
      Blind R Run.settings) :
    (Layout.callWith function on store a).Agree (Layout.callWith function on store a) p p' R
      fun s s' a b => R s s' ∧ a = b := by
  cases on with
  | none =>
    have hcall : Blind R (Layout.callWith function none store a) :=
      (L.blind_make _).bind fun v => (L.blind_store store v).bind fun _ => blind_pure _
    exact hcall p p' hp hR
  | some x =>
    -- what is in the register decides whether the settings are looked at
    refine (L.agree_read x hp hR).bind fun v w q q' hq hv => ?_
    obtain ⟨⟨hR', rfl⟩, hv⟩ := hv
    refine ((L.blind_method (hs x v rfl hv)).bind fun answer => ?_) q q' hq hR'
    cases answer with
    | self => exact (L.blind_read x).bind fun w =>
      (L.blind_store store w).bind fun _ => blind_pure _
    | value w => exact (L.blind_store store w).bind fun _ => blind_pure _
    | _ => exact blind_pure _

theorem agree_call {function : String} {on : Option String} {args : List Expr}
    {named : List (String × Expr)} {store : Option String} {p p' : Progress}
    (hp : Run.SameTrace p p')
    (hR : R p.session p'.session)
    (hs : p.session.usesSettings (.call function on args named store) → Blind R Run.settings) :
    (call function on args named store).Agree (call function on args named store) p p' R
      fun s s' a b => R s s' ∧ a = b := by
  have hargs : p'.session.argumentsOf args named = p.session.argumentsOf args named := by
    rw [argumentsOf, argumentsOf, L.registers hR]
  unfold Run.Agree
  rw [run_call, run_call, hargs, ← L.made hR]
  rcases hmade : (p.session.argumentsOf args named p.session.made :
    Except Fault _ × Making.State) with
    ⟨e | a, made⟩
  · exact ⟨hp, L.withMade hR made, rfl⟩
  · refine L.agree_callWith (p := ⟨{ p.session with made }, p.records, p.output⟩) hp
      (L.withMade hR made) ?_
    intro x v hon hv hlooks
    subst hon
    have hlookup : p.session.registers.lookup x = some v := hv
    refine hs ?_
    rw [usesSettings, hlookup, hmade]
    exact hlooks

/-! ### Actions -/

theorem blind_along (v : Value) (path : List Expr) : Blind R (along v path) := by
  induction path generalizing v with
  | nil => exact blind_pure v
  | cons e es ih => exact (L.blind_eval e).bind fun key => (L.blind_make _).bind fun w => ih w

theorem blind_changed (container : Value) (c : Change) : Blind R (changed container c) := by
  cases c with
  | set key value =>
    exact (L.blind_eval value).bind fun _ => (L.blind_eval key).bind fun _ => L.blind_make _
  | delete key => exact (L.blind_eval key).bind fun _ => L.blind_make _
  | append value =>
    simp only [changed]
    split
    · exact (L.blind_eval value).bind fun _ => blind_throw _
    · exact blind_throw _
    · exact (L.blind_eval value).bind fun _ => L.blind_make _

theorem blind_change (on : String) (path : List Expr) (c : Change) :
    Blind R (change on path c) := by
  refine (L.blind_read on).bind fun v => (L.blind_along v path).bind fun container => ?_
  refine (L.blind_changed container c).bind fun new => (L.blind_put new).bind fun _ => ?_
  exact (L.blind_read on).bind fun w => blind_pure _

theorem blind_setAttribute (on name : String) (value : Expr) :
    Blind R (setAttribute on name value) := by
  refine (L.blind_read on).bind fun v => (L.blind_eval value).bind fun w => ?_
  exact (L.blind_make _).bind fun new => (L.blind_put new).bind fun _ => blind_pure _

theorem blind_compare (a b : Expr) (hashed : Bool) : Blind R (compare a b hashed) :=
  (L.blind_eval a).bind fun _ => (L.blind_eval b).bind fun _ => blind_pure _

theorem blind_logRecord (r : RecordExpr) : Blind R (logRecord r) := by
  refine blind_current (fun s s' hR => ?_) fun s => ?_
  · have hlogs := L.logs hR
    rw [hlogs.log, hlogs.recorded, L.registers hR]
  · split
    · exact (L.blind_make _).bind fun record => (L.blind_emit record).bind fun _ => blind_pure _
    · exact blind_pure _

theorem blind_configOf {fields : Option (List (String × Expr))}
    (hs : fields = none → Blind R Run.settings) : Blind R (configOf fields) := by
  cases fields with
  | none => exact (hs rfl).bind fun _ => L.blind_make _
  | some es => exact (L.blind_evalNamed es).bind fun _ => L.blind_make _

/-- The log is configured alike in sessions that stay alike under a new log. -/
theorem blind_install (hlog : ∀ {s s'}, R s s' → ∀ log, R { s with log } { s' with log })
    (config : LoggingConfig) : Blind R (install config) := by
  refine blind_current (fun s s' hR => ?_) fun s => ?_
  · have hlogs := L.logs hR
    rw [hlogs.log, L.made hR]
  · rcases s.log.configure config s.made with ⟨log, result, made⟩
    refine (blind_update fun s s' hR => L.withMade (hlog hR log) made).bind fun _ => ?_
    cases result with
    | ok _ => exact blind_pure _
    | error f => exact blind_throw f

/-- **An action in two sessions that are alike** does the same, if it changes nothing of what is
known of the settings. If it uses the settings these have to be found alike, and if it configures
the log, sessions have to stay alike under a new one. -/
theorem agree_act {a : Action} {p p' : Progress} (hp : Run.SameTrace p p')
    (hR : R p.session p'.session) (hs : p.session.usesSettings a → Blind R Run.settings)
    (hlog : ∀ fields, a = .configure fields → ∀ {s s'}, R s s' → ∀ log,
      R { s with log } { s' with log })
    (henvironment : ∀ set unset, a ≠ .environment set unset) (hclear : a ≠ .clearCache) :
    (act a).Agree (act a) p p' R fun s s' a b => R s s' ∧ a = b := by
  match a with
  | .call function on args named store => exact L.agree_call hp hR hs
  | .define value name =>
    have hact : Blind R (act (.define value name)) :=
      (L.blind_eval value).bind fun v => (L.blind_store (some name) v).bind fun _ => blind_pure _
    exact hact p p' hp hR
  | .view on =>
    have hact : Blind R (act (.view on)) := (L.blind_read on).bind fun v => blind_pure _
    exact hact p p' hp hR
  | .attribute on name store =>
    have hact : Blind R (act (.attribute on name store)) := by
      refine (L.blind_read on).bind fun v => (L.blind_make _).bind fun w => ?_
      exact (L.blind_store store w).bind fun _ => blind_pure _
    exact hact p p' hp hR
  | .setAttribute on name value => exact L.blind_setAttribute on name value p p' hp hR
  | .change on path c => exact L.blind_change on path c p p' hp hR
  | .compare a b hashed => exact L.blind_compare a b hashed p p' hp hR
  | .environment set unset => exact absurd rfl (henvironment set unset)
  | .clearCache => exact absurd rfl hclear
  | .settings =>
    have hact : Blind R (act .settings) := (hs rfl).bind fun _ => blind_pure _
    exact hact p p' hp hR
  | .configure fields =>
    have hconfig : Blind R (configOf fields) :=
      L.blind_configOf fun hnone => hs (by rw [hnone]; rfl)
    exact (hconfig.bind (L.blind_install (hlog fields rfl))) p p' hp hR
  | .log r => exact L.blind_logRecord r p p' hp hR

/-- **A step in two sessions that are alike** leaves them alike, and is reported alike. -/
theorem step_alike {s s' : Session} {t : ScriptStep} (hR : R s s')
    (hs : s.usesSettings t.action → Blind R Run.settings)
    (hlog : ∀ fields, t.action = .configure fields →
      ∀ {s s'}, R s s' → ∀ log, R { s with log } { s' with log })
    (henvironment : ∀ set unset, t.action ≠ .environment set unset)
    (hclear : t.action ≠ .clearCache) :
    R (s.step t).1 (s'.step t).1 ∧ (s.step t).2 = (s'.step t).2 := by
  have htrace : Run.SameTrace ⟨s, [], []⟩ ⟨s', [], []⟩ := ⟨rfl, rfl⟩
  have hact := L.agree_act htrace hR hs hlog henvironment hclear
  have hbuilder {q q' : Session} (h : R q q') : q.builderIn? = q'.builderIn? := by
    funext register
    rw [builderIn?, builderIn?, L.registers h]
  unfold Run.Agree at hact
  rcases hm : (act t.action ⟨s, [], []⟩ : Except Fault Answer × Progress) with ⟨e | a, q⟩ <;>
    rcases hm' : (act t.action ⟨s', [], []⟩ : Except Fault Answer × Progress) with ⟨e' | a', q'⟩ <;>
    rw [hm, hm'] at hact
  · obtain ⟨htrace, hR', rfl⟩ := hact
    rw [step_eq hm, step_eq hm', htrace.1, htrace.2, hbuilder hR']
    exact ⟨hR', rfl⟩
  · exact hact.elim
  · exact hact.elim
  · obtain ⟨htrace, hR', rfl⟩ := hact
    rw [step_eq hm, step_eq hm', htrace.1, htrace.2, hbuilder hR']
    exact ⟨hR', rfl⟩

end Likeness

/-! ### What steps leave alone -/

section Property

variable {I : Session → Prop} (hmade : ∀ s, I s → ∀ made, I { s with made })
  (hregisters : ∀ s, I s → ∀ registers, I { s with registers })
  (hcache : ∀ s, I s → ∀ cache, I { s with cache })

include hmade hregisters

/-- A property that a session keeps whatever is made and stored is a likeness of sessions to
themselves. -/
theorem likeness_of_property : Likeness fun s s' => s = s' ∧ I s where
  made h := by rw [h.1]
  registers h := by rw [h.1]
  logs h := ⟨by rw [h.1], by rw [h.1], by rw [h.1]⟩
  withMade h made := ⟨by rw [h.1], hmade _ h.2 made⟩
  withRegisters h registers := ⟨by rw [h.1], hregisters _ h.2 registers⟩

omit hmade hregisters in
theorem Blind.of_property {α : Type} {m : Run α} (h : Blind (fun s s' => s = s' ∧ I s) m)
    {p : Progress} (hp : I p.session) : I (m p).2.session := by
  have hm := h p p ⟨rfl, rfl⟩ ⟨rfl, hp⟩
  unfold Run.Agree at hm
  split at hm
  · rename_i heq _
    rw [heq]
    exact hm.2.1.2
  · rename_i heq _
    rw [heq]
    exact hm.2.1.2
  · exact hm.elim

include hcache

theorem blind_settings_of_property : Blind (fun s s' => s = s' ∧ I s) Run.settings := by
  refine blind_current (fun s s' h => by rw [h.1]) fun s => ?_
  have L := likeness_of_property hmade hregisters
  rcases SettingsCache.get s.cache s.surroundings with ⟨result, cache⟩
  have hupdate : Blind (fun s s' => s = s' ∧ I s) (Run.update fun s => { s with cache }) :=
    blind_update fun s s' h => ⟨by rw [h.1], hcache s h.2 cache⟩
  dsimp only
  cases result with
  | ok x =>
    split
    · exact (L.blind_emitAll _).bind fun _ => hupdate.bind fun _ => blind_pure x
    · exact (blind_pure ()).bind fun _ => hupdate.bind fun _ => blind_pure x
  | error f =>
    split
    · exact (L.blind_emitAll _).bind fun _ => hupdate.bind fun _ => blind_throw f
    · exact (blind_pure ()).bind fun _ => hupdate.bind fun _ => blind_throw f

/-- **What a step may change.** A property that a session keeps whatever is made, stored and known
of the settings is kept by every step, as long as a configuration keeps it under a new log and a
change of the environment in new surroundings. -/
theorem property_step {s : Session} {t : ScriptStep} (hs : I s)
    (hlog : ∀ fields, t.action = .configure fields → ∀ s, I s → ∀ log, I { s with log })
    (henvironment : ∀ set unset, t.action = .environment set unset →
      ∀ s, I s → ∀ surroundings, I { s with surroundings }) : I (s.step t).1 := by
  rcases t with ⟨action, quiet⟩
  by_cases hset : ∃ set unset, action = .environment set unset
  · obtain ⟨set, unset, rfl⟩ := hset
    exact henvironment set unset rfl s hs _
  by_cases hclear : action = .clearCache
  · subst hclear
    exact hcache s hs none
  have hself : s = s ∧ I s := ⟨rfl, hs⟩
  have hstep := (likeness_of_property hmade hregisters).step_alike (t := ⟨action, quiet⟩) hself
    (fun _ => blind_settings_of_property hmade hregisters hcache)
    (fun fields h s s' hI log => ⟨by rw [hI.1], hlog fields h s hI.2 log⟩)
    (fun set unset h => hset ⟨set, unset, h⟩) hclear
  exact hstep.1.2

end Property

/-- The configuration that is asked for is found without a change to the log. -/
theorem logsAlike_configOf (fields : Option (List (String × Expr))) (p : Progress) :
    LogsAlike (configOf fields p).2.session p.session := by
  have L : Likeness fun s s' => s = s' ∧ LogsAlike s p.session :=
    likeness_of_property (fun _ h _ => ⟨h.log, h.now, h.recorded⟩) fun _ h _ =>
      ⟨h.log, h.now, h.recorded⟩
  have hsettings : Blind (fun s s' => s = s' ∧ LogsAlike s p.session) Run.settings :=
    blind_settings_of_property (fun _ h _ => ⟨h.log, h.now, h.recorded⟩)
      (fun _ h _ => ⟨h.log, h.now, h.recorded⟩) fun _ h _ => ⟨h.log, h.now, h.recorded⟩
  exact (L.blind_configOf fun _ => hsettings).of_property ⟨rfl, rfl, rfl⟩

/-- Only a configuration changes the log, and nothing changes the clock. -/
theorem logsAlike_step {s : Session} {t : ScriptStep}
    (hconfigure : ∀ fields, t.action ≠ .configure fields) : LogsAlike (s.step t).1 s :=
  property_step (I := fun s' => LogsAlike s' s) (fun _ h _ => ⟨h.log, h.now, h.recorded⟩)
    (fun _ h _ => ⟨h.log, h.now, h.recorded⟩) (fun _ h _ => ⟨h.log, h.now, h.recorded⟩)
    ⟨rfl, rfl, rfl⟩
    (fun fields h => absurd h (hconfigure fields)) fun _ _ _ _ h _ => ⟨h.log, h.now, h.recorded⟩

theorem logsAlike_after {s : Session} {ts : List ScriptStep}
    (hconfigure : ∀ t ∈ ts, ∀ fields, t.action ≠ .configure fields) : LogsAlike (s.after ts) s := by
  refine after_of_step (I := fun s' => LogsAlike s' s) (fun s' t ht h => ?_) ⟨rfl, rfl, rfl⟩
  have hstep := logsAlike_step (s := s') (hconfigure t ht)
  exact ⟨hstep.log.trans h.log, hstep.now.trans h.now, hstep.recorded.trans h.recorded⟩

/-- Only a change of the environment changes the surroundings. -/
theorem surroundings_step {s : Session} {t : ScriptStep}
    (henvironment : ∀ set unset, t.action ≠ .environment set unset) :
    (s.step t).1.surroundings = s.surroundings :=
  property_step (I := fun s' => s'.surroundings = s.surroundings) (fun _ h _ => h) (fun _ h _ => h)
    (fun _ h _ => h) rfl (fun _ _ _ h _ => h) fun set unset h => absurd h (henvironment set unset)

end Session

end CredentialWrites
