import CredentialWrites.Proofs.Script.Configure

/-!
# The settings in a session

The settings are loaded by the first step that uses them and finds them in the environment of that
moment, and are kept until they are cleared. A step that fails over them keeps nothing, so that the
next one looks at the environment again. A step that does not use them does the same whatever the
environment and whatever is kept.

* `SettingsEvent` : what happens to the settings: they are used in some surroundings, or cleared.
* `SettingsEvent.firstFound` : the settings of the first use that found them since they were last
  cleared.
* `Session.step_elsewhere` : a step that does not use the settings.
* `Session.cache_step`, `Session.cache_after_of_past` : what is kept after a step, and after many.
* `Session.settings_law` : what uses of the settings find, and what goes without.
-/

namespace CredentialWrites

open Making

/-- What happens to the settings. -/
inductive SettingsEvent where
  | cleared
  | used (surroundings : Surroundings)
deriving DecidableEq

namespace SettingsEvent

/-- The events since the settings were last cleared. -/
def sinceClear (events : List SettingsEvent) : List SettingsEvent :=
  (events.reverse.takeWhile (· ≠ cleared)).reverse

/-- The settings that a use of them loads from its surroundings. -/
def loaded? : SettingsEvent → Option Settings
  | cleared => none
  | used surroundings => (Settings.load [] surroundings).toOption

/-- The settings of the first use that could load them since they were last cleared. -/
def firstFound (events : List SettingsEvent) : Option Settings :=
  (sinceClear events).findSome? loaded?

theorem firstFound_append_cleared (events : List SettingsEvent) :
    firstFound (events ++ [cleared]) = none := by
  simp [firstFound, sinceClear]

theorem firstFound_append_used (events : List SettingsEvent) (surroundings : Surroundings) :
    firstFound (events ++ [used surroundings]) =
      (firstFound events).or (Settings.load [] surroundings).toOption := by
  simp [firstFound, sinceClear, List.findSome?_append, loaded?]

end SettingsEvent

/-- The surroundings after an action. -/
def Surroundings.act (surroundings : Surroundings) : Action → Surroundings
  | .environment set unset => (surroundings.unset unset).set set
  | _ => surroundings

namespace Session

/-! ### What does not use the settings -/

/-- **A step that does not use the settings** neither depends on them or on the environment nor
changes what is kept of them. -/
theorem step_elsewhere {s : Session} {t : ScriptStep} (huse : s.usesSettings t.action = false)
    (henvironment : ∀ set unset, t.action ≠ .environment set unset)
    (hclear : t.action ≠ .clearCache)
    (surroundings : Surroundings) (cache : SettingsCache) :
    { s with surroundings, cache }.step t =
      ({ (s.step t).1 with surroundings, cache }, (s.step t).2) := by
  have L : Likeness fun s s' => s' = { s with surroundings, cache } :=
    { made := by rintro s _ rfl; rfl
      registers := by rintro s _ rfl; rfl
      logs := by rintro s _ rfl; exact ⟨rfl, rfl, rfl⟩
      withMade := by rintro s _ rfl made; rfl
      withRegisters := by rintro s _ rfl registers; rfl }
  obtain ⟨hsession, hreport⟩ := L.step_alike (s := s)
    (t := t) rfl (fun h => by rw [huse] at h; cases h) (by rintro fields - s _ rfl log; rfl)
    henvironment hclear
  exact Prod.ext hsession hreport.symm

/-! ### A request written down -/

theorem looksUp_iff {v : Value} {method : String} {a : Function.Arguments} :
    looksUp v method a ↔
      ∃ fields, v = .record .request fields ∧ method = "to_json" ∧ a.arg 0 "indent" = .null := by
  unfold looksUp
  split
  · rename_i fields hnull
    exact ⟨fun _ => ⟨fields, rfl, rfl, hnull⟩, fun _ => rfl⟩
  · rename_i hother
    refine ⟨fun h => (Bool.false_ne_true h).elim, ?_⟩
    rintro ⟨fields, rfl, rfl, hnull⟩
    exact (hother fields rfl rfl hnull).elim

/-- The text of a request under the indentation of settings, as the function of the library gives
it. -/
def textUnder (request : Value) (x : Settings) : Making Value :=
  Function.call "to_json" ⟨[request, (x.jsonIndent.map Field.Numeral.toValue).getD .null], []⟩

/-- What becomes of a request that is written down under the settings that a look at them finds. -/
def writtenDown (s : Session) (request : Value) : Except Fault Value := do
  let x ← s.lookUp.1
  (textUnder request x s.made).1

theorem Run.run_pure {α : Type} (a : α) (p : Progress) : (pure a : Run α) p = (.ok a, p) := rfl

/-- A request that is written down without an indentation gets the one of the settings. -/
theorem run_valueMethod_to_json (p : Progress) (fields : List Value) {a : Function.Arguments}
    (hnull : a.arg 0 "indent" = .null) :
    ∃ q, valueMethod (.record .request fields) "to_json" a p =
        (p.session.writtenDown (.record .request fields), q) ∧
          q.session.cache = p.session.lookUp.2 := by
  obtain ⟨text, htext⟩ := Run.run_settings p
  change ∃ q, (indentOf (a.arg 0 "indent") >>= fun indent =>
    Run.make (Payload.requestToJson (.record .request fields) indent) >>= fun s =>
      (pure (.text s) : Run Value)) p = _ ∧ _
  rw [hnull]
  change ∃ q, ((Run.settings >>= fun x =>
    (pure ((x.jsonIndent.map Field.Numeral.toValue).getD .null) : Run Value)) >>= _) p = _ ∧ _
  rw [Run.run_bind, Run.run_bind, htext, writtenDown]
  rcases hlook : p.session.lookUp with ⟨f | x, cache⟩
  · exact ⟨_, rfl, rfl⟩
  · -- the settings are found, and the text may still be refused
    dsimp only
    rw [Run.run_pure]
    dsimp only
    rw [Run.run_bind, Run.run_make]
    have hfunction : textUnder (.record .request fields) x = (do
        return .text (← Payload.requestToJson (.record .request fields)
          ((x.jsonIndent.map Field.Numeral.toValue).getD .null))) := rfl
    change ∃ q, _ = ((textUnder (.record .request fields) x p.session.made).1, q) ∧ _
    rw [hfunction, Making.run_bind]
    dsimp only
    rcases (Payload.requestToJson (.record .request fields)
      ((x.jsonIndent.map Field.Numeral.toValue).getD .null) p.session.made :
        Except Fault String × Making.State) with ⟨f | s, made⟩
    · exact ⟨_, rfl, rfl⟩
    · exact ⟨_, rfl, rfl⟩

theorem run_callWith_to_json {p : Progress} {on : String} {store : Option String}
    {fields : List Value}
    {a : Function.Arguments}
    (hread : p.session.registers.lookup on = some (.record .request fields))
    (hnull : a.arg 0 "indent" = .null) :
    ∃ q, Layout.callWith "to_json" (some on) store a p =
        (Answer.value <$> p.session.writtenDown (.record .request fields), q) ∧
      q.session.cache = p.session.lookUp.2 := by
  obtain ⟨q, hq, hcache⟩ := run_valueMethod_to_json p fields hnull
  have hmethod : method (.record .request fields) "to_json" a =
      Answer.value <$> valueMethod (.record .request fields) "to_json" a := rfl
  rw [Layout.callWith, Run.run_bind, run_read hread]
  dsimp only
  rw [Run.run_bind, hmethod, map_eq_pure_bind, Run.run_bind, hq]
  rcases p.session.writtenDown (.record .request fields) with f | w
  · exact ⟨q, rfl, hcache⟩
  · cases store with
    | none => exact ⟨q, rfl, hcache⟩
    | some name => exact ⟨_, rfl, hcache⟩

theorem act_to_json {s : Session} {on : String} {args : List Expr} {named : List (String × Expr)}
    {fields : List Value} {a : Function.Arguments} {made : Making.State}
    (hargs : (s.argumentsOf args named).Gives s.made a made)
    (hread : s.registers.lookup on = some (.record .request fields))
    (hnull : a.arg 0 "indent" = .null)
    (store : Option String) :
    ∃ q, act (.call "to_json" (some on) args named store) ⟨s, [], []⟩ =
        (Answer.value <$> { s with made }.writtenDown (.record .request fields), q) ∧
      q.session.cache = s.lookUp.2 := by
  change ∃ q, call "to_json" (some on) args named store ⟨s, [], []⟩ = _ ∧ _
  have hrun : (s.argumentsOf args named s.made : Except Fault _ × Making.State) = (.ok a, made) :=
    hargs
  rw [run_call]
  dsimp only
  rw [hrun]
  exact run_callWith_to_json (p := ⟨{ s with made }, [], []⟩) hread hnull

/-! ### What is kept -/

/-- What a step does to the settings. -/
def eventOf? (s : Session) : Action → Option SettingsEvent
  | .clearCache => some .cleared
  | a => if s.usesSettings a then some (.used s.surroundings) else none

/-- What some steps do to the settings. -/
def eventsOf (s : Session) : List ScriptStep → List SettingsEvent
  | [] => []
  | t :: ts => (s.eventOf? t.action).toList ++ (s.step t).1.eventsOf ts

theorem act_settings (s : Session) :
    ∃ q, act .settings ⟨s, [], []⟩ = (Answer.settings <$> s.lookUp.1, q) ∧
      q.session.cache = s.lookUp.2 := by
  obtain ⟨text, htext⟩ := Run.run_settings ⟨s, [], []⟩
  change ∃ q, (Run.settings >>= fun x => (pure (.settings x) : Run Answer)) _ = _ ∧ _
  rw [Run.run_bind, htext]
  dsimp only
  rcases s.lookUp.1 with f | x
  · exact ⟨_, rfl, rfl⟩
  · exact ⟨_, rfl, rfl⟩

/-- A step that uses the settings looks them up. -/
theorem cache_step_of_use {s : Session} {t : ScriptStep} (h : s.usesSettings t.action) :
    (s.step t).1.cache = s.lookUp.2 := by
  rcases t with ⟨action, quiet⟩
  match action, h with
  | .settings, _ =>
    obtain ⟨q, hact, hcache⟩ := act_settings s
    rw [(step_of_act (t := ⟨.settings, quiet⟩) hact).1, hcache]
  | .configure none, _ => exact (step_configure_none s quiet).2.2.1
  | .call function (some on) args named store, h =>
    rw [usesSettings] at h
    split at h
    · rename_i v a made hread hargs
      obtain ⟨fields, rfl, rfl, hnull⟩ := looksUp_iff.1 h
      obtain ⟨q, hact, hcache⟩ := act_to_json hargs hread hnull store
      rw [(step_of_act (t := ⟨.call "to_json" (some on) args named store, quiet⟩) hact).1, hcache]
    · cases h

theorem eventOf?_of_ne {a : Action} (h : a ≠ .clearCache) (s : Session) :
    s.eventOf? a = if s.usesSettings a then some (.used s.surroundings) else none := by
  unfold eventOf?
  split
  · exact absurd rfl h
  · rfl

/-- What is kept after a step. -/
theorem cache_step (s : Session) (t : ScriptStep) :
    (s.step t).1.cache = match s.eventOf? t.action with
      | some .cleared => none
      | some (.used _) => s.lookUp.2
      | none => s.cache := by
  by_cases hclear : t.action = .clearCache
  · rcases t with ⟨action, quiet⟩
    obtain rfl : action = .clearCache := hclear
    rfl
  rw [eventOf?_of_ne hclear]
  by_cases huse : s.usesSettings t.action
  · rw [if_pos huse]
    exact cache_step_of_use huse
  rw [if_neg huse]
  by_cases hset : ∃ set unset, t.action = .environment set unset
  · rcases t with ⟨action, quiet⟩
    obtain ⟨set, unset, rfl⟩ : ∃ set unset, action = .environment set unset := hset
    rfl
  · -- under what it knows already, the session is the same
    have hstep := step_elsewhere (eq_false_of_ne_true huse)
      (fun set unset h => hset ⟨set, unset, h⟩) hclear s.surroundings s.cache
    exact congrArg (fun r => r.1.cache) hstep

theorem lookUp_snd (s : Session) :
    s.lookUp.2 = s.cache.or (Settings.load [] s.surroundings).toOption := by
  unfold lookUp SettingsCache.get
  cases s.cache with
  | some x => rfl
  | none =>
    cases Settings.load [] s.surroundings with
    | error errors => rfl
    | ok x => rfl

/-- What is kept after some steps, if it was told by the events before. -/
theorem cache_after_of_past {s : Session} {past : List SettingsEvent}
    (h : s.cache = SettingsEvent.firstFound past) (ts : List ScriptStep) :
    (s.after ts).cache = SettingsEvent.firstFound (past ++ s.eventsOf ts) := by
  induction ts generalizing s past with
  | nil => rw [eventsOf, List.append_nil]; exact h
  | cons t ts ih =>
    rw [eventsOf, ← List.append_assoc]
    refine ih ?_
    rw [cache_step]
    cases hevent : s.eventOf? t.action with
    | none => rw [Option.toList_none, List.append_nil]; exact h
    | some e =>
      cases e with
      | cleared => rw [Option.toList_some, SettingsEvent.firstFound_append_cleared]
      | used surroundings =>
        have hsurroundings : surroundings = s.surroundings := by
          by_cases hclear : t.action = .clearCache
          · rw [hclear] at hevent
            cases hevent
          · rw [eventOf?_of_ne hclear] at hevent
            split at hevent
            · cases hevent
              rfl
            · cases hevent
        rw [Option.toList_some, SettingsEvent.firstFound_append_used, ← h,
          hsurroundings, lookUp_snd]

/-- The surroundings after some steps are those that the changes of the environment among them lead
to. -/
theorem surroundings_after (s : Session) (ts : List ScriptStep) :
    (s.after ts).surroundings = ts.foldl (fun e t => e.act t.action) s.surroundings := by
  induction ts generalizing s with
  | nil => rfl
  | cons t ts ih =>
    have hstep : (s.step t).1.surroundings = s.surroundings.act t.action := by
      by_cases hset : ∃ set unset, t.action = .environment set unset
      · rcases t with ⟨action, quiet⟩
        obtain ⟨set, unset, rfl⟩ : ∃ set unset, action = .environment set unset := hset
        rfl
      · rw [surroundings_step fun set unset h => hset ⟨set, unset, h⟩]
        unfold Surroundings.act
        split
        · rename_i set unset h
          exact absurd ⟨set, unset, h⟩ hset
        · rfl
    rw [List.foldl_cons, ← hstep]
    exact ih (s.step t).1

/-! ### The law -/

/-- What a use of the settings comes to after some steps: those of the first use that found them
since they were last cleared, or else those of the environment by then. -/
def found (s : Session) (ts : List ScriptStep) : Except Fault Settings :=
  match SettingsEvent.firstFound (s.eventsOf ts) with
  | some x => .ok x
  | none => match Settings.load [] (ts.foldl (fun e t => e.act t.action) s.surroundings) with
    | .ok x => .ok x
    | .error errors => .error (.validation errors)

theorem lookUp_after {s : Session} (h : s.cache = none) (ts : List ScriptStep) :
    (s.after ts).lookUp.1 = s.found ts := by
  have hstart : s.cache = SettingsEvent.firstFound [] := h
  have hcache : (s.after ts).cache = SettingsEvent.firstFound (s.eventsOf ts) :=
    cache_after_of_past hstart ts
  rw [lookUp, hcache, surroundings_after, found]
  cases SettingsEvent.firstFound (s.eventsOf ts) with
  | some x => rfl
  | none =>
    dsimp only [SettingsCache.get]
    cases Settings.load [] (ts.foldl (fun e t => e.act t.action) s.surroundings) with
    | error errors => rfl
    | ok x => rfl

/-- Every use of the settings in a session finds the same: the settings themselves, a configuration
of the log that is not told how, and a request that is written down without an indentation. Such a
request has the text that the function of the library gives it with the indentation of the
settings. -/
structure Finds (s : Session) (found : Except Fault Settings) : Prop where
  settings : (s.step ⟨.settings, false⟩).2.outcome = found.map Answer.settings
  configured : ∀ quiet,
    (∀ x, found = .ok x → (s.step ⟨.configure none, quiet⟩).1.log = s.log.withSettings x) ∧
    (∀ f, found = .error f → (s.step ⟨.configure none, quiet⟩).1.log = s.log) ∧
    (s.step ⟨.configure none, quiet⟩).2.outcome.map (fun _ => ()) = found.map fun _ => ()
  written : ∀ on args named store fields a made,
    s.registers.lookup on = some (.record .request fields) →
    (s.argumentsOf args named).Gives s.made a made →
    a.arg 0 "indent" = .null →
    (s.step ⟨.call "to_json" (some on) args named store, false⟩).2.outcome = do
      let x ← found
      return .value (← (textUnder (.record .request fields) x made).1)
  byFunction : ∀ on fields x, s.registers.lookup on = some (.record .request fields) →
    found = .ok x →
    (s.step ⟨.call "to_json" (some on) [] [] none, false⟩).2.outcome =
      (s.step ⟨.call "to_json" none
        [.register on, .constant ((x.jsonIndent.map Field.Numeral.toValue).getD .null)] [] none,
        false⟩).2.outcome

/-- What comes of a request that is written down without an indentation. -/
theorem outcome_step_to_json {s : Session} {on : String} {args : List Expr}
    {named : List (String × Expr)} {fields : List Value} {a : Function.Arguments}
    {made : Making.State}
    (hread : s.registers.lookup on = some (.record .request fields))
    (hargs : (s.argumentsOf args named).Gives s.made a made) (hnull : a.arg 0 "indent" = .null)
    (store : Option String) :
    (s.step ⟨.call "to_json" (some on) args named store, false⟩).2.outcome = (do
      let x ← s.lookUp.1
      return .value (← (textUnder (.record .request fields) x made).1)) := by
  obtain ⟨q, hact, -⟩ := act_to_json hargs hread hnull store
  rw [step_eq (t := ⟨.call "to_json" (some on) args named store, false⟩) hact]
  change Answer.value <$> (s.lookUp.1 >>= fun x => _) = _
  rcases s.lookUp.1 with f | x
  · rfl
  · rfl

/-- What comes of the function of the library, called with a request and the indentation of
settings. -/
theorem outcome_step_function_to_json {s : Session} {on : String} {fields : List Value}
    (hread : s.registers.lookup on = some (.record .request fields)) (x : Settings) :
    (s.step ⟨.call "to_json" none
        [.register on, .constant ((x.jsonIndent.map Field.Numeral.toValue).getD .null)] [] none,
          false⟩).2.outcome =
      Answer.value <$> (textUnder (.record .request fields) x s.made).1 := by
  unfold textUnder
  generalize (x.jsonIndent.map Field.Numeral.toValue).getD .null = indent
  have hregister : (Expr.eval s.registers (.register on)).Gives s.made (.record .request
    fields) s.made :=
    gives_lift.2 ⟨by rw [Registers.read, hread], rfl⟩
  have hargs : (s.argumentsOf [.register on, .constant indent] []).Gives s.made
      ⟨[.record .request fields, indent], []⟩ s.made :=
    gives_bind.2 ⟨_, s.made, gives_bind.2 ⟨_, s.made, hregister, rfl⟩, rfl⟩
  have hrun : (s.argumentsOf [.register on, .constant indent] [] s.made :
    Except Fault _ × Making.State) =
      (.ok ⟨[.record .request fields, indent], []⟩, s.made) := hargs
  have hact : ∃ q, act (.call "to_json" none [.register on, .constant indent] [] none) ⟨s, [], []⟩ =
      (Answer.value <$> (Function.call "to_json" ⟨[.record .request fields, indent], []⟩ s.made).1,
        q) := by
    change ∃ q, call "to_json" none _ _ none ⟨s, [], []⟩ = _
    rw [run_call]
    dsimp only
    rw [hrun]
    dsimp only
    rw [Layout.callWith, Run.run_bind, Run.run_make]
    dsimp only
    rcases (Function.call "to_json" ⟨[.record .request fields, indent], []⟩ s.made :
      Except Fault Value × Making.State) with ⟨f | w, made⟩
    · exact ⟨_, rfl⟩
    · exact ⟨_, rfl⟩
  obtain ⟨q, hact⟩ := hact
  rw [step_eq (t := ⟨.call "to_json" none [.register on, .constant indent] [] none, false⟩) hact]
  rfl

theorem finds_lookUp (s : Session) : s.Finds s.lookUp.1 where
  settings := by
    obtain ⟨q, hact, -⟩ := act_settings s
    rw [step_eq (t := ⟨.settings, false⟩) hact]
    rfl
  configured := fun quiet => by
    obtain ⟨hlog, hrefused, -, houtcome⟩ := step_configure_none s quiet
    exact ⟨hlog, hrefused, houtcome⟩
  written := fun _ _ _ store _ _ _ hread hargs hnull => outcome_step_to_json hread hargs hnull store
  byFunction := fun on fields x hread hx => by
    have hargs : (s.argumentsOf [] []).Gives s.made ⟨[], []⟩ s.made := rfl
    rw [outcome_step_to_json hread hargs rfl none, hx, outcome_step_function_to_json hread]
    exact (map_eq_pure_bind Answer.value (textUnder (.record .request fields) x s.made).1).symm

theorem usesSettings_eq_false {s : Session} {function on : String} {args : List Expr}
    {named : List (String × Expr)} {store : Option String} {v : Value} {a : Function.Arguments}
    {made : Making.State} (hread : s.registers.lookup on = some v)
    (hargs : (s.argumentsOf args named).Gives s.made a made)
    (h : function ≠ "to_json" ∨ (∀ fields, v ≠ .record .request fields) ∨
      a.arg 0 "indent" ≠ .null) :
    s.usesSettings (.call function (some on) args named store) = false := by
  have hrun : (s.argumentsOf args named s.made : Except Fault _ × Making.State) = (.ok a, made) :=
    hargs
  refine eq_false_of_ne_true fun huse => ?_
  rw [usesSettings, hread, hrun] at huse
  obtain ⟨fields, hv, hfunction, hnull⟩ := looksUp_iff.1 huse
  rcases h with h | h | h
  · exact h hfunction
  · exact h fields hv
  · exact h hnull

/-- **The settings in a session** from its start on. Every use of them finds those of the first use
that could load them since they were last cleared, or looks at the environment as it is by then. All
else, and among it each function of the library, a request written down with an indentation, a
method of anything else, and a configuration of the log that is told how, leaves what is kept as it
is and does the same whatever that is and whatever the environment. -/
theorem settings_law (surroundings : Surroundings) (now : Clock) (recorded : Bool)
    (ts : List ScriptStep) : let s := (start surroundings now recorded).after ts
    s.surroundings = ts.foldl (fun e t => e.act t.action) surroundings ∧
    s.Finds ((start surroundings now recorded).found ts) ∧
    (∀ t, s.usesSettings t.action = false → (∀ set unset, t.action ≠ .environment set unset) →
      t.action ≠ .clearCache → ∀ surroundings cache,
      { s with surroundings, cache }.step t =
      ({ (s.step t).1 with surroundings, cache }, (s.step t).2)) ∧
    (∀ function args named store, s.usesSettings (.call function none args named store) = false) ∧
    (∀ fields, s.usesSettings (.configure (some fields)) = false) ∧
    (∀ function on args named store v a made, s.registers.lookup on = some v →
      (s.argumentsOf args named).Gives s.made a made →
      (function ≠ "to_json" ∨ (∀ fields, v ≠ .record .request fields) ∨ a.arg 0 "indent" ≠ .null) →
      s.usesSettings (.call function (some on) args named store) = false) := by
  refine ⟨surroundings_after _ ts, ?_, fun t huse henvironment hclear => ?_,
    fun _ _ _ _ => rfl, fun _ => rfl, fun _ _ _ _ _ _ _ _ hread hargs h =>
    usesSettings_eq_false hread hargs h⟩
  · rw [← lookUp_after rfl]
    exact finds_lookUp _
  · exact step_elsewhere huse henvironment hclear

/-- A step that sets the indentation. -/
def setIndent (value : String) : ScriptStep :=
  ⟨.environment [("CREDHUB_JSON_INDENT", value)] [], false⟩

/-- A look at the settings. -/
def look : ScriptStep :=
  ⟨.settings, false⟩

/-- A first look fails, a second finds an indentation, and a third does not see that it was
changed. -/
theorem settings_law_of_changes :
    ((plainStart.after [setIndent "two", look, setIndent "4", look, setIndent "2"]).step
      look).2.outcome = .ok (.settings ⟨"INFO", "json", true, "credhub-client", true,
      some (.int 4)⟩) := by
  have hlaw := settings_law ⟨[], none⟩ ⟨2024, 1, 2, 3, 4, 5, 0⟩ true
    [setIndent "two", look, setIndent "4", look, setIndent "2"]
  have hfirst : SettingsEvent.firstFound
      (plainStart.eventsOf [setIndent "two", look, setIndent "4", look, setIndent "2"]) =
      some ⟨"INFO", "json", true, "credhub-client", true, some (.int 4)⟩ := by
    decide +kernel
  have hfound : plainStart.found [setIndent "two", look, setIndent "4", look, setIndent "2"] =
      .ok ⟨"INFO", "json", true, "credhub-client", true, some (.int 4)⟩ := by
    rw [found, hfirst]
  exact hlaw.2.1.settings.trans (congrArg (Except.map Answer.settings) hfound)

end Session

end CredentialWrites
