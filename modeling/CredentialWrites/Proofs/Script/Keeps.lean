import CredentialWrites.Proofs.Value.Fresh
import CredentialWrites.Script.Session

/-!
# What a step keeps

A step that fails leaves the session as far as it came. What a step keeps is therefore said of both
endings: an invariant holds of the session that is left, and what the step gives, if it does not
fail, has a property.

* `Session.Run.Keeps` : an invariant is kept, and what is given has a property.
* `Session.Run.Keeps.bind` : the rule for one part of a step after the other.
* `Session.forall_mem_run` : what every step keeps holds after all steps of a run.
-/

namespace CredentialWrites

/-- The expressions of a change. -/
def Change.exprs : Change → List Expr
  | .set key value => [key, value]
  | .delete key => [key]
  | .append value => [value]

namespace Session

namespace Run

variable {α β : Type} {m : Run α} {p : Progress} {I : Session → Prop} {Q R : Session → α → Prop}
  {T : Session → β → Prop}

theorem run_bind (m : Run α) (f : α → Run β) (p : Progress) :
    (m >>= f) p = match (m p : Except Fault α × Progress) with
      | (.ok a, q) => f a q
      | (.error e, q) => (.error e, q) := by
  change (ExceptT.bindCont f (m p).1) (m p).2 = _
  rcases m p with ⟨r, q⟩
  cases r <;> rfl

theorem run_current (p : Progress) : current p = (.ok p.session, p) := rfl

/-- A computation that makes objects leaves the session as it is but for what was made and taken. -/
theorem run_make (m : Making α) (p : Progress) :
    (make m : Run α) p = match (m p.session.made : Except Fault α × Making.State) with
      | (.ok a, made) => (.ok a, { p with session := { p.session with made } })
      | (.error e, made) => (.error e, { p with session := { p.session with made } }) := by
  rw [make, run_bind, run_current]
  dsimp only
  generalize (m p.session.made : Except Fault α × Making.State) = r
  rcases r with ⟨e | a, made⟩
  · rfl
  · rfl

/-- A computation, started at some progress, leaves a session with an invariant, and what it gives
has a property there. -/
def Keeps (m : Run α) (p : Progress) (I : Session → Prop) (Q : Session → α → Prop) : Prop :=
  match (m p : Except Fault α × Progress) with
  | (.ok a, q) => I q.session ∧ Q q.session a
  | (.error _, q) => I q.session

theorem Keeps.of_run_eq {m' : Run α} (h : m.Keeps p I Q)
    (heq : @Eq (Except Fault α × Progress) (m' p) (m p)) : m'.Keeps p I Q := by
  unfold Keeps at h ⊢
  rwa [heq]

theorem Keeps.bind {f : α → Run β} (h : m.Keeps p I Q)
    (hf : ∀ a q, I q.session → Q q.session a → (f a).Keeps q I T) : (m >>= f).Keeps p I T := by
  unfold Keeps at h ⊢
  rw [run_bind]
  rcases hm : (m p : Except Fault α × Progress) with ⟨a | e, q⟩
  · rw [hm] at h
    exact h
  · rw [hm] at h
    exact hf _ q h.1 h.2

theorem Keeps.mono (h : m.Keeps p I Q) (hQ : ∀ s a, I s → Q s a → R s a) : m.Keeps p I R := by
  unfold Keeps at h ⊢
  split at h
  · exact ⟨h.1, hQ _ _ h.1 h.2⟩
  · exact h

/-- An invariant that implies another is kept along with it. -/
theorem Keeps.imp {I' : Session → Prop} (h : m.Keeps p I Q) (hI : ∀ s, I s → I' s) :
    m.Keeps p I' fun s a => I s ∧ Q s a := by
  unfold Keeps at h ⊢
  split at h
  · exact ⟨hI _ h.1, h⟩
  · exact hI _ h

theorem Keeps.map {f : α → β} (h : m.Keeps p I Q) (hf : ∀ s a, I s → Q s a → T s (f a)) :
    (f <$> m).Keeps p I T :=
  h.bind fun a q hI hQ => ⟨hI, hf q.session a hI hQ⟩

theorem keeps_pure {a : α} (hI : I p.session) (hQ : Q p.session a) : (pure a : Run α).Keeps p I Q :=
  ⟨hI, hQ⟩

theorem keeps_throw {f : Fault} (hI : I p.session) : (throw f : Run α).Keeps p I Q :=
  hI

theorem keeps_current (hI : I p.session) :
    current.Keeps p I fun s s' => s = p.session ∧ s' = p.session :=
  ⟨hI, rfl, rfl⟩

theorem keeps_update {f : Session → Session} (hI : I (f p.session)) :
    (update f).Keeps p I fun s _ => s = f p.session :=
  ⟨hI, rfl⟩

theorem keeps_modify {f : Progress → Progress} (hI : I (f p).session) :
    (modify f : Run Unit).Keeps p I fun s _ => s = (f p).session :=
  ⟨hI, rfl⟩

/-- The rule for a computation that makes objects. -/
theorem keeps_make {m : Making α}
    (hI : ∀ made, made = (m p.session.made).2 → I { p.session with made })
    (hQ : ∀ a made, m.Gives p.session.made a made → Q { p.session with made } a) :
    (make m).Keeps p I Q := by
  unfold Keeps
  rw [run_make]
  rcases hm : (m p.session.made : Except Fault α × Making.State) with ⟨e | a, made⟩
  · exact hI made (by rw [hm])
  · exact ⟨hI made (by rw [hm]), hQ a made hm⟩

/-- The rule for a computation of which is known what it gives as time passes. -/
theorem Keeps.of_yields {m : Making α} {Q' : Nat → α → Prop} (h : m.Yields p.session.made Q')
    (hI : ∀ made : Making.State, p.session.made.moment ≤ made.moment → I { p.session with made })
    (hQ : ∀ made a, p.session.made.moment ≤ made.moment → Q' made.moment a →
      Q { p.session with made } a) :
    (make m).Keeps p I Q := by
  refine keeps_make (fun made hmade => hI made ?_) fun a made ha => hQ made a ?_ (h.2 a made ha)
  · rw [hmade]
    exact h.1
  · exact h.moment_le ha

/-- A check that makes nothing leaves the session as it is. -/
theorem keeps_lift {e : Except Fault α} (hI : I p.session) (hQ : ∀ a, e = .ok a → Q p.session a) :
    (make (liftM e)).Keeps p I Q := by
  refine keeps_make (fun made hmade => ?_) fun a made ha => ?_
  · obtain rfl : made = p.session.made := hmade
    exact hI
  · obtain ⟨he, rfl⟩ := Making.gives_lift.1 ha
    exact hQ a he

/-- A register is read without any change. -/
theorem keeps_read {register : String} (hI : I p.session) :
    (read register).Keeps p I fun s v =>
      s = p.session ∧ p.session.registers.lookup register = some v := by
  refine (keeps_current hI).bind fun s q hIq hs => ?_
  obtain ⟨hq, rfl⟩ := hs
  unfold Registers.read
  cases hv : p.session.registers.lookup register with
  | none => exact keeps_throw hIq
  | some v => exact keeps_pure hIq ⟨hq, rfl⟩

/-- What an expression is evaluated to is made like anything else. -/
theorem keeps_eval {e : Expr} {Q : Session → Value → Prop}
    (h : (make (e.eval p.session.registers)).Keeps p I Q) : (eval e).Keeps p I Q := by
  refine h.of_run_eq ?_
  rw [eval, run_bind, run_current]

/-- What a record leaves behind is no part of the session. -/
theorem keeps_emit {r : LogRecord} (hI : I p.session) :
    (emit r).Keeps p I fun s _ => s = p.session := by
  refine (keeps_current hI).bind fun s q hIq hs => ?_
  obtain ⟨hq, rfl⟩ := hs
  have hwrite : ∀ q' : Progress, I q'.session → q'.session = p.session →
      (do
        modify fun q => { q with output := q.output ++ p.session.log.write p.session.now r }
        return true : Run Bool).Keeps q' I fun s _ => s = p.session :=
    fun q' hI' hq' => (keeps_modify hI').bind fun _ _ hI'' hs => keeps_pure hI'' (hs.trans hq')
  dsimp only
  split
  · split
    · split
      · exact (keeps_modify hIq).bind fun _ q' hI' hs => hwrite q' hI' (hs.trans hq)
      · exact (keeps_throw (Q := fun _ _ => False) hIq).bind fun _ _ _ h => h.elim
    · exact hwrite q hIq hq
  · exact keeps_pure hIq hq

theorem keeps_emitAll {rs : List LogRecord} (hI : I p.session) :
    (rs.forM fun r => discard (emit r)).Keeps p I fun s _ => s = p.session := by
  induction rs generalizing p with
  | nil => exact keeps_pure hI rfl
  | cons r rs ih =>
    have hfirst : (discard (emit r)).Keeps p I fun s _ => s = p.session :=
      (keeps_emit hI).map fun _ _ _ hs => hs
    change (discard (emit r) >>= fun _ => rs.forM fun r => discard (emit r)).Keeps p I _
    refine hfirst.bind fun _ q hIq hq => ?_
    rw [← hq]
    exact ih hIq

end Run

/-- A step is what its action does. A quiet one reports less of what it gives. -/
theorem step_of_act {s : Session} {t : ScriptStep} {r : Except Fault Answer} {q : Progress}
    (h : (act t.action) ⟨s, [], []⟩ = (r, q)) :
    (s.step t).1 = q.session ∧ (s.step t).2.outcome.map (fun _ => ()) = r.map (fun _ => ()) ∧
      (s.step t).2.records = q.records ∧ (s.step t).2.output = q.output := by
  have hrun : (act t.action).run.run ⟨s, [], []⟩ = (r, q) := h
  unfold step
  rw [hrun]
  cases t.quiet
  · exact ⟨rfl, rfl, rfl, rfl⟩
  · refine ⟨rfl, ?_, rfl, rfl⟩
    cases r <;> rfl

/-- A step whose action fails is refused for the same fault. -/
theorem step_of_act_error {s : Session} {t : ScriptStep} {f : Fault} {q : Progress}
    (h : (act t.action) ⟨s, [], []⟩ = (.error f, q)) :
    (s.step t).1 = q.session ∧ (s.step t).2.outcome = .error f := by
  obtain ⟨hsession, houtcome, -⟩ := step_of_act h
  refine ⟨hsession, ?_⟩
  cases hstep : (s.step t).2.outcome with
  | error f' =>
    rw [hstep] at houtcome
    cases houtcome
    rfl
  | ok a =>
    rw [hstep] at houtcome
    cases houtcome

/-- A step whose action succeeds has an answer, which is not told if the step is quiet. -/
theorem step_of_act_ok {s : Session} {t : ScriptStep} {a : Answer} {q : Progress}
    (h : (act t.action) ⟨s, [], []⟩ = (.ok a, q)) :
    (s.step t).1 = q.session ∧ ∃ b, (s.step t).2.outcome = .ok b := by
  obtain ⟨hsession, houtcome, -⟩ := step_of_act h
  refine ⟨hsession, ?_⟩
  cases hstep : (s.step t).2.outcome with
  | error f =>
    rw [hstep] at houtcome
    cases houtcome
  | ok b => exact ⟨b, rfl⟩

/-- What a step keeps holds after it. -/
theorem step_of_keeps {s : Session} {t : ScriptStep} {I : Session → Prop}
    {Q : Session → Answer → Prop} (h : (act t.action).Keeps ⟨s, [], []⟩ I Q) : I (s.step t).1 := by
  unfold Run.Keeps at h
  split at h
  · rename_i heq
    rw [(step_of_act heq).1]
    exact h.1
  · rename_i heq
    rw [(step_of_act heq).1]
    exact h

/-- A step that cannot give anything fails. -/
theorem outcome_of_keeps {s : Session} {t : ScriptStep} {I : Session → Prop}
    (h : (act t.action).Keeps ⟨s, [], []⟩ I fun _ _ => False) :
    ∃ f, (s.step t).2.outcome = .error f := by
  unfold Run.Keeps at h
  split at h
  · exact h.2.elim
  · rename_i f q heq
    obtain ⟨-, houtcome, -⟩ := step_of_act heq
    refine ⟨f, ?_⟩
    cases hr : (s.step t).2.outcome <;> rw [hr] at houtcome <;> cases houtcome
    rfl

/-- What every step keeps and reports holds after all steps of a run. -/
theorem forall_mem_run {I : Session → Prop} {R : Report → Prop} {ts : List ScriptStep}
    (hstep : ∀ s t, t ∈ ts → I s → I (s.step t).1 ∧ R (s.step t).2) {s : Session} (hs : I s) :
    ∀ x ∈ s.run ts, I x.1 ∧ R x.2 := by
  induction ts generalizing s with
  | nil => simp [run]
  | cons t ts ih =>
    rw [run, List.forall_mem_cons]
    have hnext := hstep s t (List.mem_cons_self ..) hs
    exact ⟨hnext, ih (fun s' t' ht' => hstep s' t' (List.mem_cons_of_mem _ ht')) hnext.1⟩

/-- The session after some steps. -/
def after (s : Session) (ts : List ScriptStep) : Session :=
  ts.foldl (fun s t => (s.step t).1) s

/-- What every step keeps holds after all of them. -/
theorem after_of_step {I : Session → Prop} {ts : List ScriptStep}
    (hstep : ∀ s t, t ∈ ts → I s → I (s.step t).1) {s : Session} (hs : I s) : I (s.after ts) := by
  induction ts generalizing s with
  | nil => exact hs
  | cons t ts ih =>
    have hnext := hstep s t (List.mem_cons_self ..) hs
    exact ih (fun s' t' ht' => hstep s' t' (List.mem_cons_of_mem _ ht')) hnext

end Session

end CredentialWrites
