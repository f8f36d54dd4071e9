/-!
# Traces of runs

A run takes one action after the other, each on the state that the one before left. Its trace has an
event for every action, which tells the state before and after it.

* `Trace.run` : the trace of some actions.
* `Trace.inv_of_mem_run`, `Trace.inv_of_run` : what one action preserves holds before every action
  of a run, between the state and the events so far.
-/

namespace CredentialWrites

namespace Trace

variable {S A E : Type} {step : S → A → E} {next : E → S}

/-- The events of some actions, where `step` makes the event of an action and `next` reads the state
after an event. -/
def run (step : S → A → E) (next : E → S) (s : S) : List A → List E
  | [] => []
  | a :: as => step s a :: run step next (next (step s a)) as

/-- The induction over a run: a relation between the events so far and the state, kept by every
action of the run, holds before each of them. -/
theorem inv_of_mem_run {I : List E → S → Prop} {s : S} {as : List A} {before after : List E} {e : E}
    (h : run step next s as = before ++ e :: after) (hs : I [] s)
    (hstep : ∀ es s, ∀ a ∈ as, I es s → I (es ++ [step s a]) (next (step s a))) :
    ∃ s', ∃ a ∈ as, I before s' ∧ e = step s' a := by
  induction as generalizing s before I with
  | nil => simp [run] at h
  | cons a as ih =>
    cases before with
    | nil =>
      simp only [run, List.nil_append, List.cons.injEq] at h
      exact ⟨s, a, List.mem_cons_self, hs, h.1.symm⟩
    | cons b before =>
      simp only [run, List.cons_append, List.cons.injEq] at h
      obtain ⟨rfl, h⟩ := h
      -- the relation for the rest of the run has the first event in front
      obtain ⟨s', a', ha', hI, he⟩ := ih (I := fun es s' => I (step s a :: es) s') h
        (hstep [] s a List.mem_cons_self hs)
        fun es s' a' ha' hes => hstep (step s a :: es) s' a' (List.mem_cons_of_mem _ ha') hes
      exact ⟨s', a', List.mem_cons_of_mem _ ha', hI, he⟩

/-- What every action whatever keeps holds before each event of a run. -/
theorem inv_of_run {I : List E → S → Prop} {s : S} {as : List A} {before after : List E} {e : E}
    (h : run step next s as = before ++ e :: after) (hs : I [] s)
    (hstep : ∀ es s a, I es s → I (es ++ [step s a]) (next (step s a))) :
    ∃ s' a, I before s' ∧ e = step s' a := by
  obtain ⟨s', a, -, hI, he⟩ := inv_of_mem_run h hs fun es s a _ => hstep es s a
  exact ⟨s', a, hI, he⟩

/-- What comes after an event of a run is the run of the actions that are left. -/
theorem exists_run_after {s : S} {as : List A} {before after : List E} {e : E}
    (h : run step next s as = before ++ e :: after) :
    ∃ as', after = run step next (next e) as' := by
  induction as generalizing s before with
  | nil => simp [run] at h
  | cons a as ih =>
    cases before with
    | nil =>
      simp only [run, List.nil_append, List.cons.injEq] at h
      obtain ⟨rfl, rfl⟩ := h
      exact ⟨as, rfl⟩
    | cons b before =>
      simp only [run, List.cons_append, List.cons.injEq] at h
      exact ih h.2

/-- Every event of a run is one of an action of the run. -/
theorem exists_of_mem_run {s : S} {as : List A} {e : E} (h : e ∈ run step next s as) :
    ∃ s', ∃ a ∈ as, e = step s' a := by
  induction as generalizing s with
  | nil => cases h
  | cons a as ih =>
    rcases List.mem_cons.1 h with rfl | h
    · exact ⟨s, a, List.mem_cons_self, rfl⟩
    · obtain ⟨s', a', ha', he⟩ := ih h
      exact ⟨s', a', List.mem_cons_of_mem _ ha', he⟩

/-- What every action keeps holds after all events of a run. -/
theorem forall_mem_run {P : S → Prop} (hstep : ∀ s a, P s → P (next (step s a))) {s : S} (hs : P s)
    {as : List A} : ∀ e ∈ run step next s as, P (next e) := by
  induction as generalizing s with
  | nil => simp [run]
  | cons a as ih =>
    simp only [run, List.forall_mem_cons]
    exact ⟨hstep s a hs, ih (hstep s a hs)⟩

end Trace

end CredentialWrites
