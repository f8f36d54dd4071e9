import CredentialWrites.Proofs.Permission.Calls
import CredentialWrites.Proofs.Trace

/-!
# Runs of a permission builder

Calls and builds follow each other on one builder in any order, and any of the calls may be refused.
What a build answers depends on the accepted calls before it alone: the first actor, which is the
only one, and all operations in the order in which they were asked for.

* `PermissionBuilder.run` : the events of a run.
* `PermissionBuilder.askedFor` : the permission that the accepted calls of some events ask for.
* `PermissionBuilder.run_law` : the law of all runs.
-/

namespace CredentialWrites

namespace PermissionBuilder

/-- An act of a run, with the builder before and after it. -/
structure Event where
  before : PermissionBuilder
  act : Act
  answer : Answer
  records : List LogRecord
  after : PermissionBuilder

/-- The event of an act on a builder. -/
def event (b : PermissionBuilder) (act : Act) : Event :=
  ⟨b, act, (b.perform act).2.1, (b.perform act).2.2, (b.perform act).1⟩

/-- The events of some acts on a new builder, one after the other. -/
def run (acts : List Act) : List Event :=
  Trace.run event Event.after start acts

namespace Event

/-- The call of an event, if it was accepted. -/
def accepted? (e : Event) : Option Call :=
  match e.act, e.answer with
  | .call c, .self => some c
  | _, _ => none

/-- The actor that an accepted call asks for. -/
def actor? (e : Event) : Option Actor :=
  e.accepted?.bind Call.actor?

/-- The operations that an accepted call asks for. -/
def operations (e : Event) : List Operation :=
  (e.accepted?.bind Call.operations?).getD []

end Event

/-- The permission that the accepted calls of some events ask for. -/
def askedFor (es : List Event) : Permission :=
  ⟨(es.filterMap Event.actor?).head?, es.flatMap Event.operations⟩

/-! ### One act -/

variable {b : PermissionBuilder} {act : Act}

/-- What an act can do. -/
theorem event_cases (b : PermissionBuilder) (act : Act) :
    act = .build ∧ event b act = ⟨b, act, .built b.build, [b.build.trace], b⟩ ∨
      (∃ c f, act = .call c ∧ b.set c = .error f ∧ event b act = ⟨b, act, .refused f, [], b⟩) ∨
        ∃ c b', act = .call c ∧ b.set c = .ok b' ∧ event b act = ⟨b, act, .self, [], b'⟩ := by
  cases act with
  | build => exact .inl ⟨rfl, rfl⟩
  | call c =>
    refine .inr ?_
    simp only [event, perform]
    cases h : b.set c with
    | error f => exact .inl ⟨c, f, rfl, h, rfl⟩
    | ok b' => exact .inr ⟨c, b', rfl, h, rfl⟩

theorem Call.operations?_of_actor? {c : Call} {a : Actor} (h : c.actor? = some a) :
    c.operations? = none := by
  cases c <;> first | rfl | cases h

/-- The permission of a builder after an act: an accepted call adds what it asks for, and nothing
else changes. -/
theorem build_after_event (b : PermissionBuilder) (act : Act) :
    (event b act).after.build =
      ⟨b.actor.or (event b act).actor?, b.operations.getD [] ++ (event b act).operations⟩ := by
  obtain ⟨rfl, h⟩ | ⟨c, f, rfl, -, h⟩ | ⟨c, b', rfl, hset, h⟩ := event_cases b act
  · rw [h]; simp [build, Event.actor?, Event.operations, Event.accepted?]
  · rw [h]; simp [build, Event.actor?, Event.operations, Event.accepted?]
  · rw [h]
    obtain ⟨a, ha, hb, rfl⟩ | ⟨ops, hops, rfl⟩ := set_eq_ok_iff.1 hset
    · simp [build, Event.actor?, Event.operations, Event.accepted?, ha, hb,
        Call.operations?_of_actor? ha]
    · -- a call that adds operations asks for no actor
      have ha : c.actor? = none := by
        by_contra hne
        obtain ⟨a, ha⟩ := Option.ne_none_iff_exists'.1 hne
        rw [Call.operations?_of_actor? ha] at hops
        cases hops
      simp [build, Event.actor?, Event.operations, Event.accepted?, ha, hops, addOperations]

/-- A call is accepted if it asks for operations, or for an actor while there is none. -/
theorem answer_self_iff {c : Call} :
    (event b (.call c)).answer = .self ↔
      c.actor?.isSome ∧ b.actor = none ∨ c.operations?.isSome := by
  have hok : (event b (.call c)).answer = .self ↔ ∃ b', b.set c = .ok b' := by
    simp only [event, perform]
    cases b.set c <;> simp
  rw [hok]
  simp only [set_eq_ok_iff, Option.isSome_iff_exists]
  constructor
  · rintro ⟨b', ⟨a, ha, hb, -⟩ | ⟨ops, hops, -⟩⟩
    · exact .inl ⟨⟨a, ha⟩, hb⟩
    · exact .inr ⟨ops, hops⟩
  · rintro (⟨⟨a, ha⟩, hb⟩ | ⟨ops, hops⟩)
    · exact ⟨_, .inl ⟨a, ha, hb, rfl⟩⟩
    · exact ⟨_, .inr ⟨ops, hops, rfl⟩⟩

theorem after_of_refused {f : Fault} (h : (event b act).answer = .refused f) :
    (event b act).after = b := by
  obtain ⟨rfl, he⟩ | ⟨c, g, rfl, -, he⟩ | ⟨c, b', rfl, -, he⟩ := event_cases b act
  · rw [he]
  · rw [he]
  · rw [he] at h; cases h

theorem refused_of_operations?_eq_none {c : Call} (hactor : c.actor? = none)
    (h : c.operations? = none) : ∃ f, (event b (.call c)).answer = .refused f := by
  obtain ⟨hact, -⟩ | ⟨c', f, -, -, he⟩ | ⟨c', b', hact, hset, -⟩ := event_cases b (.call c)
  · cases hact
  · exact ⟨f, by rw [he]⟩
  · cases hact
    obtain ⟨a, ha, -⟩ | ⟨ops, hops, -⟩ := set_eq_ok_iff.1 hset
    · rw [hactor] at ha; cases ha
    · rw [h] at hops; cases hops

/-- An actor that is set stays. -/
theorem actor_after_event {a : Actor} (h : b.actor = some a) :
    (event b act).after.actor = some a := by
  -- a builder that has an actor keeps it, whatever an act would set
  have hbuild := congrArg Permission.actor (build_after_event b act)
  rw [h] at hbuild
  exact hbuild

theorem actor_of_actor? {a : Actor} (h : (event b act).actor? = some a) :
    (event b act).after.actor = some a := by
  -- a call for an actor is accepted only while there is none
  have hnone : b.actor = none := by
    obtain ⟨rfl, he⟩ | ⟨c, f, rfl, -, he⟩ | ⟨c, b', rfl, -, he⟩ := event_cases b act
    · rw [he] at h; cases h
    · rw [he] at h; cases h
    · have hself : (event b (.call c)).answer = .self := by rw [he]
      rw [he] at h
      rcases answer_self_iff.1 hself with ⟨-, hb⟩ | hops
      · exact hb
      · rw [Call.operations?_of_actor? h] at hops; cases hops
  have hbuild := congrArg Permission.actor (build_after_event b act)
  rw [hnone, h] at hbuild
  exact hbuild

/-! ### Runs -/

theorem askedFor_append_singleton (es : List Event) (e : Event) :
    askedFor (es ++ [e]) =
      ⟨(askedFor es).actor.or e.actor?, (askedFor es).operations ++ e.operations⟩ := by
  cases h : e.actor? <;> simp [askedFor, List.head?_append, h]

variable {acts : List Act} {before after : List Event} {e : Event}

/-- Before every event of a run, the builder holds what the accepted calls so far ask for. -/
theorem build_before_event (h : run acts = before ++ e :: after) :
    ∃ b act, b.build = askedFor before ∧ e = event b act := by
  refine Trace.inv_of_run (I := fun es b => b.build = askedFor es) h rfl fun es b act hb => ?_
  rw [build_after_event, askedFor_append_singleton, ← hb]
  rfl

/-- The actor of an accepted call is the builder's from then on. -/
theorem actor_kept (h : run acts = before ++ e :: after) {a : Actor} (ha : e.actor? = some a) :
    ∀ e' ∈ after, e'.after.actor = some a := by
  obtain ⟨b, act, -, rfl⟩ := build_before_event h
  obtain ⟨acts', rfl⟩ := Trace.exists_run_after h
  exact Trace.forall_mem_run (P := fun b : PermissionBuilder => b.actor = some a)
    (fun _ _ => actor_after_event) (actor_of_actor? ha)

theorem answer_of_build (h : run acts = before ++ e :: after) (hact : e.act = .build) :
    e.answer = .built (askedFor before) := by
  obtain ⟨b, act, hb, rfl⟩ := build_before_event h
  obtain rfl : act = .build := hact
  rw [← hb]
  rfl

/-- **The law of runs.** A build answers the permission that the accepted calls before it ask for. A
call is accepted if it asks for operations, or for an actor while there is none; a refused call
leaves the builder as it was, and a batch that holds something else than operations is refused,
wherever that is in it. An actor once accepted is the builder's for good. So two runs of which the
accepted calls ask for the same actor and, one after the other, for the same operations, build the
same permission. -/
theorem run_law (h : run acts = before ++ e :: after) :
    (e.act = .build → e.answer = .built (askedFor before)) ∧
      (∀ c, e.act = .call c →
        (e.answer = .self ↔ c.actor?.isSome ∧ e.before.actor = none ∨ c.operations?.isSome)) ∧
      (∀ f, e.answer = .refused f → e.after = e.before) ∧
      (∀ vs v, e.act = .call (.operations vs) → v ∈ vs → Operation.ofValue? v = none →
        ∃ f, e.answer = .refused f) ∧
      (∀ a, e.actor? = some a → ∀ e' ∈ after, e'.after.actor = some a) ∧
      ∀ acts' before' e' after', run acts' = before' ++ e' :: after' →
        (before'.filterMap Event.actor?).head? = (before.filterMap Event.actor?).head? →
        before'.flatMap Event.operations = before.flatMap Event.operations →
        e.act = .build → e'.act = .build → e'.answer = e.answer := by
  obtain ⟨b, act, -, he⟩ := build_before_event h
  refine ⟨answer_of_build h, ?_, ?_, ?_, fun a => actor_kept h, ?_⟩
  · rintro c hc
    subst he
    obtain rfl : act = .call c := hc
    exact answer_self_iff
  · rintro f hf
    subst he
    exact after_of_refused hf
  · rintro vs v hvs hv hnot
    subst he
    obtain rfl : act = .call (.operations vs) := hvs
    exact refused_of_operations?_eq_none rfl (Option.mapM_eq_none_of_mem hv hnot)
  · intro acts' before' e' after' h' hactor hoperations hact hact'
    rw [answer_of_build h hact, answer_of_build h' hact', askedFor, hactor, hoperations]
    rfl

/-- A second actor and a batch with a missing operation are refused on the way. -/
theorem run_law_of_refusals :
    ∃ before e, run [.call (.app (.text "a/b")), .call (.user (.text "c")),
        .call (.operations [.text " Write", .member (.operation .read)]),
        .call (.operations [.member (.operation .delete), .null]), .build] = before ++ e :: [] ∧
      e.answer = .built ⟨some ⟨.app, .plain "a/b", none⟩, [.write, .read]⟩ := by
  have key (acts : List Act) (p : Permission)
      (h : ∃ before e, run acts = before ++ e :: [] ∧ e.act = .build ∧ askedFor before = p) :
      ∃ before e, run acts = before ++ e :: [] ∧ e.answer = .built p := by
    obtain ⟨before, e, hrun, hact, rfl⟩ := h
    exact ⟨before, e, hrun, (run_law hrun).1 hact⟩
  exact key _ _ ⟨[_, _, _, _], _, rfl, rfl, by decide +kernel⟩

end PermissionBuilder

end CredentialWrites
