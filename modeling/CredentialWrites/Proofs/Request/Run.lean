import CredentialWrites.Proofs.Request.Calls
import CredentialWrites.Proofs.Trace

/-!
# Runs of a request builder

Calls and builds follow each other on one builder in any order, and any of the calls may be refused.
What a build answers depends on the accepted calls before it alone: the last name, the last word on
replacing, the last value of either kind, and all permissions in the order in which they were asked
for.

* `RequestBuilder.run` : the events of a run.
* `RequestBuilder.askedFor` : the request that some changes ask for.
* `RequestBuilder.request_of_run` : what the builds of a run answer.
-/

namespace CredentialWrites

namespace RequestBuilder

/-- An act of a run, with what was made and taken by then. Others may make and take too between the
acts. -/
structure Turn where
  act : Act
  made : Making.State
deriving Repr

/-- A turn of a run, with the builder before and after it. -/
structure Event where
  before : RequestBuilder
  turn : Turn
  answer : Answer
  records : List LogRecord
  after : RequestBuilder

/-- The event of a turn on a builder. -/
def event (b : RequestBuilder) (turn : Turn) : Event :=
  match b.perform turn.act turn.made with
  | (after, answer, records, _) => ⟨b, turn, answer, records, after⟩

/-- The events of some turns on a new builder, one after the other. -/
def run (turns : List Turn) : List Event :=
  Trace.run event Event.after start turns

/-- The change of an event, if its call was accepted. -/
def Event.change? (e : Event) : Option Change :=
  match e.turn.act, e.answer with
  | .call c, .self => c.change? e.turn.made
  | _, _ => none

namespace Change

/-- The name that a change sets. -/
def name? : Change → Option CredentialName
  | .name n => some n
  | _ => none

/-- What a change says about replacing. -/
def overwrite? : Change → Option Bool
  | .overwrite o => some o
  | _ => none

/-- The value that a change sets. -/
def value? : Change → Option CredentialValue
  | .value v => some v
  | _ => none

/-- The permissions that a change adds. -/
def grants : Change → List Grant
  | .permissions gs => gs
  | _ => []

end Change

/-- The request that some changes ask for: the last of a kind counts, and all permissions. -/
def askedFor (changes : List Change) : Request :=
  ⟨(changes.filterMap Change.overwrite?).getLast?.getD false,
    (changes.filterMap Change.name?).getLast?, (changes.filterMap Change.value?).getLast?,
    changes.flatMap Change.grants⟩

/-- The request that the accepted calls of some events ask for. -/
def requested (es : List Event) : Request :=
  askedFor (es.filterMap Event.change?)

/-! ### One turn -/

variable {b : RequestBuilder} {turn : Turn}

/-- What a turn can do. -/
theorem event_cases (b : RequestBuilder) (turn : Turn) :
    turn.act = .build ∧ event b turn = ⟨b, turn, .built b.build, [b.build.trace], b⟩ ∨
      (∃ c f, turn.act = .call c ∧ c.change? turn.made = none ∧ Refusal f ∧
          event b turn = ⟨b, turn, .refused f, [], b⟩) ∨
        ∃ c change records, turn.act = .call c ∧ c.change? turn.made = some change ∧
          event b turn = ⟨b, turn, .self, records, b.apply change⟩ := by
  obtain ⟨act, made⟩ := turn
  cases act with
  | build => exact .inl ⟨rfl, rfl⟩
  | call c =>
    refine .inr ?_
    rcases Making.gives_or_fails (b.set c) made with ⟨⟨b', records⟩, t, h⟩ | ⟨f, t, h⟩
    · obtain ⟨change, hchange, rfl⟩ := gives_set_iff.1 ⟨records, t, h⟩
      refine .inr ⟨c, change, records, rfl, hchange, ?_⟩
      unfold Making.Gives at h
      simp [event, perform, h]
    · refine .inl ⟨c, f, rfl, ?_, refusal_of_fails_set h, ?_⟩
      · -- a call that asks for a change does not fail
        by_contra hne
        obtain ⟨change, hchange⟩ := Option.ne_none_iff_exists'.1 hne
        obtain ⟨records, u, hgives⟩ := (gives_set_iff (b := b)).2 ⟨change, hchange, rfl⟩
        exact hgives.not_fails h
      · unfold Making.Fails at h
        simp [event, perform, h]

theorem build_apply (b : RequestBuilder) (change : Change) :
    (b.apply change).build =
      ⟨change.overwrite?.getD b.overwrite, change.name?.or b.name, change.value?.or b.value,
        b.permissions.getD [] ++ change.grants⟩ := by
  cases change <;> simp [apply, build, addGrants, Change.name?, Change.overwrite?, Change.value?,
    Change.grants]

/-- The request of a builder after a turn. -/
theorem build_after_event (b : RequestBuilder) (turn : Turn) :
    (event b turn).after.build =
      match (event b turn).change? with
      | none => b.build
      | some change => (b.apply change).build := by
  obtain ⟨h, he⟩ | ⟨c, f, h, -, -, he⟩ | ⟨c, change, records, h, hchange, he⟩ := event_cases b turn
  · rw [he]; simp [Event.change?]
  · rw [he]; simp [Event.change?]
  · rw [he]; simp [Event.change?, h, hchange]

/-- A call is accepted if it asks for a change. -/
theorem answer_self_iff {c : Call} (hact : turn.act = .call c) :
    (event b turn).answer = .self ↔ (c.change? turn.made).isSome := by
  obtain ⟨h, he⟩ | ⟨c', f, h, hchange, -, he⟩ | ⟨c', change, records, h, hchange, he⟩ :=
    event_cases b turn
  · rw [h] at hact; cases hact
  · obtain rfl : c' = c := by simpa [h] using hact
    rw [he]; simp [hchange]
  · obtain rfl : c' = c := by simpa [h] using hact
    rw [he]; simp [hchange]

/-- A refused call leaves the builder as it was. -/
theorem after_of_refused {f : Fault} (h : (event b turn).answer = .refused f) :
    (event b turn).after = b ∧ Refusal f := by
  obtain ⟨-, he⟩ | ⟨c, g, -, -, hrefusal, he⟩ | ⟨c, change, records, -, -, he⟩ := event_cases b turn
  · rw [he] at h; cases h
  · rw [he] at h ⊢; cases h; exact ⟨rfl, hrefusal⟩
  · rw [he] at h; cases h

theorem refused_of_change?_eq_none {c : Call} (hact : turn.act = .call c)
    (h : c.change? turn.made = none) : ∃ f, (event b turn).answer = .refused f := by
  obtain ⟨h', -⟩ | ⟨c', f, -, -, -, he⟩ | ⟨c', change, records, h', hchange, -⟩ :=
    event_cases b turn
  · rw [h'] at hact; cases hact
  · exact ⟨f, by rw [he]⟩
  · obtain rfl : c' = c := by simpa [h'] using hact
    rw [h] at hchange; cases hchange

/-- A batch with something else than a permission asks for nothing, wherever that is. -/
theorem change?_of_not_permission {batch v : Value} {s : Making.State} {items : List Value}
    (hitems : batch.left? s = some items) (hv : v ∈ items) (hnot : Grant.ofValue? v = none) :
    (Call.additionalPermissions batch).change? s = none := by
  simp [Call.change?, hitems, Option.mapM_eq_none_of_mem hv hnot]

/-! ### Runs -/

theorem askedFor_append_singleton (changes : List Change) (change : Change) :
    askedFor (changes ++ [change]) =
      ⟨change.overwrite?.getD (askedFor changes).overwrite, change.name?.or (askedFor changes).name,
        change.value?.or (askedFor changes).value,
          (askedFor changes).permissions ++ change.grants⟩ := by
  cases change <;> simp [askedFor, Change.name?, Change.overwrite?, Change.value?, Change.grants]

variable {turns : List Turn} {before after : List Event} {e : Event}

/-- Before every event of a run, the builder holds what the accepted calls so far ask for. -/
theorem build_before_event (h : run turns = before ++ e :: after) :
    ∃ b turn, b.build = requested before ∧ e = event b turn := by
  refine Trace.inv_of_run (I := fun es b => b.build = requested es) h rfl fun es b turn hb => ?_
  rw [build_after_event, requested, List.filterMap_append, List.filterMap_cons, List.filterMap_nil]
  cases (event b turn).change? with
  | none => simpa [requested] using hb
  | some change =>
    simp only [askedFor_append_singleton, build_apply]
    rw [← requested, ← hb]
    rfl

theorem answer_of_build (h : run turns = before ++ e :: after) (hact : e.turn.act = .build) :
    e.answer = .built (requested before) := by
  obtain ⟨b, turn, hb, rfl⟩ := build_before_event h
  obtain ⟨-, he⟩ | ⟨c, f, h, -, -, he⟩ | ⟨c, change, records, h, -, he⟩ := event_cases b turn
  · rw [he, ← hb]
  · rw [he] at hact; rw [h] at hact; cases hact
  · rw [he] at hact; rw [h] at hact; cases hact

/-- **What the builds of a run answer.** A build answers the request that the accepted calls before
it ask for. A call is accepted if it asks for a change; a refused call leaves the builder as it was,
and is refused for its argument or for the type of something in it. A batch of permissions that
holds something else is refused, wherever that is in it. -/
theorem request_of_run (h : run turns = before ++ e :: after) :
    (e.turn.act = .build → e.answer = .built (requested before)) ∧
      (∀ c, e.turn.act = .call c → (e.answer = .self ↔ (c.change? e.turn.made).isSome)) ∧
      (∀ f, e.answer = .refused f → e.after = e.before ∧
        (f.faultClass? = some .invalidArgument ∨ f.faultClass? = some .wrongType)) ∧
      ∀ batch items v, e.turn.act = .call (.additionalPermissions batch) →
        batch.left? e.turn.made = some items → v ∈ items → Grant.ofValue? v = none →
        ∃ f, e.answer = .refused f := by
  have hbuild := answer_of_build h
  obtain ⟨b, turn, -, rfl⟩ := build_before_event h
  refine ⟨hbuild, fun c hc => answer_self_iff hc, fun f hf => ?_, ?_⟩
  · obtain ⟨hafter, hrefusal⟩ := after_of_refused hf
    exact ⟨hafter, hrefusal.faultClass?⟩
  intro batch items v hact hitems hv hnot
  exact refused_of_change?_eq_none hact (change?_of_not_permission hitems hv hnot)

/-- A document with a part that has no copy, a batch with a missing permission and one that yields
nothing are refused on the way. -/
theorem request_of_run_with_refusals :
    ∃ before e, run [
        ⟨.call (.passwordValue (.text "s")), ⟨4, []⟩⟩,
        ⟨.call
          (.jsonValue (.map [0] [(.text "k", .bool true),
          (.text "l", .list [1] [.stream [2] []])])), ⟨5, []⟩⟩,
        ⟨.call (.additionalPermissions (.tuple [.record .permission [.null, .tuple []], .null])),
          ⟨7, []⟩⟩,
        ⟨.call (.additionalPermissions (.stream [3] [.null, .record .permission [.null, .null]])),
          ⟨7, [([3], 1)]⟩⟩,
        ⟨.call (.additionalPermissions (.int 3)), ⟨7, [([3], 2)]⟩⟩,
        ⟨.call (.jsonValue (.view [(.text "k", .list [1] [.bool true])])), ⟨8, [([3], 2)]⟩⟩,
        ⟨.call (.overwrite (.int 1)), ⟨9, [([3], 2)]⟩⟩,
        ⟨.build, ⟨9, [([3], 2)]⟩⟩] = before ++ e :: [] ∧
      e.answer = .built
        ⟨false, none, some (.json [(.text "k", .tuple [.bool true])]), [⟨.null, .null⟩]⟩ := by
  have key (turns : List Turn) (r : Request)
      (h : ∃ before e, run turns = before ++ e :: [] ∧ e.turn.act = .build ∧ requested before = r) :
      ∃ before e, run turns = before ++ e :: [] ∧ e.answer = .built r := by
    obtain ⟨before, e, hrun, hact, rfl⟩ := h
    exact ⟨before, e, hrun, (request_of_run hrun).1 hact⟩
  exact key _ _ ⟨[_, _, _, _, _, _, _], _, rfl, rfl, rfl⟩

end RequestBuilder

end CredentialWrites
