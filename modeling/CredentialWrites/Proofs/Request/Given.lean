import CredentialWrites.Proofs.Request.Run

/-!
# What a request was given

The value of a built request was made from the argument of the last accepted value call before the
build: a text is kept as it is, and a mapping is frozen.

* `RequestBuilder.given` : the argument of the last accepted value call.
* `RequestBuilder.MadeFrom` : a credential value was made from an argument.
* `RequestBuilder.madeFrom_of_built` : the value of a built request was made from what was given.
-/

namespace CredentialWrites

namespace RequestBuilder

open Making

/-- The argument of a call that sets a value. -/
def Call.given? : Call → Option Value
  | .passwordValue v => some v
  | .jsonValue v => some v
  | _ => none

/-- The value that an accepted call was given. -/
def Event.given? (e : Event) : Option Value :=
  match e.turn.act, e.answer with
  | .call c, .self => c.given?
  | _, _ => none

/-- The argument of the last accepted value call of some events, null if there is none. -/
def given (es : List Event) : Value :=
  ((es.filterMap Event.given?).getLast?).getD .null

/-- A credential value was made from an argument. -/
inductive MadeFrom (v : Value) : CredentialValue → Prop where
  | password {w : Word} (h : v.word? = some w) : MadeFrom v (.password w)
  | json {es : List (Value × Value)} {s t : State} (h : v.freezeMapping.Gives s (.view es) t) :
    MadeFrom v (.json es)

theorem given?_of_change? {c : Call} {s : State} {change : Change} (h : c.change? s = some change) :
    (c.given? = none ∧ change.value? = none) ∨
      ∃ v value, c.given? = some v ∧ change.value? = some value ∧ MadeFrom v value := by
  cases c with
  | passwordValue v =>
    obtain ⟨w, hw, rfl⟩ := Option.map_eq_some_iff.1 h
    exact .inr ⟨v, .password w, rfl, rfl, .password hw⟩
  | jsonValue v =>
    obtain ⟨value, hvalue, rfl⟩ := Option.map_eq_some_iff.1 h
    obtain ⟨frozen, hfrozen, hvalue⟩ := Option.bind_eq_some_iff.1 hvalue
    obtain ⟨t, hfrozen⟩ := given?_eq_some_iff.1 hfrozen
    refine .inr ⟨v, value, rfl, rfl, ?_⟩
    cases frozen <;> cases hvalue
    exact .json hfrozen
  | name v =>
    obtain ⟨n, -, rfl⟩ := Option.map_eq_some_iff.1 h
    exact .inl ⟨rfl, rfl⟩
  | overwrite v =>
    obtain ⟨o, -, rfl⟩ := Option.map_eq_some_iff.1 h
    exact .inl ⟨rfl, rfl⟩
  | additionalPermission v =>
    obtain ⟨g, -, rfl⟩ := Option.map_eq_some_iff.1 h
    exact .inl ⟨rfl, rfl⟩
  | additionalPermissions v =>
    obtain ⟨gs, -, rfl⟩ := Option.map_eq_some_iff.1 h
    exact .inl ⟨rfl, rfl⟩

theorem value_apply (b : RequestBuilder) (change : Change) :
    (b.apply change).value = change.value?.or b.value := by
  cases change <;> rfl

/-- What the builder holds as a value after a turn was made from what the turn was given, or it is
what it held. -/
theorem madeFrom_after_event {o : Option Value} {b : RequestBuilder} (turn : Turn)
    (h : Option.Rel MadeFrom o b.value) :
    Option.Rel MadeFrom ((event b turn).given?.or o) (event b turn).after.value := by
  obtain ⟨hact, he⟩ | ⟨c, f, hact, -, -, he⟩ | ⟨c, change, records, hact, hchange, he⟩ :=
    event_cases b turn
  · rw [he]; simpa [Event.given?] using h
  · rw [he]; simpa [Event.given?] using h
  · rw [he, value_apply]
    obtain ⟨hgiven, hvalue⟩ | ⟨v, value, hgiven, hvalue, hmade⟩ := given?_of_change? hchange
    · simpa [Event.given?, hact, hgiven, hvalue] using h
    · simpa [Event.given?, hact, hgiven, hvalue] using Option.Rel.some hmade

variable {turns : List Turn} {before after : List Event} {e : Event}

theorem madeFrom_before_event (h : run turns = before ++ e :: after) :
    ∃ b turn, Option.Rel MadeFrom (before.filterMap Event.given?).getLast? b.value ∧
      e = event b turn := by
  refine Trace.inv_of_run
    (I := fun es b => Option.Rel MadeFrom (es.filterMap Event.given?).getLast? b.value) h .none
    fun es b turn hb => ?_
  rw [List.filterMap_append, List.getLast?_append]
  -- the last value given is that of the new event, if it was given one
  have hlast : ([event b turn].filterMap Event.given?).getLast? = (event b turn).given? := by
    cases h : (event b turn).given? <;> simp [h]
  rw [hlast]
  exact madeFrom_after_event turn hb

/-- The value of a built request was made from what was given. -/
theorem madeFrom_of_built (h : run turns = before ++ e :: after) {r : Request}
    (hr : e.answer = .built r) : Option.Rel MadeFrom
      (before.filterMap Event.given?).getLast? r.value := by
  obtain ⟨b, turn, hmade, rfl⟩ := madeFrom_before_event h
  obtain ⟨-, he⟩ | ⟨c, f, -, -, -, he⟩ | ⟨c, change, records, -, -, he⟩ := event_cases b turn
  · rw [he] at hr; cases hr; exact hmade
  · rw [he] at hr; cases hr
  · rw [he] at hr; cases hr

end RequestBuilder

end CredentialWrites
