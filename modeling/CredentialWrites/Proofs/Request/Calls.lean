import CredentialWrites.Proofs.Making
import CredentialWrites.Proofs.Permission.Calls
import CredentialWrites.Proofs.Value.Uncopyable
import CredentialWrites.Request

/-!
# The calls on a request builder

A call asks for one change: a name, whether an existing credential is replaced, a value, or more
permissions. What it asks for is told by its argument, and by what is left in it if that is a
stream. A call is accepted if it asks for a change, whatever the builder holds.

* `RequestBuilder.Change` : what a call can ask for.
* `RequestBuilder.Call.change?` : what a call asks for.
* `RequestBuilder.gives_set_iff` : the calls that are accepted, and what they do.
-/

namespace CredentialWrites

namespace Making

/-- What a computation gives, if it does not fail. -/
def given? {α : Type} (m : Making α) (s : State) : Option α :=
  (m s).1.toOption

theorem given?_eq_some_iff {α : Type} {m : Making α} {s : State} {a : α} :
    m.given? s = some a ↔ ∃ t, m.Gives s a t := by
  simp only [given?, Gives]
  rcases m s with ⟨r, u⟩
  cases r with
  | ok b => simp [Except.toOption]
  | error f => simp [Except.toOption]

end Making

namespace RequestBuilder

open Making

/-- What a call can ask for. -/
inductive Change where
  | name (n : CredentialName)
  | overwrite (o : Bool)
  | value (v : CredentialValue)
  | permissions (gs : List Grant)
deriving Repr

/-- The builder with a change. -/
def apply (b : RequestBuilder) : Change → RequestBuilder
  | .name n => { b with name := some n }
  | .overwrite o => { b with overwrite := o }
  | .value v => { b with value := some v }
  | .permissions gs => b.addGrants gs

/-- The name that an argument is or spells. -/
def nameIn? : Value → Option CredentialName
  | .record .name [w] => w.word?.map CredentialName.mk
  | v => v.word?.map CredentialName.mk

/-- The value of a frozen mapping. -/
def valueOfFrozen? : Value → Option CredentialValue
  | .view es => some (.json es)
  | _ => none

/-- What a call asks for. A mapping has to be frozen as a whole, and of several permissions each has
to be one. -/
def Call.change? (s : State) : Call → Option Change
  | .passwordValue v => v.word?.map fun w => .value (.password w)
  | .jsonValue v => ((v.freezeMapping.given? s).bind valueOfFrozen?).map .value
  | .name v => (nameIn? v).map .name
  | .overwrite v => (overwriteOf? v).map .overwrite
  | .additionalPermission v => (Grant.ofValue? v).map fun g => .permissions [g]
  | .additionalPermissions v =>
    ((v.left? s).bind fun items => items.mapM Grant.ofValue?).map .permissions

/-! ### Arguments -/

theorem nameIn?_eq {v : Value} (h : ∀ w, v ≠ .record .name [w]) :
    nameIn? v = v.word?.map CredentialName.mk := by
  unfold nameIn?
  split
  · exact absurd rfl (h _)
  · rfl

theorem nameOf_eq_ok_iff {v : Value} {n : CredentialName} :
    nameOf v = .ok n ↔ nameIn? v = some n := by
  unfold nameOf
  split
  · simp [nameIn?, Value.word?]
  · unfold nameIn?
    split <;> simp_all
  · rename_i hv
    rw [nameIn?_eq fun w => hv w]
    split <;> simp_all

theorem overwriteOf_eq_ok_iff {v : Value} {o : Bool} :
    overwriteOf v = .ok o ↔ overwriteOf? v = some o := by
  unfold overwriteOf overwriteOf?
  split <;> simp

theorem grant_eq_ok_iff {v : Value} {g : Grant} :
    Grant.ofValue v = .ok g ↔ Grant.ofValue? v = some g := by
  unfold Grant.ofValue Grant.ofValue?
  split <;> simp

theorem grants_eq_ok_iff {vs : List Value} {gs : List Grant} :
    vs.mapM Grant.ofValue = .ok gs ↔ vs.mapM Grant.ofValue? = some gs :=
  Except.mapM_eq_ok_iff fun _ _ => grant_eq_ok_iff

variable {s t : State} {v : Value}

theorem mapping_eq_ok_iff {es : List (Value × Value)} {field : String} :
    Argument.mapping field v = .ok es ↔ v.entries? = some es := by
  unfold Argument.mapping
  split
  · simp [Value.entries?]
  · split <;> simp_all

theorem present_eq_ok_iff {w : Value} {field : String} :
    Argument.present field v = .ok w ↔ v ≠ .null ∧ v = w := by
  unfold Argument.present
  split <;> simp_all

/-- A mapping becomes the value of its frozen entries. -/
theorem gives_freezeMapping_iff {es : List (Value × Value)} (h : v.entries? = some es) {w : Value} :
    (∃ t, v.freezeMapping.Gives s w t) ↔
      ∃ es', w = .view es' ∧ ∃ t, (Value.freezeEntries es).Gives s es' t := by
  simp only [Value.freezeMapping, h, gives_bind, gives_pure]
  constructor
  · rintro ⟨_, es', t, hes, rfl, -⟩; exact ⟨es', rfl, t, hes⟩
  · rintro ⟨es', rfl, t, hes⟩; exact ⟨t, es', t, hes, rfl, rfl⟩

theorem gives_ofMapping_iff {field : String} {value : CredentialValue} :
    (∃ t, Gives (liftM (Argument.mapping field v) >>= CredentialValue.ofMapping) s value t) ↔
      (v.freezeMapping.given? s).bind valueOfFrozen? = some value := by
  simp only [gives_bind, gives_lift, mapping_eq_ok_iff, Option.bind_eq_some_iff, given?_eq_some_iff]
  cases h : v.entries? with
  | none => simp [Value.freezeMapping, h, not_gives_fail]
  | some es =>
    simp only [gives_freezeMapping_iff h, CredentialValue.ofMapping, gives_bind, gives_pure]
    constructor
    · rintro ⟨_, _, _, ⟨⟨⟩, rfl⟩, es', t, hes, rfl, -⟩; exact ⟨_, ⟨es', rfl, t, hes⟩, rfl⟩
    · rintro ⟨_, ⟨es', rfl, t, hes⟩, ⟨⟩⟩; exact ⟨t, es, s, ⟨rfl, rfl⟩, es', t, hes, rfl, rfl⟩

theorem left?_null : Value.left? .null s = none :=
  rfl

theorem gives_grantsOf_iff {gs : List Grant} :
    (∃ t, (grantsOf v).Gives s gs t) ↔
      ((v.left? s).bind fun items => items.mapM Grant.ofValue?) = some gs := by
  simp only [grantsOf, gives_bind, gives_lift, present_eq_ok_iff, grants_eq_ok_iff,
    Option.bind_eq_some_iff]
  constructor
  · rintro ⟨_, _, _, ⟨⟨-, rfl⟩, rfl⟩, items, _, hitems, hgs, -⟩
    exact ⟨items, Value.left?_of_gives_takeItems hitems, hgs⟩
  · rintro ⟨items, hitems, hgs⟩
    obtain ⟨t, ht⟩ := Value.gives_takeItems_of_left? hitems
    -- null is refused before it is asked for its items, of which it has none
    have hv : v ≠ .null := by
      rintro rfl
      rw [left?_null] at hitems
      cases hitems
    exact ⟨t, v, s, ⟨⟨hv, rfl⟩, rfl⟩, items, t, ht, hgs, rfl⟩

/-! ### Calls -/

variable {b b' : RequestBuilder}

/-- A call that checks its argument first and changes the builder then. -/
theorem gives_checked_iff {α : Type} {m : Making α} {f : α → RequestBuilder × List LogRecord}
    {p : α → Prop} (h : ∀ a, (∃ u, m.Gives s a u) ↔ p a) :
    (∃ records t, (m >>= fun a => pure (f a)).Gives s (b', records) t) ↔ ∃ a, p a ∧
      (f a).1 = b' := by
  simp only [gives_bind, gives_pure, ← h]
  constructor
  · rintro ⟨records, t, a, u, ha, hf, -⟩
    exact ⟨a, ⟨u, ha⟩, by rw [hf]⟩
  · rintro ⟨a, ⟨u, ha⟩, rfl⟩
    exact ⟨(f a).2, u, a, u, ha, rfl, rfl⟩

theorem gives_lifted_iff {α : Type} {e : Except Fault α} {o : Option α}
    (h : ∀ a, e = .ok a ↔ o = some a) (a : α) :
    (∃ u, (liftM e : Making α).Gives s a u) ↔ o = some a := by
  simp [gives_lift, h]

/-- The calls that are accepted, and what they do: one that asks for a change applies it. -/
theorem gives_set_iff {c : Call} :
    (∃ records t, (b.set c).Gives s (b', records) t) ↔
      ∃ change, c.change? s = some change ∧ b.apply change = b' := by
  cases c with
  | passwordValue v =>
    simp only [set, gives_checked_iff (gives_lifted_iff fun _ => Argument.word_eq_ok_iff),
      Call.change?, Option.map_eq_some_iff, exists_exists_and_eq_and]
    rfl
  | jsonValue v =>
    -- the check and the freezing are taken together as what comes before the change
    simp only [set, ← bind_assoc, gives_checked_iff fun _ => gives_ofMapping_iff, Call.change?,
      Option.map_eq_some_iff, exists_exists_and_eq_and]
    rfl
  | name v =>
    simp only [set, gives_checked_iff (gives_lifted_iff fun _ => nameOf_eq_ok_iff), Call.change?,
      Option.map_eq_some_iff, exists_exists_and_eq_and]
    rfl
  | overwrite v =>
    simp only [set, gives_checked_iff (gives_lifted_iff fun _ => overwriteOf_eq_ok_iff),
      Call.change?, Option.map_eq_some_iff, exists_exists_and_eq_and]
    rfl
  | additionalPermission v =>
    simp only [set, gives_checked_iff (gives_lifted_iff fun _ => grant_eq_ok_iff), Call.change?,
      Option.map_eq_some_iff, exists_exists_and_eq_and]
    rfl
  | additionalPermissions v =>
    simp only [set, gives_checked_iff fun _ => gives_grantsOf_iff, Call.change?,
      Option.map_eq_some_iff, exists_exists_and_eq_and]
    rfl

/-! ### Refusals -/

/-- The faults of refused calls: an argument is refused, yields nothing or has a part without a
copy. -/
inductive Refusal : Fault → Prop where
  | argument (cause : ArgumentFault) : Refusal (.argument cause)
  | notIterable (kind : String) : Refusal (.notIterable kind)
  | uncopyable (kind : String) : Refusal (.uncopyable kind)

theorem Refusal.faultClass? {f : Fault} (h : Refusal f) :
    f.faultClass? = some .invalidArgument ∨ f.faultClass? = some .wrongType := by
  cases h with
  | argument cause => exact .inl rfl
  | notIterable kind => exact .inr rfl
  | uncopyable kind => exact .inr rfl

theorem refusal_of_word {field : String} {f : Fault} (h : Argument.word field v = .error f) :
    Refusal f := by
  unfold Argument.word at h
  split at h
  · cases h; exact .argument _
  · split at h <;> cases h
    exact .argument _

theorem refusal_of_mapping {field : String} {f : Fault} (h : Argument.mapping field v = .error f) :
    Refusal f := by
  unfold Argument.mapping at h
  split at h
  · cases h; exact .argument _
  · split at h <;> cases h
    exact .argument _

theorem refusal_of_present {field : String} {f : Fault} (h : Argument.present field v = .error f) :
    Refusal f := by
  unfold Argument.present at h
  split at h <;> cases h
  exact .argument _

theorem refusal_of_nameOf {f : Fault} (h : nameOf v = .error f) : Refusal f := by
  unfold nameOf at h
  split at h
  · cases h; exact .argument _
  · split at h <;> cases h
    exact .argument _
  · split at h <;> cases h
    exact .argument _

theorem refusal_of_overwriteOf {f : Fault} (h : overwriteOf v = .error f) : Refusal f := by
  unfold overwriteOf at h
  split at h <;> cases h
  exact .argument _

theorem refusal_of_grant {f : Fault} (h : Grant.ofValue v = .error f) : Refusal f := by
  unfold Grant.ofValue at h
  split at h <;> cases h
  · exact .argument _
  · exact .argument _

theorem refusal_of_grants {vs : List Value} {f : Fault} (h : vs.mapM Grant.ofValue = .error f) :
    Refusal f := by
  induction vs with
  | nil => cases h
  | cons v vs ih =>
    rw [List.mapM_cons] at h
    rcases Except.bind_eq_error.1 h with h | ⟨g, -, h⟩
    · exact refusal_of_grant h
    · rcases Except.bind_eq_error.1 h with h | ⟨gs, -, h⟩
      · exact ih h
      · cases h

theorem refusal_of_grantsOf {f : Fault} (h : (grantsOf v).Fails s f t) : Refusal f := by
  rcases fails_bind.1 h with h | ⟨w, u, -, h⟩
  · exact refusal_of_present (fails_lift.1 h).1
  · rcases fails_bind.1 h with h | ⟨items, u, -, h⟩
    · obtain ⟨-, kind, rfl⟩ := Value.fails_forEach (fun _ _ _ _ => not_fails_pure) h
      exact .notIterable kind
    · exact refusal_of_grants (fails_lift.1 h).1

theorem fails_of_fails_checked {α : Type} {m : Making α} {g : α → RequestBuilder × List LogRecord}
    {f : Fault} (h : (m >>= fun a => pure (g a)).Fails s f t) : m.Fails s f t := by
  rcases fails_bind.1 h with h | ⟨a, u, -, h⟩
  · exact h
  · exact absurd h not_fails_pure

/-- A call that fails refuses its argument, has nothing to yield from it or finds a part without a
copy. -/
theorem refusal_of_fails_set {c : Call} {f : Fault} (h : (b.set c).Fails s f t) : Refusal f := by
  cases c with
  | passwordValue v => exact refusal_of_word (fails_lift.1 (fails_of_fails_checked h)).1
  | jsonValue v =>
    rcases fails_bind.1 h with h | ⟨es, u, -, h⟩
    · exact refusal_of_mapping (fails_lift.1 h).1
    · rcases fails_bind.1 (fails_of_fails_checked h) with h | ⟨es', u, -, h⟩
      · obtain ⟨kind, rfl⟩ := Value.fails_freezeEntries h
        exact .uncopyable kind
      · exact absurd h not_fails_pure
  | name v => exact refusal_of_nameOf (fails_lift.1 (fails_of_fails_checked h)).1
  | overwrite v => exact refusal_of_overwriteOf (fails_lift.1 (fails_of_fails_checked h)).1
  | additionalPermission v => exact refusal_of_grant (fails_lift.1 (fails_of_fails_checked h)).1
  | additionalPermissions v => exact refusal_of_grantsOf (fails_of_fails_checked h)

end RequestBuilder

end CredentialWrites
