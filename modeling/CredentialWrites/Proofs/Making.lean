import CredentialWrites.Value.Access
import Mathlib.Data.List.Forall2

/-!
# Reasoning about computations that make objects

A computation that makes objects and takes from streams either gives a value or fails, and leaves a
state either way.

* `Making.Gives` : a computation gives a value and leaves a state.
* `Making.Fails` : a computation fails and leaves a state.
* `Making.gives_bind`, `Making.fails_bind` : a sequence of computations is taken apart at its first
  step.
* `Value.left?` : the items that a value has left to yield, which are all those that
  `Value.takeItems` takes from it.
-/

namespace CredentialWrites

theorem Except.pure_eq_ok {ε α : Type} {a b : α} : (pure a : Except ε α) = .ok b ↔ a = b := by
  simp [pure, Except.pure]

theorem Except.bind_eq_ok {ε α β : Type} {x : Except ε α} {f : α → Except ε β} {b : β} :
    x >>= f = .ok b ↔ ∃ a, x = .ok a ∧ f a = .ok b := by
  cases x <;> simp [bind, Except.bind]

theorem Except.bind_eq_error {ε α β : Type} {x : Except ε α} {f : α → Except ε β} {e : ε} :
    x >>= f = .error e ↔ x = .error e ∨ ∃ a, x = .ok a ∧ f a = .error e := by
  cases x <;> simp [bind, Except.bind]

/-- A check of each item that agrees with a choice for each. -/
theorem Except.mapM_eq_ok_iff {ε α β : Type} {f : α → Except ε β} {g : α → Option β}
    (h : ∀ a b, f a = .ok b ↔ g a = some b) {as : List α} {bs : List β} :
    as.mapM f = .ok bs ↔ as.mapM g = some bs := by
  induction as generalizing bs with
  | nil => simp [Except.pure_eq_ok]
  | cons a as ih =>
    simp only [List.mapM_cons, Except.bind_eq_ok, h, ih, Except.pure_eq_ok, Option.bind_eq_bind,
      Option.bind_eq_some_iff, Option.pure_def, Option.some.injEq]

theorem Except.mapM_eq_ok_iff_forall₂ {ε α β : Type} {f : α → Except ε β} {as : List α}
    {bs : List β} : as.mapM f = .ok bs ↔ List.Forall₂ (fun a b => f a = .ok b) as bs := by
  induction as generalizing bs with
  | nil => cases bs <;> simp [Except.pure_eq_ok]
  | cons a as ih =>
    simp only [List.mapM_cons, Except.bind_eq_ok, Except.pure_eq_ok, ih]
    constructor
    · rintro ⟨b, hb, bs, hbs, rfl⟩
      exact .cons hb hbs
    · rintro (_ | ⟨hb, hbs⟩)
      exact ⟨_, hb, _, hbs, rfl⟩

/-- The first item that fails decides how the whole list does. -/
theorem Except.mapM_eq_error {ε α β : Type} {f : α → Except ε β} {before after : List α} {a : α}
    {e : ε} (hbefore : ∀ a ∈ before, ∃ b, f a = .ok b) (ha : f a = .error e) :
    (before ++ a :: after).mapM f = .error e := by
  induction before with
  | nil => simp [ha, bind, Except.bind]
  | cons a' before ih =>
    obtain ⟨b, hb⟩ := hbefore a' List.mem_cons_self
    simp [hb, ih fun a h => hbefore a (List.mem_cons_of_mem _ h), bind, Except.bind]

theorem Option.mapM_eq_some_iff {α β : Type} {f : α → Option β} {as : List α} {bs : List β} :
    as.mapM f = some bs ↔ List.Forall₂ (fun a b => f a = some b) as bs := by
  induction as generalizing bs with
  | nil => cases bs <;> simp
  | cons a as ih =>
    simp only [List.mapM_cons, Option.bind_eq_bind, Option.bind_eq_some_iff, Option.pure_def,
      Option.some.injEq, ih]
    constructor
    · rintro ⟨b, hb, bs, hbs, rfl⟩
      exact .cons hb hbs
    · rintro (_ | ⟨hb, hbs⟩)
      exact ⟨_, hb, _, hbs, rfl⟩

/-- One item without a choice is enough for the whole list to have none. -/
theorem Option.mapM_eq_none_of_mem {α β : Type} {f : α → Option β} {as : List α} {a : α}
    (ha : a ∈ as) (h : f a = none) : as.mapM f = none := by
  induction as with
  | nil => cases ha
  | cons b as ih =>
    rw [List.mapM_cons]
    rcases List.mem_cons.1 ha with rfl | ha
    · rw [h]; rfl
    · rw [ih ha]; cases f b <;> rfl

theorem forall₂_comp {α β γ : Type} {p : α → β → Prop} {q : β → γ → Prop} {r : α → γ → Prop}
    (h : ∀ a b c, p a b → q b c → r a c) {as : List α} {bs : List β} {cs : List γ}
    (hp : List.Forall₂ p as bs) (hq : List.Forall₂ q bs cs) : List.Forall₂ r as cs := by
  induction hp generalizing cs with
  | nil =>
    cases hq
    exact .nil
  | cons hab _ ih =>
    obtain _ | ⟨hbc, hq⟩ := hq
    exact .cons (h _ _ _ hab hbc) (ih hq)

theorem Except.map_eq_ok {ε α β : Type} {f : α → β} {x : Except ε α} {b : β} :
    f <$> x = .ok b ↔ ∃ a, x = .ok a ∧ f a = b := by
  cases x <;> simp [Functor.map, Except.map]

namespace Making

variable {α β : Type} {s t : State}

/-- The computation, started in the state `s`, gives `a` and leaves the state `t`. -/
def Gives (m : Making α) (s : State) (a : α) (t : State) : Prop :=
  @Eq (Except Fault α × State) (m s) (.ok a, t)

/-- The computation, started in the state `s`, fails with `f` and leaves the state `t`. -/
def Fails (m : Making α) (s : State) (f : Fault) (t : State) : Prop :=
  @Eq (Except Fault α × State) (m s) (.error f, t)

theorem run_bind (m : Making α) (f : α → Making β) (s : State) :
    (m >>= f) s = match m s with
      | (.ok a, u) => f a u
      | (.error e, u) => (.error e, u) := by
  change (ExceptT.bindCont f (m s).1) (m s).2 = _
  rcases m s with ⟨r, u⟩
  cases r <;> rfl

theorem gives_bind {m : Making α} {f : α → Making β} {b : β} :
    (m >>= f).Gives s b t ↔ ∃ a u, m.Gives s a u ∧ (f a).Gives u b t := by
  simp only [Gives, run_bind]
  rcases m s with ⟨r, u⟩
  cases r with
  | ok a =>
    constructor
    · intro h; exact ⟨a, u, rfl, h⟩
    · rintro ⟨_, _, ⟨⟩, h⟩; exact h
  | error e => simp

theorem fails_bind {m : Making α} {f : α → Making β} {e : Fault} :
    (m >>= f).Fails s e t ↔ m.Fails s e t ∨ ∃ a u, m.Gives s a u ∧ (f a).Fails u e t := by
  simp only [Gives, Fails, run_bind]
  rcases m s with ⟨r, u⟩
  cases r with
  | ok a =>
    constructor
    · intro h; exact .inr ⟨a, u, rfl, h⟩
    · rintro (⟨⟨⟩⟩ | ⟨_, _, ⟨⟩, h⟩); exact h
  | error e => simp

theorem gives_pure {a b : α} : (pure a : Making α).Gives s b t ↔ a = b ∧ s = t := by
  change (Except.ok a, s) = (Except.ok b, t) ↔ _
  simp

theorem not_fails_pure {a : α} {f : Fault} : ¬ (pure a : Making α).Fails s f t := by
  change (Except.ok a, s) ≠ (Except.error f, t)
  simp

theorem gives_lift {e : Except Fault α} {a : α} :
    (liftM e : Making α).Gives s a t ↔ e = .ok a ∧ s = t := by
  change (e, s) = (Except.ok a, t) ↔ _
  simp

theorem fails_lift {e : Except Fault α} {f : Fault} :
    (liftM e : Making α).Fails s f t ↔ e = .error f ∧ s = t := by
  change (e, s) = (Except.error f, t) ↔ _
  simp

theorem not_gives_fail {f : Fault} {a : α} : ¬ (fail f : Making α).Gives s a t := by
  change (Except.error f, s) ≠ (Except.ok a, t)
  simp

/-- What gives a value was not refused before. -/
theorem gives_unless {p : Prop} [Decidable p] {f : Fault} {m : Making α} {a : α} :
    (if p then fail f else m).Gives s a t ↔ ¬ p ∧ m.Gives s a t := by
  by_cases hp : p
  · simp [hp, not_gives_fail]
  · simp [hp]

/-- What gives a value was admitted before. -/
theorem gives_provided {p : Prop} [Decidable p] {f : Fault} {m : Making α} {a : α} :
    (if p then m else fail f).Gives s a t ↔ p ∧ m.Gives s a t := by
  by_cases hp : p
  · simp [hp]
  · simp [hp, not_gives_fail]

theorem fails_fail {f g : Fault} : (fail f : Making α).Fails s g t ↔ f = g ∧ s = t := by
  change (Except.error f, s) = (Except.error g, t) ↔ _
  simp

/-- Every computation gives a value or fails. -/
theorem gives_or_fails (m : Making α) (s : State) :
    (∃ a t, m.Gives s a t) ∨ ∃ f t, m.Fails s f t := by
  simp only [Gives, Fails]
  rcases m s with ⟨r, u⟩
  cases r with
  | ok a => exact .inl ⟨a, u, rfl⟩
  | error f => exact .inr ⟨f, u, rfl⟩

theorem Gives.not_fails {m : Making α} {a : α} (h : m.Gives s a t) {f : Fault} {u : State} :
    ¬ m.Fails s f u := by
  unfold Gives at h
  simp [Fails, h]

/-- A computation gives one value and leaves one state. -/
theorem Gives.unique {m : Making α} {a b : α} {u : State} (h : m.Gives s a t) (h' : m.Gives s b u) :
    a = b ∧ t = u := by
  unfold Gives at h h'
  rw [h] at h'
  simpa using h'

theorem gives_tick {n : Nat} :
    tick.Gives s n t ↔ s.moment = n ∧ { s with moment := s.moment + 1 } = t := by
  change (Except.ok s.moment, { s with moment := s.moment + 1 }) = (Except.ok n, t) ↔ _
  simp

theorem not_fails_tick {f : Fault} : ¬ tick.Fails s f t := by
  change (Except.ok s.moment, { s with moment := s.moment + 1 }) ≠ (Except.error f, t)
  simp

theorem gives_get {a : State} : (get : Making State).Gives s a t ↔ s = a ∧ s = t := by
  change (Except.ok s, s) = (Except.ok a, t) ↔ _
  simp

theorem not_fails_get {f : Fault} : ¬ (get : Making State).Fails s f t := by
  change (Except.ok s, s) ≠ (Except.error f, t)
  simp

theorem not_fails_take {cell : Cell} {f : Fault} : ¬ (take cell).Fails s f t := by
  change (Except.ok (), s.take cell) ≠ (Except.error f, t)
  simp

/-- A new list has the given items. -/
theorem eq_of_gives_list {items : List Value} {v : Value} (h : (list items).Gives s v t) :
    ∃ c, v = .list c items := by
  simp only [list, fresh, gives_bind, gives_pure] at h
  obtain ⟨c, _, -, rfl, -⟩ := h
  exact ⟨c, rfl⟩

/-- A new mapping has the given entries. -/
theorem eq_of_gives_map {es : List (Value × Value)} {v : Value} (h : (map es).Gives s v t) :
    ∃ c, v = .map c es := by
  simp only [map, fresh, gives_bind, gives_pure] at h
  obtain ⟨c, _, -, rfl, -⟩ := h
  exact ⟨c, rfl⟩

/-- A new object has the given attributes. -/
theorem eq_of_gives_object {kind : ObjectKind} {attrs : List (String × Value)} {v : Value}
    (h : (object kind attrs).Gives s v t) : ∃ c, v = .object kind c attrs := by
  simp only [object, fresh, gives_bind, gives_pure] at h
  obtain ⟨c, _, -, rfl, -⟩ := h
  exact ⟨c, rfl⟩

/-! ### Items -/

theorem forall₂_of_gives_each {f : Value → Making α} {vs : List Value} {as : List α}
    (h : (each f vs).Gives s as t) :
    List.Forall₂ (fun v a => ∃ u u', (f v).Gives u a u') vs as := by
  induction vs generalizing s as t with
  | nil =>
    simp only [each, gives_pure] at h
    rw [← h.1]
    exact .nil
  | cons v vs ih =>
    simp only [each, gives_bind, gives_pure] at h
    obtain ⟨a, u, ha, as', u', has, rfl, -⟩ := h
    exact .cons ⟨s, u, ha⟩ (ih has)

theorem gives_each_pure (vs : List Value) (s : State) :
    (each (fun v => return v) vs).Gives s vs s := by
  induction vs with
  | nil => rfl
  | cons v vs ih => exact gives_bind.2 ⟨v, s, rfl, gives_bind.2 ⟨vs, s, ih, rfl⟩⟩

theorem forall₂_of_gives_eachTaken {cell : Cell} {f : Value → Making α} {vs : List Value}
    {as : List α} (h : (eachTaken cell f vs).Gives s as t) :
    List.Forall₂ (fun v a => ∃ u u', (f v).Gives u a u') vs as := by
  induction vs generalizing s as t with
  | nil =>
    simp only [eachTaken, gives_pure] at h
    rw [← h.1]
    exact .nil
  | cons v vs ih =>
    simp only [eachTaken, gives_bind, gives_pure] at h
    obtain ⟨-, u, -, a, u', ha, as', u'', has, rfl, -⟩ := h
    exact .cons ⟨u, u', ha⟩ (ih has)

theorem not_fails_each {f : Value → Making α} (hf : ∀ v s e t, ¬ (f v).Fails s e t)
    {vs : List Value} {e : Fault} : ¬ (each f vs).Fails s e t := by
  induction vs generalizing s with
  | nil => exact not_fails_pure
  | cons v vs ih =>
    simp only [each, fails_bind]
    rintro (h | ⟨a, u, -, h | ⟨as, u', -, h⟩⟩)
    · exact hf _ _ _ _ h
    · exact ih h
    · exact not_fails_pure h

theorem not_fails_eachTaken {cell : Cell} {f : Value → Making α}
    (hf : ∀ v s e t, ¬ (f v).Fails s e t) {vs : List Value} {e : Fault} :
    ¬ (eachTaken cell f vs).Fails s e t := by
  induction vs generalizing s with
  | nil => exact not_fails_pure
  | cons v vs ih =>
    simp only [eachTaken, fails_bind]
    rintro (h | ⟨-, u, -, h | ⟨a, u', -, h | ⟨as, u'', -, h⟩⟩⟩)
    · exact not_fails_take h
    · exact hf _ _ _ _ h
    · exact ih h
    · exact not_fails_pure h

end Making

namespace Value

open Making

variable {α : Type} {s t : Making.State}

/-- The items that a value has left to yield. -/
def left? (v : Value) (s : Making.State) : Option (List Value) :=
  match v with
  | .stream c vs => some (vs.drop (s.takenFrom c))
  | v => v.items.toOption

theorem items_eq_error {v : Value} {f : Fault} (h : v.items = .error f) :
    ∃ kind, f = .notIterable kind := by
  -- a value either has items or is refused by the name of its kind
  unfold items at h
  split at h <;> try split at h
  all_goals first
    | exact ⟨_, by simpa using h.symm⟩
    | simp at h

/-- What a computation makes of the items of a value is made of those that are left. -/
theorem forall₂_of_gives_forEach {f : Value → Making α} {v : Value} {as : List α}
    (h : (v.forEach f).Gives s as t) :
    ∃ vs, v.left? s = some vs ∧ List.Forall₂ (fun v a => ∃ u u', (f v).Gives u a u') vs as := by
  unfold forEach at h
  split at h
  · -- of a stream only what is left is looked at
    simp only [gives_bind, gives_get] at h
    obtain ⟨_, _, ⟨rfl, rfl⟩, h⟩ := h
    exact ⟨_, rfl, forall₂_of_gives_eachTaken h⟩
  · rename_i hv
    simp only [gives_bind, gives_lift] at h
    obtain ⟨vs, _, ⟨hvs, rfl⟩, h⟩ := h
    refine ⟨vs, ?_, forall₂_of_gives_each h⟩
    unfold left?
    split
    · exact absurd rfl (hv _ _)
    · rw [hvs]; rfl

/-- Looking at the items of a value fails only if it yields none. -/
theorem fails_forEach {f : Value → Making α} (hf : ∀ v s e t, ¬ (f v).Fails s e t) {v : Value}
    {e : Fault} (h : (v.forEach f).Fails s e t) :
    v.left? s = none ∧ ∃ kind, e = .notIterable kind := by
  unfold forEach at h
  split at h
  · simp only [fails_bind, gives_get] at h
    rcases h with h | ⟨_, _, -, h⟩
    · exact absurd h not_fails_get
    · exact absurd h (not_fails_eachTaken hf)
  · rename_i hv
    simp only [fails_bind, fails_lift] at h
    rcases h with ⟨h, -⟩ | ⟨_, _, -, h⟩
    · -- nothing that is looked at fails, so the value has no items
      refine ⟨?_, items_eq_error h⟩
      unfold left?
      split
      · exact absurd rfl (hv _ _)
      · rw [h]; rfl
    · exact absurd h (not_fails_each hf)

theorem left?_of_gives_takeItems {v : Value} {vs : List Value} (h : v.takeItems.Gives s vs t) :
    v.left? s = some vs := by
  obtain ⟨ws, hws, hvs⟩ := forall₂_of_gives_forEach h
  simp only [gives_pure] at hvs
  have heq : ws = vs := by
    rw [← List.forall₂_eq_eq_eq]
    exact hvs.imp fun _ _ ⟨_, _, h, _⟩ => h
  rw [hws, heq]

/-- Taking the items of a value takes all that are left, and fails if it yields none. -/
theorem gives_takeItems_of_left? {v : Value} {vs : List Value} (h : v.left? s = some vs) :
    ∃ t, v.takeItems.Gives s vs t := by
  rcases gives_or_fails v.takeItems s with ⟨ws, t, hws⟩ | ⟨e, t, he⟩
  · have hvs : vs = ws := Option.some.inj (h.symm.trans (left?_of_gives_takeItems hws))
    exact ⟨t, hvs ▸ hws⟩
  · -- a value that has items left does not fail to yield them
    have hnone := (fails_forEach (fun _ _ _ _ => not_fails_pure) he).1
    rw [h] at hnone
    cases hnone

/-- Only a stream is used up by a look at its items. -/
theorem gives_takeItems_again {v : Value} {vs : List Value} (h : v.left? s = some vs)
    (hstream : ∀ cell items, v ≠ .stream cell items) (again : State) :
    v.takeItems.Gives again vs again := by
  have hitems : v.items = .ok vs := by
    have hleft : v.left? s = v.items.toOption := by
      cases v with
      | stream cell items => exact absurd rfl (hstream cell items)
      | _ => rfl
    rw [hleft] at h
    cases hv : v.items with
    | error f =>
      rw [hv] at h
      cases h
    | ok ws =>
      rw [hv] at h
      exact congrArg Except.ok (Option.some.inj h)
  have htake : v.takeItems = (do each (fun item => return item) (← v.items)) := by
    cases v with
    | stream cell items => exact absurd rfl (hstream cell items)
    | _ => rfl
  rw [htake, hitems]
  exact gives_bind.2 ⟨vs, again, gives_lift.2 ⟨rfl, rfl⟩, gives_each_pure vs again⟩

end Value

end CredentialWrites
