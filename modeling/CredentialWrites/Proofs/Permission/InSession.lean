import CredentialWrites.Proofs.Request.InSession

/-!
# A permission builder in a session

A builder in a register is an object with two attributes, which hold what the builder knows. A call
on it is an act of the builder. Both kinds of builders keep what accumulates in a list, an object of
its own that is made with the first items and kept.

* `PermissionBuilder.attrs` : the attributes of a builder.
* `Value.IsKept` : a value keeps some items for a builder.
* `Value.gives_storeList` : what keeps the items after an act.
* `Session.run_permissionStep` : a call is an act of the builder.
-/

namespace CredentialWrites

open Making

namespace Value

/-- A value keeps items for a builder: null if there are none, or else a list of them. -/
def IsKept (items : Option (List Value)) (v : Value) : Prop :=
  match items with
  | none => v = .null
  | some items => ∃ c, v = .list c items

/-- If the value is an object, it was made before a moment and is none of some others. -/
def IsApart (v : Value) (others : List Cell) (now : Nat) : Prop :=
  ∀ c, v.cell? = some c → c ∉ others ∧ ∃ k < now, c = [k]

variable {v : Value} {others : List Cell} {now now' : Nat}

theorem isApart_null (others : List Cell) (now : Nat) : Value.null.IsApart others now :=
  fun _ h => nomatch h

theorem IsApart.later (h : v.IsApart others now) (hle : now ≤ now') : v.IsApart others now' :=
  fun c hc => ⟨(h c hc).1, (h c hc).2.imp fun _ hk => ⟨Nat.lt_of_lt_of_le hk.1 hle, hk.2⟩⟩

/-- What keeps the items for a builder after an act: the list that kept them before, or a new
one. -/
theorem gives_storeList {s : State} {old : Value} {before : Option (List Value)}
    (items : Option (List Value)) (hold : old.IsKept before) (hapart : old.IsApart others s.moment)
    (hothers : ∀ c ∈ others, ∃ k < s.moment, c = [k]) :
    ∃ new t, (PermissionBuilder.storeList (some old) items).Gives s new t ∧ new.IsKept items ∧
      new.IsApart others t.moment ∧ s.moment ≤ t.moment := by
  cases items with
  | none => exact ⟨.null, s, rfl, rfl, isApart_null _ _, Nat.le_refl _⟩
  | some items =>
    cases before with
    | none =>
      obtain rfl : old = .null := hold
      -- the list is made at a later moment than all the others
      refine ⟨.list [s.moment] items, { s with moment := s.moment + 1 }, rfl, ⟨_, rfl⟩,
        ?_, Nat.le_succ _⟩
      rintro c ⟨⟩
      refine ⟨fun hmem => ?_, s.moment, Nat.lt_succ_self _, rfl⟩
      obtain ⟨k, hk, heq⟩ := hothers _ hmem
      cases heq
      exact Nat.lt_irrefl _ hk
    | some before =>
      obtain ⟨c, rfl⟩ := hold
      exact ⟨.list c items, s, rfl, ⟨c, rfl⟩, hapart, Nat.le_refl _⟩

end Value

namespace PermissionBuilder

/-- The attributes of a builder, whose operations are kept in a value. -/
def attrs (b : PermissionBuilder) (operations : Value) : List (String × Value) :=
  [("_actor", (b.actor.map Actor.toValue).getD .null), ("_operations", operations)]

/-- The builder is read back from its attributes. -/
theorem ofAttrs?_attrs {b : PermissionBuilder} {operations : Value}
    (h : operations.IsKept (b.operations.map operationValues)) :
    ofAttrs? (b.attrs operations) = some b := by
  have hoperations : operationsOf? operations = some b.operations := by
    cases hb : b.operations with
    | none =>
      rw [hb] at h
      obtain rfl : operations = .null := h
      rfl
    | some ops =>
      rw [hb] at h
      obtain ⟨c, rfl⟩ := h
      rw [operationsOf?, mapM_operationValues]
      rfl
  obtain ⟨_ | a, ops⟩ := b
  · change (do
      let operations ← operationsOf? operations
      return (⟨none, operations⟩ : PermissionBuilder)) = _
    rw [hoperations]
    rfl
  · change (do
      let actor ← Actor.ofValue? a.toValue
      let operations ← operationsOf? operations
      return (⟨some actor, operations⟩ : PermissionBuilder)) = _
    rw [Actor.ofValue?_toValue, hoperations]
    rfl

/-- The method that an act is a call of. -/
def Act.method : Act → String
  | .call (.app _) => "app"
  | .call (.user _) => "user"
  | .call (.zoneUser _ _) => "zone_user"
  | .call (.client _) => "client"
  | .call (.zoneClient _ _) => "zone_client"
  | .call (.operation _) => "operation"
  | .call (.operations _) => "operations"
  | .build => "build"

/-- The arguments of the method. -/
def Act.args : Act → List Value
  | .call (.app id) => [id]
  | .call (.user id) => [id]
  | .call (.zoneUser zone id) => [zone, id]
  | .call (.client id) => [id]
  | .call (.zoneClient zone id) => [zone, id]
  | .call (.operation v) => [v]
  | .call (.operations vs) => vs
  | .build => []

theorem permissionAct?_method (act : Act) :
    Session.permissionAct? act.method ⟨act.args, []⟩ = some act := by
  rcases act with (_ | _ | _ | _ | _ | _ | _) | _ <;> rfl

/-- No attribute of a builder hides a method. -/
theorem lookup_method (b : PermissionBuilder) (operations : Value) (act : Act) :
    (b.attrs operations).lookup act.method = none := by
  rcases act with (_ | _ | _ | _ | _ | _ | _) | _ <;> rfl

end PermissionBuilder

namespace Session

open Run PermissionBuilder

variable {on : String} {b : PermissionBuilder}

/-- The step that makes a new builder. -/
def newPermissionBuilder (on : String) : ScriptStep :=
  ⟨.call "CredentialPermission.builder" none [] [] (some on), false⟩

/-- The step of a script that is an act on the builder in a register. -/
def permissionStep (on : String) (act : Act) (store : Option String) : ScriptStep :=
  ⟨.call act.method (some on) (act.args.map .constant) [] store, false⟩

/-- A call with values at hand is an act of the builder in the register. -/
theorem run_permissionStep {p : Progress} {cell : Cell} {operations : Value} (act : Act)
    (store : Option String)
    (h : p.session.registers.lookup on =
      some (.object .permissionBuilder cell (b.attrs operations)))
    (hkept : operations.IsKept (b.operations.map operationValues)) :
    (Session.act (permissionStep on act store).action) p =
      (onPermissionBuilder cell (b.attrs operations) b act >>= finish on store) p := by
  have hmethod : method (.object .permissionBuilder cell (b.attrs operations)) act.method
      ⟨act.args, []⟩ = onPermissionBuilder cell (b.attrs operations) b act := by
    simp only [method, lookup_method, permissionAct?_method, ofAttrs?_attrs hkept]
  rw [← hmethod]
  exact run_call_constants act.method act.args store h

end Session

end CredentialWrites
