import CredentialWrites.Proofs.Request.Run
import CredentialWrites.Proofs.Script.Keeps

/-!
# A request builder in a session

A builder in a register is an object with four attributes, which hold what the builder knows. A call
on it is an act of the builder; afterwards the register holds the same object with what the builder
knows by then. The list of permissions is an object of its own, which is made with the first
permission and kept.

* `RequestBuilder.attrs` : the attributes of a builder.
* `RequestBuilder.Act.step` : the step that an act on a builder is.
* `Session.HasBuilder` : a register holds a builder.
* `Session.run_actStep` : a call is an act of the builder.
-/

namespace CredentialWrites

namespace RequestBuilder

open Making

/-- The attributes of a builder, whose permissions are kept in a value. -/
def attrs (b : RequestBuilder) (permissions : Value) : List (String × Value) :=
  [("_name", (b.name.map CredentialName.toValue).getD .null), ("_overwrite", .bool b.overwrite),
    ("_value", (b.value.map CredentialValue.toValue).getD .null),
    ("_additional_permissions", permissions)]

/-- A value keeps the permissions of a builder: null if it has none, or else a list that is another
object than the builder. -/
def Keeps (b : RequestBuilder) (cell : Cell) (permissions : Value) : Prop :=
  match b.permissions with
  | none => permissions = .null
  | some gs => ∃ c, c ≠ cell ∧ permissions = .list c (gs.map Grant.toValue)

theorem mapM_ofValue?_toValue (gs : List Grant) :
    (gs.map Grant.toValue).mapM Grant.ofValue? = some gs := by
  induction gs with
  | nil => rfl
  | cons g gs ih => simp [List.mapM_cons, ih, Grant.ofValue?_toValue]

/-- The builder is read back from its attributes. -/
theorem ofAttrs?_attrs {b : RequestBuilder} {cell : Cell} {permissions : Value}
    (h : b.Keeps cell permissions) : ofAttrs? (b.attrs permissions) = some b := by
  have hname : nameOf? ((b.name.map CredentialName.toValue).getD .null) = some b.name := by
    cases b.name with
    | none => rfl
    | some n => simp [nameOf?, CredentialName.toValue, Value.word?_ofWord]
  have hvalue : valueOf? ((b.value.map CredentialValue.toValue).getD .null) = some b.value := by
    rcases b.value with _ | w | es
    · rfl
    · simp [valueOf?, CredentialValue.toValue, Value.word?_ofWord]
    · rfl
  have hpermissions : grantsOf? permissions = some b.permissions := by
    unfold Keeps at h
    split at h
    · rename_i hnone
      rw [h, hnone]
      rfl
    · rename_i gs hsome
      obtain ⟨c, -, rfl⟩ := h
      rw [grantsOf?, mapM_ofValue?_toValue, hsome]
      rfl
  change (do
    let name ← nameOf? ((b.name.map CredentialName.toValue).getD .null)
    let overwrite ← overwriteOf? (.bool b.overwrite)
    let value ← valueOf? ((b.value.map CredentialValue.toValue).getD .null)
    let permissions ← grantsOf? permissions
    return (⟨name, overwrite, value, permissions⟩ : RequestBuilder)) = some b
  rw [hname, hvalue, hpermissions]
  rfl

/-- Whatever keeps the permissions of a builder afterwards, storing it gives its attributes with
that. -/
theorem gives_store_of_list {b c : RequestBuilder} {o : Option (List Grant)}
    {permissions permissions' : Value} {s t : State} (hc : c.permissions = o)
    (h : (PermissionBuilder.storeList (some permissions)
      (o.map fun gs => gs.map Grant.toValue)).Gives s permissions' t) :
    (c.store (b.attrs permissions)).Gives s (c.attrs permissions') t := by
  subst hc
  exact gives_bind.2 ⟨permissions', t, h, gives_pure.2 ⟨rfl, rfl⟩⟩

/-- Storing a builder gives its attributes. A list that is there already is kept. -/
theorem gives_store {b c : RequestBuilder} {n : Nat} {permissions : Value} {s : State}
    (h : b.Keeps [n] permissions) (hn : n < s.moment) :
    ∃ permissions' t, (c.store (b.attrs permissions)).Gives s (c.attrs permissions') t ∧
      c.Keeps [n] permissions' ∧ s.moment ≤ t.moment ∧ t.taken = s.taken := by
  cases hc : c.permissions with
  | none =>
    have hkeeps : c.Keeps [n] .null := by
      simp [Keeps, hc]
    exact ⟨.null, s, gives_store_of_list hc rfl, hkeeps, Nat.le_refl _, rfl⟩
  | some gs =>
    cases hb : b.permissions with
    | none =>
      obtain rfl : permissions = .null := by simpa [Keeps, hb] using h
      -- the list is made at a later moment than the builder was
      have hkeeps : c.Keeps [n] (.list [s.moment] (gs.map Grant.toValue)) := by
        simp only [Keeps, hc]
        exact ⟨[s.moment], by simp [Nat.ne_of_gt hn], rfl⟩
      exact ⟨_, { s with moment := s.moment + 1 }, gives_store_of_list hc rfl, hkeeps,
        Nat.le_succ _, rfl⟩
    | some old =>
      obtain ⟨cell, hcell, rfl⟩ : ∃ cell, cell ≠ [n] ∧
          permissions = .list cell (old.map Grant.toValue) := by
        simpa [Keeps, hb] using h
      have hkeeps : c.Keeps [n] (.list cell (gs.map Grant.toValue)) := by
        simp only [Keeps, hc]
        exact ⟨cell, hcell, rfl⟩
      exact ⟨_, s, gives_store_of_list hc rfl, hkeeps, Nat.le_refl _, rfl⟩

/-! ### Time -/

theorem yields_grantsOf (v : Value) (s : State) : (grantsOf v).Yields s fun _ _ => True := by
  have hpresent : (liftM (Argument.present "permissions" v) : Making Value).Yields s fun _ _ =>
      True :=
    yields_lift fun _ _ => trivial
  refine hpresent.bind fun w t _ _ => ?_
  refine (Value.yields_takeItems (p := fun _ => True) fun _ _ _ _ => trivial).bind fun vs u _ _ =>
    ?_
  exact yields_lift fun _ _ => trivial

/-- Time does not go back during a call. -/
theorem yields_set (b : RequestBuilder) (c : Call) (s : State) :
    (b.set c).Yields s fun _ _ => True := by
  have hchecked {α : Type} {m : Making α} {g : α → RequestBuilder × List LogRecord}
      (h : m.Yields s fun _ _ => True) : (m >>= fun a => pure (g a)).Yields s fun _ _ => True :=
    h.bind fun _ _ _ _ => yields_pure trivial
  cases c with
  | passwordValue v | name v | overwrite v | additionalPermission v =>
    exact hchecked (yields_lift fun _ _ => trivial)
  | jsonValue v =>
    have hmapping : (liftM (Argument.mapping "value" v) : Making _).Yields s fun _ _ => True :=
      yields_lift fun _ _ => trivial
    refine hmapping.bind fun es t _ _ => ?_
    have hfreeze := Value.yields_freezeEntries (admits_madeSince t.moment) es (Nat.le_refl _)
    have hvalue : (CredentialValue.ofMapping es).Yields t fun _ _ => True :=
      hfreeze.bind fun _ _ _ _ => yields_pure trivial
    exact hvalue.bind fun _ _ _ _ => yields_pure trivial
  | additionalPermissions v => exact hchecked (yields_grantsOf v s)

theorem moment_le_perform (b : RequestBuilder) (act : Act) (s : State) :
    s.moment ≤ (b.perform act s).2.2.2.moment := by
  cases act with
  | build => exact Nat.le_refl _
  | call c =>
    have hle := (yields_set b c s).1
    dsimp only [perform]
    split
    · rename_i heq
      rwa [heq] at hle
    · rename_i heq
      rwa [heq] at hle

/-! ### Acts as steps -/

/-- The method that an act is a call of. -/
def Act.method : Act → String
  | .call (.passwordValue _) => "password_value"
  | .call (.jsonValue _) => "json_value"
  | .call (.name _) => "name"
  | .call (.overwrite _) => "overwrite"
  | .call (.additionalPermission _) => "additional_permission"
  | .call (.additionalPermissions _) => "additional_permissions"
  | .build => "build"

/-- The arguments of the method. -/
def Act.args : Act → List Value
  | .call (.passwordValue v) => [v]
  | .call (.jsonValue v) => [v]
  | .call (.name v) => [v]
  | .call (.overwrite v) => [v]
  | .call (.additionalPermission v) => [v]
  | .call (.additionalPermissions v) => [v]
  | .build => []

theorem requestAct?_method (act : Act) :
    Session.requestAct? act.method ⟨act.args, []⟩ = some act := by
  rcases act with (_ | _ | _ | _ | _ | _) | _ <;> rfl

/-- No attribute of a builder hides a method. -/
theorem lookup_method (b : RequestBuilder) (permissions : Value) (act : Act) :
    (b.attrs permissions).lookup act.method = none := by
  rcases act with (_ | _ | _ | _ | _ | _) | _ <;> rfl

end RequestBuilder

namespace Session

open Run RequestBuilder

variable {s : Session} {on : String} {b : RequestBuilder}

/-- A register holds a builder, which was made before. -/
def HasBuilder (s : Session) (on : String) (b : RequestBuilder) : Prop :=
  ∃ n permissions, s.registers.lookup on =
    some (.object .requestBuilder [n] (b.attrs permissions)) ∧
    b.Keeps [n] permissions ∧ n < s.made.moment

theorem lookup_replace (s : Session) (cell : Cell) (new : Value) (on : String) :
    (s.replace cell new).registers.lookup on =
      (s.registers.lookup on).map (Value.replace cell new) := by
  simp only [replace]
  induction s.registers with
  | nil => rfl
  | cons r registers ih =>
    obtain ⟨name, v⟩ := r
    simp only [List.map_cons, List.lookup_cons]
    cases on == name
    · exact ih
    · rfl

/-- A change to another object leaves an object in its register. -/
theorem lookup_put_of_ne {kind : ObjectKind} {cell : Cell} {attrs : List (String × Value)}
    {new : Value} (h : s.registers.lookup on = some (.object kind cell attrs))
    (hne : new.cell? ≠ some cell) :
    ∃ attrs', (s.put new).registers.lookup on = some (.object kind cell attrs') := by
  unfold put
  split
  · rename_i c hc
    have hcell : cell ≠ c := by
      rintro rfl
      exact hne hc
    exact ⟨_, by rw [lookup_replace, h, Option.map_some, Value.replace, if_neg hcell]⟩
  · exact ⟨attrs, h⟩

theorem lookup_foldl_put_of_ne {kind : ObjectKind} {cell : Cell} {attrs : List (String × Value)}
    {news : List Value} (h : s.registers.lookup on = some (.object kind cell attrs))
    (hne : ∀ new ∈ news, new.cell? ≠ some cell) :
    ∃ attrs', (news.foldl put s).registers.lookup on = some (.object kind cell attrs') := by
  induction news generalizing s attrs with
  | nil => exact ⟨attrs, h⟩
  | cons new news ih =>
    rw [List.forall_mem_cons] at hne
    obtain ⟨attrs', h'⟩ := lookup_put_of_ne h hne.1
    exact ih h' hne.2

/-- A builder that is put in place of itself is in its register. -/
theorem lookup_putBuilder {kind : ObjectKind} {cell : Cell} {attrs attrs' : List (String × Value)}
    (h : s.registers.lookup on = some (.object kind cell attrs))
    (hne : ∀ a ∈ attrs', a.2.cell? ≠ some cell) :
    (s.putBuilder kind cell attrs').registers.lookup on = some (.object kind cell attrs') := by
  have hvalues : ∀ new ∈ attrs'.map Prod.snd, new.cell? ≠ some cell := by
    intro new hnew
    obtain ⟨a, ha, rfl⟩ := List.mem_map.1 hnew
    exact hne a ha
  obtain ⟨attrs'', h''⟩ := lookup_foldl_put_of_ne h hvalues
  change ((((attrs'.map Prod.snd).foldl put s).replace cell _).registers.lookup on) = _
  rw [lookup_replace, h'', Option.map_some, Value.replace, if_pos rfl]

/-- None of the attributes of a builder is the builder itself. -/
theorem cell?_attrs_ne {cell : Cell} {permissions : Value} (h : b.Keeps cell permissions) :
    ∀ a ∈ b.attrs permissions, a.2.cell? ≠ some cell := by
  have hname : ((b.name.map CredentialName.toValue).getD .null).cell? = none := by
    cases b.name <;> rfl
  have hvalue : ((b.value.map CredentialValue.toValue).getD .null).cell? = none := by
    rcases b.value with _ | _ | _ <;> rfl
  have hpermissions : permissions.cell? ≠ some cell := by
    unfold RequestBuilder.Keeps at h
    split at h
    · rw [h]
      simp [Value.cell?]
    · obtain ⟨c, hc, rfl⟩ := h
      simpa [Value.cell?] using hc
  have hoverwrite : (Value.bool b.overwrite).cell? = none := rfl
  simp [RequestBuilder.attrs, hname, hoverwrite, hvalue, hpermissions]

/-- Everything about a session but its registers stays when objects are put. -/
theorem put_eq (s : Session) (new : Value) :
    s.put new = { s with registers := (s.put new).registers } := by
  unfold put
  split <;> rfl

theorem putBuilder_eq (s : Session) (kind : ObjectKind) (cell : Cell)
    (attrs : List (String × Value)) :
    s.putBuilder kind cell attrs =
      { s with registers := (s.putBuilder kind cell attrs).registers } := by
  unfold putBuilder
  rw [put_eq]
  generalize (put _ _).registers = registers
  generalize attrs.map Prod.snd = news
  induction news generalizing s with
  | nil => rfl
  | cons new news ih =>
    rw [List.foldl_cons, ih, put_eq]

/-- A builder that is put in place of itself is in its register. -/
theorem hasBuilder_putBuilder {n : Nat} {attrs : List (String × Value)} {permissions : Value}
    (h : s.registers.lookup on = some (.object .requestBuilder [n] attrs))
    (hkeeps : b.Keeps [n] permissions)
    (hn : n < s.made.moment) :
    (s.putBuilder .requestBuilder [n] (b.attrs permissions)).HasBuilder on b := by
  refine ⟨n, permissions, lookup_putBuilder h (cell?_attrs_ne hkeeps), hkeeps, ?_⟩
  rw [putBuilder_eq]
  exact hn

theorem lookup_store_of_ne {registers : Registers} {name : String} (hne : on ≠ name) (v : Value) :
    (registers.store name v).lookup on = registers.lookup on := by
  have hfirst : (on == name) = false := by simpa using hne
  simp only [Registers.store, List.lookup_cons, hfirst]
  induction registers with
  | nil => rfl
  | cons r registers ih =>
    obtain ⟨other, w⟩ := r
    by_cases h : other = name
    · have hother : (on == other) = false := by simpa [h] using hne
      simpa [List.filter_cons, h, List.lookup_cons, hfirst] using ih
    · simp only [List.filter_cons, h, ne_eq, not_false_eq_true, decide_true, if_true,
        List.lookup_cons]
      cases on == other
      · exact ih
      · rfl

/-! ### Calls -/

/-- The step that makes a new builder. -/
def newBuilder (on : String) (quiet : Bool) : ScriptStep :=
  ⟨.call "WriteRequest.builder" none [] [] (some on), quiet⟩

/-- A new builder has nothing yet. -/
theorem act_newBuilder (s : Session) (on : String) (quiet : Bool) :
    (act (newBuilder on quiet).action) ⟨s, [], []⟩ =
      (.ok (.value (.object .requestBuilder [s.made.moment] (RequestBuilder.start.attrs .null))),
        ⟨{ s with
          made := { s.made with moment := s.made.moment + 1 }
          registers := s.registers.store on
            (.object .requestBuilder [s.made.moment] (RequestBuilder.start.attrs .null)) }, [],
            []⟩) :=
  rfl

theorem lookup_store_self {registers : Registers} (v : Value) :
    (registers.store on v).lookup on = some v := by
  simp [Registers.store]

/-- The step of a script that is an act on the builder in a register. -/
def actStep (on : String) (act : Act) (store : Option String) (quiet : Bool) : ScriptStep :=
  ⟨.call act.method (some on) (act.args.map .constant) [] store, quiet⟩

/-- What is left of a call when the method is done. -/
def finish (on : String) (store : Option String) : Answer → Run Answer
  | .self => do
    Run.store store (← Run.read on)
    return .self
  | .value v => do
    Run.store store v
    return .value v
  | answer => return answer

theorem gives_evalAll_constants (registers : Registers) (vs : List Value) (made : Making.State) :
    (Expr.evalAll registers (vs.map .constant)).Gives made vs made := by
  induction vs with
  | nil => exact Making.gives_pure.2 ⟨rfl, rfl⟩
  | cons v vs ih =>
    refine Making.gives_bind.2 ⟨v, made, Making.gives_pure.2 ⟨rfl, rfl⟩, ?_⟩
    exact Making.gives_bind.2 ⟨vs, made, ih, Making.gives_pure.2 ⟨rfl, rfl⟩⟩

theorem run_evalAll_constants (vs : List Value) (p : Progress) :
    (evalAll (vs.map .constant)) p = (.ok vs, p) := by
  have h := gives_evalAll_constants p.session.registers vs p.session.made
  unfold Making.Gives at h
  rw [evalAll, run_bind, run_current]
  dsimp only
  rw [run_make, h]

theorem run_read {p : Progress} {v : Value} (h : p.session.registers.lookup on = some v) :
    (Run.read on) p = (.ok v, p) := by
  unfold Run.read Registers.read
  rw [run_bind, run_current]
  dsimp only
  rw [h]
  rfl

/-- A call with values at hand is a call of a method of the object in the register. -/
theorem run_call_constants {p : Progress} {v : Value} (name : String) (args : List Value)
    (store : Option String) (h : p.session.registers.lookup on = some v) :
    (call name (some on) (args.map .constant) [] store) p =
      (method v name ⟨args, []⟩ >>= finish on store) p := by
  have hnamed : (evalNamed []) p = (.ok [], p) := rfl
  rw [call, run_bind, run_evalAll_constants]
  dsimp only
  rw [run_bind, hnamed]
  dsimp only
  rw [run_bind, run_read h]
  dsimp only
  rw [run_bind, run_bind]
  split
  · rename_i answer q _
    cases answer <;> rfl
  · rfl

/-- A call with values at hand is an act of the builder in the register. -/
theorem run_actStep {p : Progress} {cell : Cell} {permissions : Value} (act : Act)
    (store : Option String) (quiet : Bool)
    (h : p.session.registers.lookup on = some (.object .requestBuilder cell (b.attrs permissions)))
    (hkeeps : b.Keeps cell permissions) :
    (Session.act (actStep on act store quiet).action) p =
      (onRequestBuilder cell (b.attrs permissions) b act >>= finish on store) p := by
  have hmethod : method (.object .requestBuilder cell (b.attrs permissions)) act.method
      ⟨act.args, []⟩ = onRequestBuilder cell (b.attrs permissions) b act := by
    simp only [method, lookup_method, requestAct?_method, ofAttrs?_attrs hkeeps]
  rw [← hmethod]
  exact run_call_constants act.method act.args store h

end Session

end CredentialWrites
