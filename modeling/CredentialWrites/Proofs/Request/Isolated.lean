import CredentialWrites.Proofs.Payload.Later
import CredentialWrites.Proofs.Request.Respects

/-!
# Built requests are isolated

Once a request was built, nothing that is done with the builder, with what the builder was given, or
with what the request was rendered as changes it: its register keeps the request as it was, and it
is rendered to the same mapping, but for the names of the new objects in it. The keys of its
document and its permissions have to be immutable; they are shared, whereas the document is a copy.

* `Session.SetsAside` : registers are set aside for builders and for what they build.
* `Session.LeavesAlone` : what may be done in a session after a request was built.
* `Session.built_isolated` : the request, and what it is rendered as, stay what they were.
-/

namespace CredentialWrites

open Making Value

/-- What a request shares with others has no objects: the keys of its document, and its
permissions. -/
structure Request.Settled (r : Request) : Prop where
  keys : ∀ es, r.value = some (.json es) → EntryKeysWithin (fun _ => False) es
  permissions : ∀ g ∈ r.permissions, g.toValue.Within fun _ => False

/-- An answer with other names for the objects in it. -/
def Answer.relabel (f : Cell → Cell) : Answer → Answer
  | value v => value (v.relabel f)
  | answer => answer

/-- A request is rendered as a mapping. -/
def Action.toDict (x : String) : Action :=
  .call "to_dict" (some x) [] [] none

namespace Session

variable {role : String → Role} {d : Division} {s : Session} {x : String} {r : Request}
  {before during later ts : List ScriptStep}

/-- Registers are set aside for builders and for what they build: they are empty after some steps of
any kind, and from then on they are used for what they are for. -/
inductive SetsAside (role : String → Role) : Session → Prop where
  | intro {surroundings : Surroundings} {now : Clock} {recorded : Bool}
      {before during : List ScriptStep}
      (hbefore : ∀ t ∈ before, t.action.Uses (fun _ => True) fun _ => True)
      (hempty : ∀ x, role x ≠ .common →
        ((start surroundings now recorded).after before).registers.lookup x = none)
      (hduring : ∀ t ∈ during, t.action.Respects role fun _ => True) :
      SetsAside role (((start surroundings now recorded).after before).after during)

/-- Steps that leave the request in a register alone. They work with the registers that are set
aside for what these are for; or the request has no objects, and then they may do everything but
store something else in its register. -/
inductive LeavesAlone (s : Session) (x : String) (r : Request)
    (later : List ScriptStep) : Prop where
  | apart {role : String → Role} (hrole : role x = .built) (hs : SetsAside role s)
      (hlater : ∀ t ∈ later, t.action.Respects role (· ≠ x))
  | objectless (hr : r.toValue.Within fun _ => False)
      (hlater : ∀ t ∈ later, t.action.Uses (fun _ => True) (· ≠ x))

/-! ### Registers that are set aside -/

theorem apart_start (surroundings : Surroundings) (now : Clock) (recorded : Bool) :
    Apart (fun _ => .common) (fun _ => none) (start surroundings now recorded) :=
  ⟨fun _ => .common, ⟨rfl, fun h => absurd rfl h⟩,
    by rintro _ _ ⟨⟩, by rintro _ ⟨⟩, by rintro _ _ ⟨⟩⟩

/-- Roles are given to registers that are empty. -/
theorem Apart.of_empty (h : Apart (fun _ => .common) (fun _ => none) s)
    (hempty : ∀ x, role x ≠ .common → s.registers.lookup x = none) :
    Apart role (fun _ => none) s := by
  obtain ⟨d, h⟩ := h
  refine ⟨fun _ => .common, ⟨rfl, fun h => absurd rfl h⟩, fun x v hv => ?_,
    by rintro _ ⟨⟩, by rintro _ _ ⟨⟩⟩
  have hrole : role x = .common := by
    by_contra hne
    rw [hempty x hne] at hv
    cases hv
  refine ⟨?_, by rintro _ ⟨⟩⟩
  rw [hrole]
  exact Within.mono (fun c hc => ⟨hc.1, rfl⟩) (h.content x v hv).1

theorem SetsAside.apart (h : SetsAside role s) : Apart role (fun _ => none) s := by
  obtain ⟨hbefore, hempty, hduring⟩ := h
  refine apart_after (Apart.of_empty (apart_after (apart_start _ _ _) fun t ht => ?_) hempty)
    fun t ht => ?_
  · exact .common (Action.Uses.mono (fun _ _ => rfl) (fun _ _ => ⟨rfl, rfl⟩) (hbefore t ht))
  · have hall : (fun x : String => (none : Option Value) = none) = fun _ => True := by simp
    rw [hall]
    exact hduring t ht

/-! ### A request that is kept -/

/-- The value of one register is kept. -/
def keeping (x : String) (v : Value) : String → Option Value :=
  fun y => if y = x then some v else none

theorem keeping_eq_none {v : Value} : (fun y => keeping x v y = none) = (· ≠ x) := by
  funext y
  simp [keeping]

/-- The document of a request is set apart as that of every other thing that was built. -/
theorem guards_of_built {n : Nat} (h : d.Built n r.toValue) : d.Guards n r.value := by
  generalize hv : r.toValue = v at h
  cases h with
  | @request r' hvalue _ =>
    have heq : (r.value.map CredentialValue.toValue).getD .null =
        (r'.value.map CredentialValue.toValue).getD .null := by
      simp only [Request.toValue, Value.record.injEq, List.cons.injEq] at hv
      exact hv.2.2.2.1
    intro es hes
    refine hvalue es ?_
    rw [hes] at heq
    rcases hes' : r'.value with _ | _ | es' <;> rw [hes'] at heq <;> cases heq
    rfl
  | @value o _ =>
    rcases o with _ | _ | _ <;> cases hv
  | @content o _ =>
    rcases o with _ | (_ | _) | _ <;> cases hv

/-- The objects of a built request are in its document only. -/
theorem within_inDocument {n : Nat} (h : d.Built n r.toValue) (hr : r.Settled) :
    r.toValue.Within d.InDocument := by
  refine Request.within_toValue (fun es hes => ?_) fun g hg => ?_
  · exact OwnEntries.within (guards_of_built h es hes).1 ((hr.keys es hes).mono fun _ => False.elim)
  · exact (hr.permissions g hg).mono fun _ => False.elim

/-- A request is kept from the moment on at which it is found in its register. -/
theorem Apart.keep (h : Apart role (fun _ => none) s) (hrole : role x = .built)
    (hx : s.registers.lookup x = some r.toValue) (hr : r.Settled) :
    Apart role (keeping x r.toValue) s := by
  obtain ⟨d, h⟩ := h
  have hbuilt : d.Built s.made.moment r.toValue := by
    have hplaces := (h.content x _ hx).1
    rwa [hrole] at hplaces
  refine ⟨d, h.before, fun y v hv => ⟨(h.content y v hv).1, fun w hw => ?_⟩, fun y hy => ?_,
    fun y w hw => ?_⟩
  · unfold keeping at hw
    split at hw
    · rename_i heq
      subst heq
      rw [hx] at hv
      cases hv
      cases hw
      rfl
    · cases hw
  · unfold keeping at hy
    split at hy
    · rename_i heq
      rw [heq, hx]
      rfl
    · cases hy
  · unfold keeping at hw
    split at hw <;> cases hw
    exact within_inDocument hbuilt hr

/-- What is kept is found in its register. -/
theorem Apart.lookup_eq {v : Value} (h : Apart role (keeping x v) s) :
    s.registers.lookup x = some v := by
  obtain ⟨d, h⟩ := h
  have hkeeping : keeping x v x = some v := if_pos rfl
  have hfilled := h.filled x (by rw [hkeeping]; rfl)
  obtain ⟨w, hw⟩ := Option.isSome_iff_exists.1 hfilled
  rw [hw, (h.content x w hw).2 v hkeeping]

/-- What is kept was made before. -/
theorem Apart.within_before {v : Value} (h : Apart role (keeping x v) s) :
    v.Within fun c => ∀ now ∈ c.head?, now < s.made.moment := by
  obtain ⟨d, h⟩ := h
  refine (h.kept x v (if_pos rfl)).mono fun c hc => ?_
  rcases c with _ | ⟨now, old⟩
  · simp
  · have hne : d (now :: old) ≠ .common := by
      rw [hc]
      decide
    rintro _ ⟨⟩
    exact h.before.made hne

/-! ### A request without objects -/

/-- Registers that are read and written freely, but for one that holds a value without objects. -/
theorem layout_of_objectless {v : Value} (hv : v.Within fun _ => False) (n : Nat) :
    Layout (fun _ _ => True) n (fun _ => True) (· ≠ x) fun y _ w => y = x → w = v where
  scope := scope_all n
  later := fun _ h => h
  replace := fun _ _ h heq => by
    rw [h heq]
    exact replace_of_within id hv
  within := fun _ _ => within_of_forall (fun _ => trivial) _
  holds := fun hne _ heq => absurd heq hne

theorem holds_after {P : Nat → Cell → Prop} {start : Nat} {reads writes filled : String → Prop}
    {J : String → Nat → Value → Prop} (L : Layout P start reads writes J)
    (hs : Holds J filled start s)
    (hts : ∀ t ∈ ts, t.action.Uses reads writes) : Holds J filled start (s.after ts) :=
  after_of_step (fun _ t ht hs => step_of_keeps (L.keeps_act hs (hts t ht))) hs

theorem lookup_after_of_objectless {v : Value} (hv : v.Within fun _ => False)
    (hx : s.registers.lookup x = some v) (hts : ∀ t ∈ ts, t.action.Uses (fun _ => True) (· ≠ x)) :
    (s.after ts).registers.lookup x = some v := by
  have hs : Holds (fun y _ w => y = x → w = v) (· = x) s.made.moment s := by
    refine ⟨Nat.le_refl _, fun y w hw heq => ?_, fun y heq => ?_⟩
    · rw [heq, hx] at hw
      exact (Option.some.inj hw).symm
    · rw [heq, hx]
      rfl
  have hafter := holds_after (layout_of_objectless hv _) hs hts
  obtain ⟨w, hw⟩ := Option.isSome_iff_exists.1 (hafter.filled x rfl)
  rw [hw, hafter.content x w hw rfl]

/-- Time does not go back. -/
theorem moment_le_after (hts : ∀ t ∈ ts, t.action.Uses (fun _ => True) fun _ => True) :
    s.made.moment ≤ (s.after ts).made.moment := by
  have L : Layout (fun _ _ => True) s.made.moment (fun _ => True) (fun _ => True) fun _ _ _ =>
      True :=
    ⟨scope_all _, fun _ h => h, fun _ _ h => h, fun _ _ => within_of_forall (fun _ => trivial) _,
      fun _ _ => trivial⟩
  have hs : Holds (fun _ _ _ => True) (fun _ => False) s.made.moment s :=
    ⟨Nat.le_refl _, fun _ _ _ => trivial, fun _ => False.elim⟩
  exact (holds_after L hs hts).start_le

/-! ### Rendering -/

theorem within_content {P : Cell → Prop} (h : r.toValue.Within P) :
    ((r.value.map CredentialValue.content).getD .null).Within P := by
  have hvalue : ((r.value.map CredentialValue.toValue).getD .null).Within P := h.2.2.1
  rcases hv : r.value with _ | w | es
  · trivial
  · exact within_ofWord w
  · rw [hv] at hvalue
    exact hvalue.1

theorem act_toDict (hx : s.registers.lookup x = some r.toValue) :
    @Eq (Except Fault Answer × Progress) (act (.toDict x) ⟨s, [], []⟩)
      (match (Payload.requestToDict r.toValue s.made : Except Fault Value × Making.State) with
        | (.ok d, made) => (.ok (.value d), ⟨{ s with made }, [], []⟩)
        | (.error e, made) => (.error e, ⟨{ s with made }, [], []⟩)) := by
  have hargs : @Eq (Except Fault (List Value) × Progress) (Run.evalAll [] ⟨s, [], []⟩)
      (.ok [], ⟨s, [], []⟩) := rfl
  have hnamed : @Eq (Except Fault (List (String × Value)) × Progress) (Run.evalNamed [] ⟨s, [], []⟩)
    (.ok [], ⟨s, [], []⟩) := rfl
  have hread : @Eq (Except Fault Value × Progress) (Run.read x ⟨s, [], []⟩) (.ok r.toValue,
    ⟨s, [], []⟩) := by
    rw [Run.read, Run.run_bind, Run.run_current]
    dsimp only
    rw [Registers.read, hx]
    rfl
  have hmethod (a : Function.Arguments) : method r.toValue "to_dict" a =
    Answer.value <$> Run.make (Payload.requestToDict r.toValue) := rfl
  have hmap (p : Progress) : @Eq (Except Fault Answer × Progress)
      ((Answer.value <$> Run.make (Payload.requestToDict r.toValue)) p) _ :=
    Run.run_bind (Run.make (Payload.requestToDict r.toValue)) (fun v => pure (Answer.value v)) p
  change Session.call "to_dict" (some x) [] [] none ⟨s, [], []⟩ = _
  rw [Session.call, Run.run_bind, hargs]
  dsimp only
  rw [Run.run_bind, hnamed]
  dsimp only
  rw [Run.run_bind, hread]
  dsimp only
  rw [Run.run_bind, hmethod, hmap, Run.run_make]
  rcases (Payload.requestToDict r.toValue s.made : Except Fault Value × Making.State) with
    ⟨e | d, made⟩
  · rfl
  · rfl

/-- A step that renders the request in a register. -/
theorem outcome_toDict (hx : s.registers.lookup x = some r.toValue) :
    (s.step ⟨.toDict x, false⟩).2.outcome =
      Answer.value <$> (Payload.requestToDict r.toValue s.made :
      Except Fault Value × Making.State).1 := by
  have hrun : ((act (.toDict x)).run.run ⟨s, [], []⟩ : Except Fault Answer × Progress) = _ :=
    act_toDict hx
  unfold step
  rw [hrun]
  rcases (Payload.requestToDict r.toValue s.made : Except Fault Value × Making.State) with
    ⟨e | d, made⟩
  · rfl
  · rfl

/-- Computations that agree but for the names of objects have the same outcome but for them. -/
theorem outcome_of_agree {m m' : Making Value} {t t' : Making.State} {f : Cell → Cell}
    {I : Making.State → Making.State → Prop} (h : m.Agree m' t t' I fun v w => w = v.relabel f) :
    (m' t' : Except Fault Value × Making.State).1 =
      Value.relabel f <$> (m t : Except Fault Value × Making.State).1 := by
  obtain ⟨v, u, w, u', hv, hw, -, rfl⟩ | ⟨e, u, u', he, he', -⟩ := agree_iff.1 h
  · unfold Gives at hv hw
    rw [hv, hw]
    rfl
  · unfold Fails at he he'
    rw [he, he']
    rfl

/-- Objects that are there before are not renamed when others are made at a later time. -/
theorem toDict_later (hr : r.Settled) {s' : Session} (hle : s.made.moment ≤ s'.made.moment)
    (hold : r.toValue.Within fun c => ∀ now ∈ c.head?, now < s.made.moment)
    (hx : s.registers.lookup x = some r.toValue) (hx' : s'.registers.lookup x = some r.toValue) :
    ∃ f, Function.Injective f ∧ r.toValue.relabel f = r.toValue ∧
      (s'.step ⟨.toDict x, false⟩).2.outcome =
        Answer.relabel f <$> (s.step ⟨.toDict x, false⟩).2.outcome := by
  have hkept : r.toValue.Within fun c => shift s.made.moment s'.made.moment c = c :=
    hold.mono fun _ => shift_of_lt
  refine ⟨shift s.made.moment s'.made.moment, shift_injective hle, relabel_of_within hkept, ?_⟩
  have hmade : Apace s.made.moment s'.made.moment s.made s'.made := ⟨Nat.le_refl _, by omega⟩
  have hagree := Payload.agree_requestToDict (tracks_shift hle) hr.permissions
    (relabel_of_within (within_content hkept)) hmade
  rw [outcome_toDict hx, outcome_toDict hx', outcome_of_agree hagree]
  cases (Payload.requestToDict r.toValue s.made : Except Fault Value × Making.State).1 <;> rfl

/-- **A built request is isolated.** Steps that leave it alone change neither the request in its
register nor the mapping that it is rendered as, but for the names of the new objects in that. -/
theorem built_isolated (hr : r.Settled) (hx : s.registers.lookup x = some r.toValue)
    (hlater : LeavesAlone s x r later) :
    (s.after later).registers.lookup x = some r.toValue ∧
      ∃ f, Function.Injective f ∧ r.toValue.relabel f = r.toValue ∧
        ((s.after later).step ⟨.toDict x, false⟩).2.outcome =
          Answer.relabel f <$> (s.step ⟨.toDict x, false⟩).2.outcome := by
  cases hlater with
  | @apart role hrole hs hlater =>
    have hkept := hs.apart.keep hrole hx hr
    have hafter : Apart role (keeping x r.toValue) (s.after later) := by
      refine apart_after hkept fun t ht => ?_
      rw [keeping_eq_none]
      exact hlater t ht
    have hle : s.made.moment ≤ (s.after later).made.moment :=
      moment_le_after fun t ht => Action.Uses.mono (fun _ h => h) (fun _ _ => trivial)
        (hlater t ht).uses
    exact ⟨hafter.lookup_eq, toDict_later hr hle hkept.within_before hx hafter.lookup_eq⟩
  | objectless hnone hlater =>
    have hafter := lookup_after_of_objectless hnone hx hlater
    have hle : s.made.moment ≤ (s.after later).made.moment :=
      moment_le_after fun t ht => Action.Uses.mono (fun _ h => h) (fun _ _ => trivial) (hlater t ht)
    exact ⟨hafter, toDict_later hr hle (hnone.mono fun _ => False.elim) hx hafter⟩

/-! ### Two sessions -/

/-- A session in which nothing was done. -/
def emptySession : Session :=
  start ⟨[], none⟩ ⟨2024, 1, 2, 3, 4, 5, 0⟩ false

/-- Two registers are set aside. -/
def builderAndRequest (x : String) : Role :=
  if x = "b" then .builder else if x = "r" then .built else .common

/-- The key of the documents of both sessions. -/
def documentKey : Expr :=
  .constant (.text "k")

/-- A request is built from a document and some permissions. -/
def buildSteps (permissions : List Expr) : List ScriptStep :=
  [⟨.call "WriteRequest.builder" none [] [] (some "b"), false⟩,
    ⟨.call "json_value" (some "b") [.register "m"] [] none, false⟩,
    ⟨.call "additional_permissions" (some "b") [.list permissions] [] none, false⟩,
    ⟨.call "build" (some "b") [] [] (some "r"), false⟩]

theorem setsAside_buildSteps {before : List ScriptStep} {permissions : List Expr}
    (hbefore : ∀ t ∈ before, t.action.Uses (fun _ => True) fun _ => True)
    (hempty : (emptySession.after before).registers.lookup "b" = none ∧
      (emptySession.after before).registers.lookup "r" = none)
    (hpermissions : Expr.AllOver (fun x => builderAndRequest x = .common) permissions) :
    SetsAside builderAndRequest ((emptySession.after before).after (buildSteps permissions)) := by
  refine .intro hbefore (fun x hx => ?_) ?_
  · unfold builderAndRequest at hx
    split at hx
    · rename_i heq
      rw [heq]
      exact hempty.1
    · split at hx
      · rename_i heq
        rw [heq]
        exact hempty.2
      · exact absurd rfl hx
  · have hnone {P : String → Prop} (x : String) (h : (none : Option String) = some x) : P x := by
      cases h
    have hnamed : Expr.NamedOver (fun x => builderAndRequest x = .common) [] := by
      simp [Expr.NamedOver]
    have hbuild (x : String) (h : some "r" = some x) :
        builderAndRequest x = Role.ofMethod "build" ∧ True := by
      cases h
      exact ⟨rfl, trivial⟩
    simp only [buildSteps, List.forall_mem_cons]
    exact ⟨.newBuilder trivial hnamed rfl trivial, .onBuilder rfl ⟨rfl, trivial⟩ hnamed hnone,
      .onBuilder rfl ⟨hpermissions, trivial⟩ hnamed hnone, .onBuilder rfl trivial hnamed hbuild,
      List.forall_mem_nil _⟩

/-- A document with bytes that can be changed. -/
def bytesSteps : List ScriptStep :=
  [⟨.define (.map [(documentKey, .buffer [0])]) "m", false⟩]

/-- The request that is built from such a document. -/
def bytesRequest : Request :=
  ⟨false, none, some (.json [(.text "k", .buffer [3, 0] [0])]), []⟩

/-- The bytes that were given are changed, and so are those that the request is rendered as, which
are given to the builder after that. -/
def bytesChanges : List ScriptStep :=
  [⟨.change "m" [documentKey] (.set (.constant (.int 0)) (.constant (.int 7))), false⟩,
    ⟨.call "to_dict" (some "r") [] [] (some "d"), false⟩,
    ⟨.change "d" [.constant (.text "value"), documentKey]
      (.set (.constant (.int 0)) (.constant (.int 7))), false⟩,
    ⟨.call "json_value" (some "b") [.register "d"] [] none, false⟩]

/-- A request with bytes stays what it was when all others are changed. -/
theorem built_isolated_of_bytes :
    ((((emptySession.after bytesSteps).after (buildSteps [])).after bytesChanges).registers.lookup
      "r" =
        some bytesRequest.toValue) ∧
      ∃ f, Function.Injective f ∧ bytesRequest.toValue.relabel f = bytesRequest.toValue ∧
        ((((emptySession.after bytesSteps).after (buildSteps [])).after bytesChanges).step
            ⟨.toDict "r", false⟩).2.outcome =
          Answer.relabel f <$>
            (((emptySession.after bytesSteps).after (buildSteps [])).step
              ⟨.toDict "r", false⟩).2.outcome := by
  have hsettled : bytesRequest.Settled := by
    refine ⟨?_, List.forall_mem_nil _⟩
    rintro es ⟨⟩
    exact ⟨trivial, trivial, trivial⟩
  have haside : SetsAside builderAndRequest ((emptySession.after bytesSteps).after
    (buildSteps [])) := by
    refine setsAside_buildSteps ?_ ⟨rfl, rfl⟩ trivial
    simp only [bytesSteps, List.forall_mem_cons]
    exact ⟨⟨⟨trivial, trivial, trivial⟩, trivial⟩, List.forall_mem_nil _⟩
  have hbuilt : ((emptySession.after bytesSteps).after (buildSteps [])).registers.lookup "r" =
      some bytesRequest.toValue := by rfl
  refine built_isolated hsettled hbuilt (.apart rfl haside ?_)
  simp only [bytesChanges, List.forall_mem_cons]
  have hnamed : Expr.NamedOver (fun x =>
    builderAndRequest x = .common) [] := by simp [Expr.NamedOver]
  refine ⟨.common ?_, .onBuilt rfl trivial hnamed ?_, .common ?_,
    .onBuilder rfl ⟨rfl, trivial⟩ hnamed ?_, List.forall_mem_nil _⟩
  · exact ⟨rfl, ⟨trivial, trivial⟩, by simp [Change.exprs, Expr.Over, Value.Within]⟩
  · rintro x ⟨⟩
    exact ⟨rfl, by decide⟩
  · exact ⟨rfl, ⟨trivial, trivial, trivial⟩, by simp [Change.exprs, Expr.Over, Value.Within]⟩
  · rintro x ⟨⟩

/-- A document and a permission share a list of operations. -/
def operationsSteps : List ScriptStep :=
  [⟨.define (.list [.constant (.member (.operation .read))]) "ops", false⟩,
    ⟨.define (.map [(documentKey, .register "ops")]) "m", false⟩,
    ⟨.call "CredentialPermission" none [.constant .null, .register "ops"] [] (some "p"), false⟩]

/-- The request that is built from both, while the permission has some operations. -/
def operationsRequest (operations : List Operation) : Request :=
  ⟨false, none, some (.json [(.text "k", .tuple [.member (.operation .read)])]),
    [⟨.null, .list [0] (operations.map fun op => .member (.operation op))⟩]⟩

/-- One more operation is appended to the list in the document. -/
def operationsChange : ScriptStep :=
  ⟨.change "m" [documentKey] (.append (.constant (.member (.operation .write)))), false⟩

/-- A permission is shared with who gave it: a change to the mapping that a request was given
changes it, if the mapping holds the operations of one of its permissions. -/
theorem built_changed_with_operations :
    SetsAside builderAndRequest ((emptySession.after operationsSteps).after
      (buildSteps [.register "p"])) ∧
      operationsChange.action.Respects builderAndRequest (· ≠ "r") ∧
      (∀ es, (operationsRequest [.read]).value = some (.json es) →
        EntryKeysWithin (fun _ => False) es) ∧
      ((emptySession.after operationsSteps).after (buildSteps [.register "p"])).registers.lookup
        "r" = some (operationsRequest [.read]).toValue ∧
      (((emptySession.after operationsSteps).after (buildSteps [.register "p"])).after
        [operationsChange]).registers.lookup "r" =
          some (operationsRequest [.read, .write]).toValue ∧
      (operationsRequest [.read]).toValue ≠ (operationsRequest [.read, .write]).toValue := by
  have hbuilt : ((emptySession.after operationsSteps).after
      (buildSteps [.register "p"])).registers.lookup "r" =
      some (operationsRequest [.read]).toValue := by rfl
  have hchanged : (((emptySession.after operationsSteps).after (buildSteps [.register "p"])).after
      [operationsChange]).registers.lookup "r" =
      some (operationsRequest [.read, .write]).toValue := by rfl
  refine ⟨setsAside_buildSteps ?_ ⟨rfl, rfl⟩ ⟨rfl, trivial⟩, .common ?_, ?_, hbuilt,
    hchanged, by rintro ⟨⟩⟩
  · simp only [operationsSteps, List.forall_mem_cons]
    refine ⟨⟨⟨trivial, trivial⟩, trivial⟩, ⟨⟨trivial, trivial, trivial⟩, trivial⟩, ?_,
      List.forall_mem_nil _⟩
    exact ⟨⟨trivial, trivial, trivial⟩, List.forall_mem_nil _, fun _ _ => trivial,
      fun _ _ => trivial⟩
  · exact ⟨rfl, ⟨trivial, trivial⟩, by simp [Change.exprs, Expr.Over, Value.Within]⟩
  · rintro es ⟨⟩
    exact ⟨trivial, ⟨trivial, trivial⟩, trivial⟩

end Session

end CredentialWrites
