import CredentialWrites.Proofs.Payload.Scope
import CredentialWrites.Script.Expression

/-!
# Functions and expressions within a scope

No function leads out of a scope: what it gives has no objects but new ones and those of its
arguments. So the value of an expression has no objects but new ones and those of the registers that
it mentions.

* `Function.yields_call` : the functions.
* `Expr.Over` : the registers that an expression mentions.
* `Expr.yields_eval` : the values of expressions.
-/

namespace CredentialWrites

open Making Value

variable {s : Making.State} {P : Nat → Cell → Prop} {start : Nat}

namespace Function

/-- All objects in the arguments of a call have cells of a kind. -/
structure Arguments.Within (P : Cell → Prop) (a : Arguments) : Prop where
  byPlace : WithinAll P a.byPlace
  byName : WithinAttrs P a.byName

theorem Arguments.Within.get {P : Cell → Prop} {a : Arguments} (h : a.Within P) {place : Nat}
    {name : String} {default : Value} (hdefault : default.Within P) :
    (a.get place name default).Within P := by
  unfold Arguments.get
  split
  · rename_i v hv
    exact withinAll_iff.1 h.byPlace v (List.mem_of_getElem? hv)
  · cases hname : a.byName.lookup name with
    | none => exact hdefault
    | some v => exact h.byName.lookup hname

theorem Arguments.Within.arg {P : Cell → Prop} {a : Arguments} (h : a.Within P) {place : Nat}
    {name : String} : (a.arg place name).Within P :=
  h.get trivial

theorem within_actor {P : Cell → Prop} (a : Actor) : a.toValue.Within P := by
  obtain ⟨type, id, zone⟩ := a
  cases zone with
  | none => exact ⟨trivial, within_ofWord _, trivial, trivial⟩
  | some zone => exact ⟨trivial, within_ofWord _, within_ofWord zone, trivial⟩

section Functions

variable {a : Arguments} {m : Making Value} (hP : Scope P start) (hs : start ≤ s.moment)
  (ha : a.Within (P s.moment))

include hP hs ha

omit hP hs in
theorem yields_identityFunction {name : String} (h : identityFunction name a = some m) :
    m.Yields s fun n v => v.Within (P n) := by
  unfold identityFunction at h
  split at h <;> cases h
  · exact yields_pure ⟨ha.arg, ha.arg, ha.arg, trivial⟩
  · exact yields_checked fun _ _ => within_actor _
  · exact yields_checked fun _ _ => within_actor _
  · exact yields_checked fun _ _ => within_actor _
  · exact yields_checked fun _ _ => within_actor _
  · exact yields_checked fun _ _ => ⟨within_ofWord _, trivial⟩
  · exact yields_checked fun _ _ => ⟨within_ofWord _, trivial⟩
  · exact yields_checked fun _ _ => trivial

theorem yields_requestFunction {name : String} (h : requestFunction name a = some m) :
    m.Yields s fun n v => v.Within (P n) := by
  unfold requestFunction at h
  split at h <;> cases h
  · exact yields_pure ⟨ha.arg, ha.get trivial, trivial⟩
  · exact yields_object hP.toAdmits hs ⟨trivial, trivial, trivial⟩
  · exact yields_pure ⟨ha.get trivial, ha.arg, ha.arg, ha.get trivial, trivial⟩
  · exact yields_object hP.toAdmits hs ⟨trivial, trivial, trivial, trivial, trivial⟩
  · exact yields_pure ⟨ha.arg, trivial⟩
  · exact (yields_freezeMapping hP.toAdmits hs ha.arg).bind fun _ _ _ h => yields_pure ⟨h, trivial⟩

theorem yields_payloadFunction {name : String} (h : payloadFunction name a = some m) :
    m.Yields s fun n v => v.Within (P n) := by
  have hrequest {v : Value} (hv : v.Within (P s.moment)) :
      (Payload.ofRequest v).Yields s fun n w => w.Within (P n) :=
    Payload.yields_ofRequest hP hs (.of_within (hP.shared _) hv)
  unfold payloadFunction at h
  split at h <;> cases h
  · exact Payload.yields_permission hP.toAdmits hs ha.byName
  · exact Payload.yields_ofPermission hP hs ha.arg
  · exact Payload.yields_request hP.toAdmits hs ha.byName
  · exact hrequest ha.arg
  · exact hrequest ha.arg
  · exact (Payload.timePasses_requestToJson _ _ s).bind fun _ _ _ _ => yields_pure trivial

theorem yields_valueFunction {name : String} (h : valueFunction name a = some m) :
    m.Yields s fun n v => v.Within (P n) := by
  unfold valueFunction at h
  split at h <;> cases h
  · exact yields_lift fun _ hw => ha.arg.freezeSequence hw
  · exact yields_freezeMapping hP.toAdmits hs ha.arg
  · exact yields_thaw_within hP.toAdmits hs ha.arg
  · exact yields_lift fun _ hw => ha.arg.hashable hw
  · exact yields_checked fun _ _ => within_ofWord _
  · exact yields_checked fun _ _ => trivial

omit hP hs ha in
theorem named_eq_ok {α : Type} {name : Value} {check : String → Except Fault α} {b : α}
    (h : Argument.named name check = .ok b) : ∃ field, check field = .ok b := by
  unfold Argument.named at h
  split at h
  · rename_i c hc
    cases h
    exact ⟨"", hc⟩
  · obtain ⟨w, -, h⟩ := Except.bind_eq_ok.1 h
    split at h
    · cases h
    · exact ⟨w.text, h⟩

omit hP hs ha in
theorem eq_of_present {field : String} {v w : Value} (h : Argument.present field v = .ok w) :
    w = v := by
  unfold Argument.present at h
  split at h <;> cases h
  rfl

theorem yields_checkFunction {name : String} (h : checkFunction name a = some m) :
    m.Yields s fun n v => v.Within (P n) := by
  unfold checkFunction at h
  dsimp only at h
  split at h <;> cases h
  · refine yields_lift fun w hw => ?_
    obtain ⟨field, hw⟩ := named_eq_ok hw
    rw [eq_of_present hw]
    exact ha.arg
  · unfold requireUnset
    split
    · exact yields_pure trivial
    · refine (timePasses_lift _ s).bind fun _ t _ _ => ?_
      exact (timePasses_lift _ t).bind fun _ _ _ _ => yields_pure trivial
  · exact yields_checked fun _ _ => within_ofWord _
  · refine (timePasses_lift _ s).bind fun _ t hle _ => yields_pure ?_
    exact hP.within hle ha.arg
  · exact yields_checked fun _ _ => trivial
  · have hops : ((a.arg 0 "values").forEach fun v => return ← Argument.operation v).Yields s
        fun n ops => ∀ op ∈ ops, True :=
      yields_forEach_within (Q := fun _ _ => True) hP.toAdmits ha.arg (fun _ _ _ _ _ => trivial)
        fun _ t _ _ => timePasses_lift _ t
    refine hops.bind fun ops t hle _ => yields_list hP.toAdmits (Nat.le_trans hs hle) ?_
    refine withinAll_iff.2 fun w hw => ?_
    obtain ⟨op, -, rfl⟩ := List.mem_map.1 hw
    trivial

omit ha in
theorem yields_newFault {c : FaultClass} {message code field : Value}
    (hmessage : message.Within (P s.moment)) (hcode : code.Within (P s.moment))
    (hfield : field.Within (P s.moment)) :
    (newFault c message code field).Yields s fun n v => v.Within (P n) := by
  refine (yields_fresh hP.toAdmits hs).bind fun cell t hle hcell => yields_pure ?_
  have hmessage := hP.within hle hmessage
  exact ⟨hcell, ⟨hmessage, trivial⟩, hmessage, hP.within hle hcode, hP.within hle hfield, trivial⟩

omit ha in
theorem yields_newOtherFault {c : FaultClass} {args : List Value}
    (hargs : WithinAll (P s.moment) args) :
    (newOtherFault c args).Yields s fun n v => v.Within (P n) :=
  (yields_fresh hP.toAdmits hs).bind fun _ _ hle hcell => yields_pure
    ⟨hcell, hP.withinAll hle hargs, trivial⟩

theorem yields_faultFunction {name : String} (h : faultFunction name a = some m) :
    m.Yields s fun n v => v.Within (P n) := by
  unfold faultFunction at h
  split at h <;> cases h
  · exact yields_newFault hP hs ha.arg (ha.get trivial) ha.arg
  · exact yields_newFault hP hs ha.arg trivial ha.arg
  · exact yields_newFault hP hs ha.arg trivial trivial
  · exact yields_newOtherFault hP hs ha.byPlace
  · exact yields_newOtherFault hP hs ha.byPlace
  · exact yields_newOtherFault hP hs ha.byPlace

omit hP hs ha in
theorem yields_memberFunction {name : String} (h : memberFunction name a = some m) :
    m.Yields s fun n v => v.Within (P n) := by
  obtain ⟨vocabulary, -, rfl⟩ := Option.map_eq_some_iff.1 h
  exact yields_checked fun _ _ => trivial

/-- What a function gives has no objects but new ones and those of its arguments. -/
theorem yields_call (name : String) : (call name a).Yields s fun n v => v.Within (P n) := by
  unfold call
  cases h : find? name a with
  | none => exact yields_fail
  | some m =>
    obtain ⟨table, htable, hm⟩ := List.exists_of_findSome?_eq_some h
    simp only [List.mem_cons, List.not_mem_nil, or_false] at htable
    rcases htable with rfl | rfl | rfl | rfl | rfl | rfl | rfl
    · exact yields_identityFunction ha hm
    · exact yields_requestFunction hP hs ha hm
    · exact yields_payloadFunction hP hs ha hm
    · exact yields_valueFunction hP hs ha hm
    · exact yields_checkFunction hP hs ha hm
    · exact yields_faultFunction hP hs ha hm
    · exact yields_memberFunction hm

end Functions

end Function

namespace Expr

mutual

/-- The registers that an expression mentions are among some, and the constants in it have no
objects. -/
def Over (R : String → Prop) : Expr → Prop
  | constant v => v.Within fun _ => False
  | nan => True
  | list items => AllOver R items
  | map entries => EntriesOver R entries
  | view entries => EntriesOver R entries
  | tuple items => AllOver R items
  | set items => AllOver R items
  | frozenSet items => AllOver R items
  | stream items => AllOver R items
  | buffer _ => True
  | foreign _ => True
  | register name => R name
  | call _ args => AllOver R args
  | repeated _ _ => True
  | nested _ _ leaf => Over R leaf

/-- `Over` for every expression of a list. -/
def AllOver (R : String → Prop) : List Expr → Prop
  | [] => True
  | e :: es => Over R e ∧ AllOver R es

/-- `Over` for every expression of the entries of a mapping. -/
def EntriesOver (R : String → Prop) : List (Expr × Expr) → Prop
  | [] => True
  | (k, e) :: es => Over R k ∧ Over R e ∧ EntriesOver R es

end

/-- `Over` for every named expression. -/
def NamedOver (R : String → Prop) (es : List (String × Expr)) : Prop :=
  ∀ e ∈ es, e.2.Over R

mutual

theorem Over.mono {R R' : String → Prop} (hR : ∀ x, R x → R' x) : ∀ {e : Expr}, e.Over R → e.Over R'
  | constant _, h => h
  | register name, h => hR name h
  | list _, h | tuple _, h | set _, h | frozenSet _, h | stream _, h | call _ _, h =>
    AllOver.mono hR h
  | map _, h | view _, h => EntriesOver.mono hR h
  | nested _ _ leaf, h => Over.mono (e := leaf) hR h
  | nan, _ | buffer _, _ | foreign _, _ | repeated _ _, _ => trivial

theorem AllOver.mono {R R' : String → Prop} (hR : ∀ x, R x → R' x) :
    ∀ {es : List Expr}, AllOver R es → AllOver R' es
  | [], _ => trivial
  | _ :: _, h => ⟨h.1.mono hR, h.2.mono hR⟩

theorem EntriesOver.mono {R R' : String → Prop} (hR : ∀ x, R x → R' x) :
    ∀ {es : List (Expr × Expr)}, EntriesOver R es → EntriesOver R' es
  | [], _ => trivial
  | (_, _) :: _, h => ⟨h.1.mono hR, h.2.1.mono hR, h.2.2.mono hR⟩

end

theorem NamedOver.mono {R R' : String → Prop} (hR : ∀ x, R x → R' x) {es : List (String × Expr)}
    (h : NamedOver R es) : NamedOver R' es :=
  fun e he => (h e he).mono hR

/-- The values of some registers have only objects of a kind. -/
def Supplies (registers : Registers) (R : String → Prop) (P : Cell → Prop) : Prop :=
  ∀ name v, R name → registers.lookup name = some v → v.Within P

theorem Supplies.mono {registers : Registers} {R : String → Prop} {P Q : Cell → Prop}
    (hPQ : ∀ c, P c → Q c) (h : Supplies registers R P) : Supplies registers R Q :=
  fun name v hname hv => (h name v hname hv).mono hPQ

variable {registers : Registers} {R : String → Prop}

section Evaluation

variable (hP : Scope P start)

include hP

theorem yields_wrap (hs : start ≤ s.moment) (nesting : Nesting) {v : Value}
    (hv : v.Within (P s.moment)) : (wrap nesting v).Yields s fun n w => w.Within (P n) := by
  cases nesting with
  | mapping => exact yields_map hP.toAdmits hs ⟨trivial, hv, trivial⟩
  | list => exact yields_list hP.toAdmits hs (withinAll_singleton hv)
  | both =>
    refine (yields_list hP.toAdmits hs (withinAll_singleton hv)).bind fun inner t hle h => ?_
    exact yields_map hP.toAdmits (Nat.le_trans hs hle) ⟨trivial, h, trivial⟩

theorem yields_wrapTimes (hs : start ≤ s.moment) (nesting : Nesting) (count : Nat) {v : Value}
    (hv : v.Within (P s.moment)) :
    (wrapTimes nesting count v).Yields s fun n w => w.Within (P n) := by
  induction count generalizing s v with
  | zero => exact yields_pure hv
  | succ count ih =>
    refine (yields_wrap hP hs nesting hv).bind fun w t hle hw => ?_
    exact ih (Nat.le_trans hs hle) hw

mutual

/-- The value of an expression has no objects but new ones and those of the registers in it. -/
theorem yields_eval : ∀ (e : Expr) {s : Making.State}, start ≤ s.moment → e.Over R →
    Supplies registers R (P s.moment) → (eval registers e).Yields s fun n v => v.Within (P n)
  | constant v, s, hs, he, hR => yields_pure (Within.mono (fun _ h => h.elim) he)
  | nan, s, hs, he, hR => (yields_fresh hP.toAdmits hs).bind fun _ _ _ _ => yields_pure trivial
  | list items, s, hs, he, hR =>
    (yields_evalAll items hs he hR).bind fun _ _ hle h =>
      yields_list hP.toAdmits (Nat.le_trans hs hle) h
  | map entries, s, hs, he, hR =>
    (yields_evalEntries entries hs he hR withinEntries_nil).bind fun _ _ hle h =>
      yields_map hP.toAdmits (Nat.le_trans hs hle) h
  | view entries, s, hs, he, hR =>
    (yields_evalEntries entries hs he hR withinEntries_nil).bind fun _ _ _ h => yields_pure h
  | tuple items, s, hs, he, hR => (yields_evalAll items hs he hR).bind fun _ _ _ h => yields_pure h
  | set items, s, hs, he, hR => by
    refine (yields_evalMembers items hs he hR withinAll_nil).bind fun members t hle h => ?_
    refine (yields_fresh hP.toAdmits (Nat.le_trans hs hle)).bind fun cell u hle' hcell =>
      yields_pure ?_
    exact ⟨hcell, hP.withinAll hle' h⟩
  | frozenSet items, s, hs, he, hR =>
    (yields_evalMembers items hs he hR withinAll_nil).bind fun _ _ _ h => yields_pure h
  | stream items, s, hs, he, hR => by
    refine (yields_evalAll items hs he hR).bind fun vs t hle h => ?_
    refine (yields_fresh hP.toAdmits (Nat.le_trans hs hle)).bind fun cell u hle' hcell =>
      yields_pure ?_
    exact ⟨hcell, hP.withinAll hle' h⟩
  | buffer bs, s, hs, he, hR => (yields_fresh hP.toAdmits hs).bind fun _ _ _ hcell =>
    yields_pure hcell
  | foreign kind, s, hs, he, hR => yields_object hP.toAdmits hs trivial
  | register name, s, hs, he, hR => by
    refine yields_lift fun v hv => ?_
    unfold Registers.read at hv
    split at hv <;> cases hv
    rename_i hv
    exact hR name v he hv
  | call function args, s, hs, he, hR =>
    (yields_evalAll args hs he hR).bind fun _ _ hle h =>
      Function.yields_call hP (Nat.le_trans hs hle) ⟨h, withinAttrs_nil⟩ function
  | repeated _ _, s, hs, he, hR => yields_pure trivial
  | nested nesting count leaf, s, hs, he, hR =>
    (yields_eval leaf hs he hR).bind fun _ _ hle h =>
      yields_wrapTimes hP (Nat.le_trans hs hle) nesting count h

theorem yields_evalAll : ∀ (es : List Expr) {s : Making.State}, start ≤ s.moment → AllOver R es →
    Supplies registers R (P s.moment) → (evalAll registers es).Yields s fun n vs =>
      WithinAll (P n) vs
  | [], s, hs, he, hR => yields_pure trivial
  | e :: es, s, hs, he, hR => by
    refine (yields_eval e hs he.1 hR).bind fun v t hle hv => ?_
    refine (yields_evalAll es (Nat.le_trans hs hle) he.2 (hR.mono fun _ => hP.later hle)).bind
      fun vs u hle' hvs => yields_pure ?_
    exact ⟨hP.within hle' hv, hvs⟩

theorem yields_evalMembers : ∀ (es : List Expr) {s : Making.State} {members : List Value},
    start ≤ s.moment → AllOver R es → Supplies registers R (P s.moment) →
      WithinAll (P s.moment) members →
        (evalMembers registers members es).Yields s fun n vs => WithinAll (P n) vs
  | [], s, members, hs, he, hR, hmembers => yields_pure hmembers
  | e :: es, s, members, hs, he, hR, hmembers => by
    refine (yields_eval e hs he.1 hR).bind fun v t hle hv => ?_
    have hinsert : (liftM (Value.insert v members) : Making _).Yields t fun n vs =>
        WithinAll (P n) vs :=
      yields_lift fun _ h => (hP.withinAll hle hmembers).insert hv h
    refine hinsert.bind fun members' u hle' hmembers' => ?_
    have hle'' := Nat.le_trans hle hle'
    exact yields_evalMembers es (Nat.le_trans hs hle'') he.2
      (hR.mono fun _ => hP.later hle'') hmembers'

theorem yields_evalEntries : ∀ (es : List (Expr × Expr)) {s : Making.State}
    {entries : List (Value × Value)}, start ≤ s.moment → EntriesOver R es →
      Supplies registers R (P s.moment) → WithinEntries (P s.moment) entries →
        (evalEntries registers entries es).Yields s fun n es => WithinEntries (P n) es
  | [], s, entries, hs, he, hR, hentries => yields_pure hentries
  | (k, e) :: es, s, entries, hs, he, hR, hentries => by
    refine (yields_eval k hs he.1 hR).bind fun key t hle hkey => ?_
    have hR' := hR.mono fun _ => hP.later hle
    refine (yields_eval e (Nat.le_trans hs hle) he.2.1 hR').bind fun v u hle' hv => ?_
    have hle'' := Nat.le_trans hle hle'
    have hput : (liftM (Value.put key v entries) : Making _).Yields u fun n es =>
        WithinEntries (P n) es :=
      yields_lift fun _ h => (hP.withinEntries hle'' hentries).put (hP.within hle' hkey) hv h
    refine hput.bind fun entries' r hle₃ hentries' => ?_
    have hle₄ := Nat.le_trans hle'' hle₃
    exact yields_evalEntries es (Nat.le_trans hs hle₄) he.2.2
      (hR.mono fun _ => hP.later hle₄) hentries'

end

theorem yields_evalNamed {es : List (String × Expr)} (hs : start ≤ s.moment) (he : NamedOver R es)
    (hR : Supplies registers R (P s.moment)) :
    (evalNamed registers es).Yields s fun n fields => WithinAttrs (P n) fields := by
  induction es generalizing s with
  | nil => exact yields_pure trivial
  | cons e es ih =>
    unfold NamedOver at he
    rw [List.forall_mem_cons] at he
    refine (yields_eval hP e.2 hs he.1 hR).bind fun v t hle hv => ?_
    refine (ih (Nat.le_trans hs hle) he.2 (hR.mono fun _ => hP.later hle)).bind
      fun fields u hle' h => yields_pure ?_
    exact ⟨hP.within hle' hv, h⟩

end Evaluation

/-! ### Time -/

theorem supplies_all (registers : Registers) (R : String → Prop) :
    Supplies registers R fun _ => True :=
  fun _ v _ _ => within_of_forall (fun _ => trivial) v

theorem timePasses_eval {e : Expr} (he : e.Over R) : TimePasses (e.eval registers) :=
  .of_yields fun s => yields_eval (scope_all s.moment) e (Nat.le_refl _) he
    (supplies_all registers R)

theorem timePasses_evalAll {es : List Expr} (he : AllOver R es) :
    TimePasses (evalAll registers es) :=
  .of_yields fun s => yields_evalAll (scope_all s.moment) es (Nat.le_refl _) he
    (supplies_all registers R)

theorem timePasses_evalNamed {es : List (String × Expr)} (he : NamedOver R es) :
    TimePasses (evalNamed registers es) :=
  .of_yields fun s => yields_evalNamed (scope_all s.moment) (Nat.le_refl _) he
    (supplies_all registers R)

end Expr

end CredentialWrites
