import CredentialWrites.Proofs.Request.Scope
import CredentialWrites.Proofs.Script.Keeps
import CredentialWrites.Proofs.Script.Scope

/-!
# What the registers of a session hold

A layout says what each register may hold as time passes. From some registers only values whose
objects are in a scope are read, and some may hold every such value. What the others hold stays what
they may hold when an object of the scope is changed. What reads from the ones and writes to the
others changes nothing but objects of the scope, and so it keeps the layout.

* `Session.Layout` : what the registers may hold.
* `Session.Holds` : the registers hold what a layout says.
* `Session.Layout.keeps_change` : a change to what is read.
* `Session.Layout.keeps_callWith` : a call on what is read.
-/

namespace CredentialWrites

open Making Value

/-- What the registers may hold at a moment: values that stay what they may be when time passes and
when an object of the scope is changed. What is read from some registers is within the scope, and
some may hold all that is. -/
structure Session.Layout (P : Nat → Cell → Prop) (start : Nat) (reads writes : String → Prop)
    (J : String → Nat → Value → Prop) : Prop where
  scope : Scope P start
  later : ∀ {x : String} {n n' : Nat} {v : Value}, n ≤ n' → J x n v → J x n' v
  replace : ∀ {x : String} {n : Nat} {c : Cell} {new v : Value}, P n c →
  new.Within (P n) → J x n v →
    J x n (Value.replace c new v)
  within : ∀ {x : String} {n : Nat} {v : Value}, reads x → J x n v → v.Within (P n)
  holds : ∀ {x : String} {n : Nat} {v : Value}, writes x → v.Within (P n) → J x n v

/-- The registers hold what they may, some are filled, and time has come to a moment. -/
structure Session.Holds (J : String → Nat → Value → Prop) (filled : String → Prop) (start : Nat)
    (s : Session) : Prop where
  start_le : start ≤ s.made.moment
  content : ∀ x v, s.registers.lookup x = some v → J x s.made.moment v
  filled : ∀ x, filled x → (s.registers.lookup x).isSome

namespace Session

variable {P : Nat → Cell → Prop} {start : Nat} {reads writes filled : String → Prop}
  {J : String → Nat → Value → Prop} {s : Session} {p : Progress}

theorem Holds.of_eq {s' : Session} (h : Holds J filled start s)
    (hregisters : s'.registers = s.registers) (hmade : s'.made = s.made) :
    Holds J filled start s' := by
  obtain ⟨hstart, hcontent, hfilled⟩ := h
  rw [← hmade, ← hregisters] at *
  exact ⟨hstart, hcontent, hfilled⟩

/-- A value is stored in a register that may hold it. -/
theorem Holds.store {name : String} {v : Value} (h : Holds J filled start s)
    (hv : J name s.made.moment v) :
    Holds J filled start { s with registers := s.registers.store name v } where
  start_le := h.start_le
  content := fun x w hw => by
    by_cases hx : x = name
    · subst hx
      rw [lookup_store_self] at hw
      cases hw
      exact hv
    · rw [lookup_store_of_ne hx] at hw
      exact h.content x w hw
  filled := fun x hx => by
    by_cases hname : x = name
    · rw [hname, lookup_store_self]
      rfl
    · rw [lookup_store_of_ne hname]
      exact h.filled x hx

namespace Layout

variable (L : Layout P start reads writes J)

include L

theorem later_holds {made : Making.State} (h : Holds J filled start s)
    (hle : s.made.moment ≤ made.moment) : Holds J filled start { s with made } where
  start_le := Nat.le_trans h.start_le hle
  content := fun x v hv => L.later hle (h.content x v hv)
  filled := h.filled

/-- An object of the scope is changed. -/
theorem put_holds {new : Value} (h : Holds J filled start s) (hnew : new.Within (P s.made.moment)) :
    Holds J filled start (s.put new) := by
  unfold Session.put
  split
  · rename_i c hc
    have hcell : P s.made.moment c := hnew.of_cell? hc
    refine ⟨h.start_le, fun x v hv => ?_, fun x hx => ?_⟩
    · rw [lookup_replace] at hv
      obtain ⟨w, hw, rfl⟩ := Option.map_eq_some_iff.1 hv
      exact L.replace hcell hnew (h.content x w hw)
    · rw [lookup_replace, Option.isSome_map]
      exact h.filled x hx
  · exact h

theorem putBuilder_holds (kind : ObjectKind) {cell : Cell} {attrs : List (String × Value)}
    (h : Holds J filled start s) (hcell : P s.made.moment cell)
    (hattrs : WithinAttrs (P s.made.moment) attrs) :
    Holds J filled start (s.putBuilder kind cell attrs) := by
  have hvalues : ∀ v ∈ attrs.map Prod.snd, v.Within (P s.made.moment) := by
    intro v hv
    obtain ⟨a, ha, rfl⟩ := List.mem_map.1 hv
    exact withinAttrs_iff.1 hattrs a ha
  have hputs {news : List Value} : ∀ {s : Session}, Holds J filled start s →
      (∀ v ∈ news, v.Within (P s.made.moment)) →
        Holds J filled start (news.foldl put s) ∧ (news.foldl put s).made = s.made := by
    induction news with
    | nil => exact fun h _ => ⟨h, rfl⟩
    | cons new news ih =>
      intro s h hnews
      rw [List.forall_mem_cons] at hnews
      have hmade : (s.put new).made = s.made := by rw [put_eq]
      have hrest := ih (L.put_holds h hnews.1) (by rw [hmade]; exact hnews.2)
      exact ⟨hrest.1, hrest.2.trans hmade⟩
  obtain ⟨hall, hmade⟩ := hputs h hvalues
  refine L.put_holds hall ?_
  rw [hmade]
  exact ⟨hcell, hattrs⟩

/-! ### Parts of steps -/

/-- What a step has made and taken so far leaves the registers as they are. -/
theorem keeps_make {α : Type} {m : Making α} {Q : Nat → α → Prop}
    (h : Holds J filled start p.session) (hm : m.Yields p.session.made Q) :
    (Run.make m).Keeps p (Holds J filled start) fun s a =>
      p.session.made.moment ≤ s.made.moment ∧ Q s.made.moment a :=
  Run.Keeps.of_yields hm (fun _ hle => L.later_holds h hle) fun _ _ hle ha => ⟨hle, ha⟩

theorem supplies (h : Holds J filled start s) :
    Expr.Supplies s.registers reads (P s.made.moment) :=
  fun x v hx hv => L.within hx (h.content x v hv)

/-- The value of an expression over readable registers is in the scope. -/
theorem keeps_eval {e : Expr} (h : Holds J filled start p.session) (he : e.Over reads) :
    (Run.eval e).Keeps p (Holds J filled start) fun s v =>
      p.session.made.moment ≤ s.made.moment ∧ v.Within (P s.made.moment) :=
  Run.keeps_eval (L.keeps_make h (Expr.yields_eval L.scope e h.start_le he (L.supplies h)))

theorem keeps_evalAll {es : List Expr} (h : Holds J filled start p.session)
    (he : Expr.AllOver reads es) : (Run.evalAll es).Keeps p (Holds J filled start) fun s vs =>
      p.session.made.moment ≤ s.made.moment ∧ WithinAll (P s.made.moment) vs := by
  refine (L.keeps_make h (Expr.yields_evalAll L.scope es h.start_le he (L.supplies h))).of_run_eq ?_
  rw [Run.evalAll, Run.run_bind, Run.run_current]

theorem keeps_evalNamed {es : List (String × Expr)} (h : Holds J filled start p.session)
    (he : Expr.NamedOver reads es) :
    (Run.evalNamed es).Keeps p (Holds J filled start) fun s fields =>
      p.session.made.moment ≤ s.made.moment ∧ WithinAttrs (P s.made.moment) fields := by
  refine (L.keeps_make h (Expr.yields_evalNamed L.scope h.start_le he (L.supplies h))).of_run_eq ?_
  rw [Run.evalNamed, Run.run_bind, Run.run_current]

omit L in
theorem keeps_emitAll {rs : List LogRecord} (h : Holds J filled start p.session) :
    (rs.forM fun r => discard (Run.emit r)).Keeps p (Holds J filled start) fun s _ =>
      p.session.made.moment ≤ s.made.moment :=
  (Run.keeps_emitAll h).mono fun s _ _ hs => Nat.le_of_eq (by rw [hs])

/-- What is read is in the scope. -/
theorem keeps_read {x : String} (hx : reads x) (h : Holds J filled start p.session) :
    (Run.read x).Keeps p (Holds J filled start) fun s v =>
      p.session.made.moment ≤ s.made.moment ∧ v.Within (P s.made.moment) :=
  (Run.keeps_read h).mono fun s v _ hs => by
    obtain ⟨rfl, hv⟩ := hs
    exact ⟨Nat.le_refl _, L.within hx (h.content x v hv)⟩

/-- What is in the scope is stored in a writable register, which is the last thing that is done. -/
theorem keeps_store {store : Option String} {v : Value} {α : Type} {a : α}
    (h : Holds J filled start p.session) (hv : v.Within (P p.session.made.moment))
    (hstore : ∀ x, store = some x → writes x) :
    (Run.store store v >>= fun _ => pure a).Keeps p (Holds J filled start) fun _ _ => True := by
  have hput : (Run.store store v).Keeps p (Holds J filled start) fun _ _ => True := by
    cases store with
    | none => exact Run.keeps_pure h trivial
    | some name =>
      have hupdate : (Run.update fun s => { s with registers := s.registers.store name v }).Keeps p
          (Holds J filled start) fun s _ =>
          s = { p.session with registers := p.session.registers.store name v } :=
        Run.keeps_update (h.store (L.holds (hstore name rfl) hv))
      exact hupdate.mono fun _ _ _ _ => trivial
  exact hput.bind fun _ q hq _ => Run.keeps_pure hq trivial

omit L in
/-- The settings are kept apart from the registers. -/
theorem keeps_settings (h : Holds J filled start p.session) :
    Run.settings.Keeps p (Holds J filled start) fun s _ =>
      p.session.made.moment ≤ s.made.moment := by
  refine (Run.keeps_current h).bind fun s q hq hs => ?_
  obtain ⟨hqs, rfl⟩ := hs
  have hupdate {cache : SettingsCache} {q : Progress} (hq : Holds J filled start q.session)
      (hle : p.session.made.moment ≤ q.session.made.moment) :
      (Run.update fun s => { s with cache }).Keeps q (Holds J filled start) fun s _ =>
        p.session.made.moment ≤ s.made.moment :=
    (Run.keeps_update (hq.of_eq rfl rfl)).mono fun s _ _ hs => by rwa [hs]
  have hle : p.session.made.moment ≤ q.session.made.moment := Nat.le_of_eq (by rw [hqs])
  dsimp only
  split
  · refine (keeps_emitAll hq).bind fun _ r hr hs => ?_
    refine (hupdate hr (Nat.le_trans hle hs)).bind fun _ t ht hle => ?_
    split
    · exact Run.keeps_pure ht hle
    · exact Run.keeps_throw ht
  · refine (hupdate hq hle).bind fun _ t ht hle => ?_
    split
    · exact Run.keeps_pure ht hle
    · exact Run.keeps_throw ht

/-! ### Changes -/

/-- What is found along a path from a value in the scope is in the scope. -/
theorem keeps_along {path : List Expr} (hpath : Expr.AllOver reads path) {v : Value}
    (h : Holds J filled start p.session) (hv : v.Within (P p.session.made.moment)) :
    (along v path).Keeps p (Holds J filled start) fun s w =>
      p.session.made.moment ≤ s.made.moment ∧ w.Within (P s.made.moment) := by
  induction path generalizing v p with
  | nil => exact Run.keeps_pure h ⟨Nat.le_refl _, hv⟩
  | cons e path ih =>
    refine (L.keeps_eval h hpath.1).bind fun key q hq hkey => ?_
    have hitem : (liftM (v.item key) : Making Value).Yields q.session.made fun n w =>
        w.Within (P n) :=
      yields_lift fun w hw => (L.scope.within hkey.1 hv).item hw
    refine (L.keeps_make hq hitem).bind fun w r hr hw => ?_
    refine (ih hpath.2 hr hw.2).mono fun s u _ hu => ⟨?_, hu.2⟩
    exact Nat.le_trans hkey.1 (Nat.le_trans hw.1 hu.1)

/-- A value in the scope, changed with values in the scope, is in the scope. -/
theorem keeps_changed {c : Change} (hc : ∀ e ∈ c.exprs, e.Over reads) {v : Value}
    (h : Holds J filled start p.session) (hv : v.Within (P p.session.made.moment)) :
    (changed v c).Keeps p (Holds J filled start) fun s w => w.Within (P s.made.moment) := by
  cases c with
  | set key value =>
    refine (L.keeps_eval h (hc value (by simp [Change.exprs]))).bind fun new q hq hnew => ?_
    refine (L.keeps_eval hq (hc key (by simp [Change.exprs]))).bind fun key r hr hkey => ?_
    have hv := L.scope.within (Nat.le_trans hnew.1 hkey.1) hv
    have hset : (liftM (v.setItem key new) : Making Value).Yields r.session.made fun n w =>
        w.Within (P n) :=
      yields_lift fun w hw => hv.setItem hkey.2 (L.scope.within hkey.1 hnew.2) hw
    exact (L.keeps_make hr hset).mono fun _ _ _ hw => hw.2
  | delete key =>
    refine (L.keeps_eval h (hc key (by simp [Change.exprs]))).bind fun key q hq hkey => ?_
    have hdelete : (liftM (v.deleteItem key) : Making Value).Yields q.session.made fun n w =>
        w.Within (P n) :=
      yields_lift fun w hw => (L.scope.within hkey.1 hv).deleteItem hw
    exact (L.keeps_make hq hdelete).mono fun _ _ _ hw => hw.2
  | append value =>
    have hvalue := hc value (by simp [Change.exprs])
    dsimp only [changed]
    split
    · exact (L.keeps_eval h hvalue).bind fun _ q hq _ => Run.keeps_throw hq
    · exact Run.keeps_throw h
    · refine (L.keeps_eval h hvalue).bind fun new q hq hnew => ?_
      have happend : (liftM (v.append new) : Making Value).Yields q.session.made fun n w =>
          w.Within (P n) :=
        yields_lift fun w hw => (L.scope.within hnew.1 hv).append hnew.2 hw
      exact (L.keeps_make hq happend).mono fun _ _ _ hw => hw.2

/-- A change to what is read keeps the layout. -/
theorem keeps_change {x : String} {path : List Expr} {c : Change} (hx : reads x)
    (hpath : Expr.AllOver reads path) (hc : ∀ e ∈ c.exprs, e.Over reads)
    (h : Holds J filled start p.session) :
    (change x path c).Keeps p (Holds J filled start) fun _ _ => True := by
  refine (L.keeps_read hx h).bind fun v q hq hv => ?_
  refine (L.keeps_along hpath hq hv.2).bind fun container r hr hcontainer => ?_
  refine (L.keeps_changed hc hr hcontainer.2).bind fun new t ht hnew => ?_
  refine (Run.keeps_update (L.put_holds ht hnew)).bind fun _ u hu _ => ?_
  exact (Run.keeps_read hu).bind fun _ w hw _ => Run.keeps_pure hw trivial

/-- An assignment to an attribute of what is read keeps the layout. -/
theorem keeps_setAttribute {x name : String} {e : Expr} (hx : reads x) (he : e.Over reads)
    (h : Holds J filled start p.session) :
    (setAttribute x name e).Keeps p (Holds J filled start) fun _ _ => True := by
  refine (L.keeps_read hx h).bind fun v q hq hv => ?_
  refine (L.keeps_eval hq he).bind fun value r hr hvalue => ?_
  have hset : (v.setAttr name value).Yields r.session.made fun n w => w.Within (P n) :=
    yields_setAttr L.scope (L.scope.within hvalue.1 hv.2) hvalue.2
  refine (L.keeps_make hr hset).bind fun new t ht hnew => ?_
  exact (Run.keeps_update (L.put_holds ht hnew.2)).bind fun _ u hu _ => Run.keeps_pure hu trivial

/-! ### Methods -/

omit L in
theorem within_permission {P : Cell → Prop} (g : Permission) : g.toValue.Within P := by
  obtain ⟨actor, operations⟩ := g
  have hoperations : WithinAll P (operations.map fun op => Value.member (.operation op)) := by
    refine withinAll_iff.2 fun v hv => ?_
    obtain ⟨op, -, rfl⟩ := List.mem_map.1 hv
    trivial
  cases actor with
  | none => exact ⟨trivial, hoperations, trivial⟩
  | some a => exact ⟨Function.within_actor a, hoperations, trivial⟩

omit L in
theorem yields_permissionStore (hP : Admits P start) {made : Making.State}
    (hs : start ≤ made.moment)
    (b : PermissionBuilder) {attrs : List (String × Value)}
    (hattrs : WithinAttrs (P made.moment) attrs) :
    (b.store attrs).Yields made fun n attrs => WithinAttrs (P n) attrs := by
  have hitems : ∀ vs, b.operations.map PermissionBuilder.operationValues = some vs →
      WithinAll (P made.moment) vs := by
    intro vs hvs
    obtain ⟨ops, -, rfl⟩ := Option.map_eq_some_iff.1 hvs
    refine withinAll_iff.2 fun v hv => ?_
    obtain ⟨op, -, rfl⟩ := List.mem_map.1 hv
    trivial
  have hactor {P : Cell → Prop} : ((b.actor.map Actor.toValue).getD .null).Within P := by
    cases b.actor with
    | none => trivial
    | some a => exact Function.within_actor a
  refine (RequestBuilder.yields_storeList hP hs (fun v hv => hattrs.lookup hv) hitems).bind
    fun list t hle hlist => ?_
  exact yields_pure (((hP.withinAttrs hle hattrs).putAttr hactor).putAttr hlist)

/-- What an answer stores is in the scope. -/
def AnswerWithin (P : Nat → Cell → Prop) (s : Session) : Answer → Prop
  | .value v => v.Within (P s.made.moment)
  | _ => True

/-- An act on a permission builder in the scope keeps the layout. -/
theorem keeps_onPermissionBuilder {cell : Cell} {attrs : List (String × Value)}
    (b : PermissionBuilder) (act : PermissionBuilder.Act) (h : Holds J filled start p.session)
    (hcell : P p.session.made.moment cell) (hattrs : WithinAttrs (P p.session.made.moment) attrs) :
    (Run.onPermissionBuilder cell attrs b act).Keeps p (Holds J filled start) (AnswerWithin P) := by
  unfold Run.onPermissionBuilder
  rcases hperform : b.perform act with ⟨b', answer, records⟩
  dsimp only
  refine (L.keeps_make h (yields_permissionStore L.scope.toAdmits h.start_le b' hattrs)).bind
    fun attrs' q hq hattrs' => ?_
  have hput := L.putBuilder_holds .permissionBuilder hq (L.scope.later hattrs'.1 hcell) hattrs'.2
  refine (Run.keeps_update hput).bind fun _ r hr _ => ?_
  refine (keeps_emitAll hr).bind fun _ t ht _ => ?_
  split
  · exact Run.keeps_pure ht trivial
  · exact Run.keeps_pure ht (within_permission _)
  · exact Run.keeps_throw ht

omit L in
theorem offers_requestArgs {P : Cell → Prop} {method : String} {a : Function.Arguments}
    {act : RequestBuilder.Act} (ha : a.Within P) (h : requestAct? method a = some act) :
    ∀ v ∈ act.args, RequestBuilder.Offers P v := by
  have hargs : WithinAll P act.args := by
    unfold requestAct? at h
    split at h <;> cases h
    all_goals first
      | exact withinAll_nil
      | exact withinAll_singleton ha.arg
  exact fun v hv => .of_within (withinAll_iff.1 hargs v hv)

/-- An act on a request builder in the scope keeps the layout. -/
theorem keeps_onRequestBuilder {cell : Cell} {attrs : List (String × Value)} {b : RequestBuilder}
    {act : RequestBuilder.Act} (h : Holds J filled start p.session)
    (hcell : P p.session.made.moment cell) (hattrs : WithinAttrs (P p.session.made.moment) attrs)
    (hb : b.Within (P p.session.made.moment))
    (hact : ∀ v ∈ act.args, RequestBuilder.Offers (P p.session.made.moment) v) :
    (Run.onRequestBuilder cell attrs b act).Keeps p (Holds J filled start) (AnswerWithin P) := by
  unfold Run.onRequestBuilder
  refine (Run.keeps_current h).bind fun s q hq hs => ?_
  obtain ⟨hqs, rfl⟩ := hs
  rcases hperform : b.perform act p.session.made with ⟨b', answer, records, made⟩
  have hgains := RequestBuilder.gains_perform hact hperform
  have hb' := hgains.within L.scope.toAdmits h.start_le hb
  dsimp only
  have hlater : Holds J filled start { q.session with made } := by
    refine L.later_holds hq ?_
    rw [hqs]
    exact hgains.le
  refine (Run.keeps_update hlater).bind fun _ r hr hs => ?_
  have hmade : r.session.made = made := by rw [hs]
  have hstart : start ≤ r.session.made.moment := hr.start_le
  have hattrs' := L.scope.withinAttrs (hmade ▸ hgains.le) hattrs
  rw [← hmade] at hb'
  refine (L.keeps_make hr (RequestBuilder.yields_store L.scope.toAdmits hstart hattrs' hb')).bind
    fun attrs'' t ht hattrs'' => ?_
  have hcell' := L.scope.later (Nat.le_trans (hmade ▸ hgains.le) hattrs''.1) hcell
  have hput := L.putBuilder_holds .requestBuilder ht hcell' hattrs''.2
  refine (Run.keeps_update hput).bind fun _ u hu hs => ?_
  have hbuilt : b'.Within (P u.session.made.moment) := by
    rw [hs, putBuilder_eq]
    exact hb'.mono fun _ => L.scope.later hattrs''.1
  refine (keeps_emitAll hu).bind fun _ w hw hle => ?_
  split
  · exact Run.keeps_pure hw trivial
  · obtain ⟨-, rfl, rfl, -⟩ := RequestBuilder.eq_of_built hperform
    exact Run.keeps_pure hw (L.scope.within hle (RequestBuilder.within_build hbuilt))
  · exact Run.keeps_throw hw

omit L in
theorem keeps_indentOf {given : Value} (h : Holds J filled start p.session) :
    (indentOf given).Keeps p (Holds J filled start) fun _ _ => True := by
  unfold indentOf
  split
  · exact (keeps_settings h).bind fun _ q hq _ => Run.keeps_pure hq trivial
  · exact Run.keeps_pure h trivial

/-- What is made for some time is in the scope at its end. -/
theorem keeps_makeValue {m : Making Value} (h : Holds J filled start p.session)
    (hm : m.Yields p.session.made fun n v => v.Within (P n)) :
    (Run.make m).Keeps p (Holds J filled start) fun s v => v.Within (P s.made.moment) :=
  (L.keeps_make h hm).mono fun _ _ _ hv => hv.2

/-- A text is in every scope. -/
theorem keeps_text {m : Making String} (h : Holds J filled start p.session) (hm : TimePasses m) :
    (do return .text (← Run.make m) : Run Value).Keeps p (Holds J filled start)
      fun s v => v.Within (P s.made.moment) :=
  (L.keeps_make h (hm p.session.made)).bind fun _ _ hq _ => Run.keeps_pure hq trivial

/-- What a value is rendered from has cells of a kind: the attributes of a request, the keys of a
document, and all parts of a permission and of a payload. No other value is rendered by a method. -/
def RendersWithin (P : Cell → Prop) : Value → Prop
  | .record .request fields => Payload.RenderedWithin P (.record .request fields)
  | .record .json fields => ∀ content ∈ fields, content.KeysWithin P
  | .record .permission fields => (Value.record .permission fields).Within P
  | .object .requestPayload c attrs => (Value.object .requestPayload c attrs).Within P
  | _ => True

omit L in
theorem RendersWithin.of_within {P : Cell → Prop} {v : Value} (hshared : P []) (hv : v.Within P) :
    RendersWithin P v := by
  unfold RendersWithin
  split
  · exact .of_within hshared hv
  · exact fun content hcontent => (withinAll_iff.1 hv content hcontent).keysWithin
  · exact hv
  · exact hv
  · trivial

/-- A method of a value that is no builder gives a value in the scope. -/
theorem keeps_valueMethod {v : Value} {method : String} {a : Function.Arguments}
    (h : Holds J filled start p.session) (hv : RendersWithin (P p.session.made.moment) v)
    (ha : a.Within (P p.session.made.moment)) :
    (valueMethod v method a).Keeps p (Holds J filled start) fun s v =>
      v.Within (P s.made.moment) := by
  have hP := L.scope.toAdmits
  unfold valueMethod
  split
  · exact L.keeps_makeValue h (Payload.yields_requestToDict L.scope h.start_le hv)
  · exact L.keeps_makeValue h (Payload.yields_ofRequest L.scope h.start_le hv)
  · refine (keeps_indentOf h).bind fun indent q hq _ => ?_
    exact L.keeps_text hq (Payload.timePasses_requestToJson _ indent)
  · exact L.keeps_makeValue h (Payload.yields_permissionToDict L.scope h.start_le hv)
  · exact L.keeps_makeValue h (yields_thaw hP _ h.start_le (hv _ (List.mem_singleton_self _)))
  · exact L.keeps_makeValue h (Payload.yields_toDict hP h.start_le hv)
  · exact L.keeps_makeValue h ((Payload.timePasses_toJson _ _ _).bind fun _ _ _ _ =>
      yields_pure trivial)
  · -- what is called is a function of the kind, which is given the arguments only
    refine (L.keeps_make h (timePasses_attr _ _ _)).bind fun part q hq hpart => ?_
    have ha : a.Within (P q.session.made.moment) :=
      ⟨L.scope.withinAll hpart.1 ha.byPlace, L.scope.withinAttrs hpart.1 ha.byName⟩
    split
    · exact L.keeps_makeValue hq (Function.yields_call L.scope hq.start_le ha _)
    · exact Run.keeps_throw hq

/-- A method of a value in the scope answers with a value in the scope, or with that value
itself. -/
theorem keeps_method {v : Value} {name : String} {a : Function.Arguments}
    (h : Holds J filled start p.session) (hv : v.Within (P p.session.made.moment))
    (ha : a.Within (P p.session.made.moment)) :
    (method v name a).Keeps p (Holds J filled start) (AnswerWithin P) := by
  have hother (v : Value) (hv : v.Within (P p.session.made.moment)) :
      (Answer.value <$> valueMethod v name a).Keeps p (Holds J filled start) (AnswerWithin P) :=
    (L.keeps_valueMethod h (.of_within (L.scope.shared _) hv) ha).map fun _ _ _ hw => hw
  unfold method
  split
  · split
    · exact L.keeps_onPermissionBuilder _ _ h hv.1 hv.2
    · exact hother _ hv
  · split
    · rename_i act b _ hact hb
      exact L.keeps_onRequestBuilder h hv.1 hv.2 (RequestBuilder.within_of_ofAttrs? hv.2 hb)
        (offers_requestArgs ha hact)
    · exact hother _ hv
  · exact hother _ hv

/-! ### Steps -/

/-- What is left of a call when its arguments are there. -/
def callWith (function : String) (on store : Option String) (a : Function.Arguments) : Run Answer :=
  match on with
  | none => do
    let v ← Run.make (Function.call function a)
    Run.store store v
    return .value v
  | some on => do
    match ← method (← Run.read on) function a with
    | .self => do
      Run.store store (← Run.read on)
      return .self
    | .value v => do
      Run.store store v
      return .value v
    | answer => return answer

/-- The arguments of a call over open registers are in the scope. -/
theorem keeps_call {function : String} {on store : Option String} {args : List Expr}
    {named : List (String × Expr)} {I : Session → Prop} {Q : Session → Answer → Prop}
    (h : Holds J filled start p.session) (hargs : Expr.AllOver reads args)
    (hnamed : Expr.NamedOver reads named) (hI : ∀ s, Holds J filled start s → I s)
    (hrest : ∀ a q, Holds J filled start q.session → a.Within (P q.session.made.moment) →
      (callWith function on store a).Keeps q I Q) :
    (call function on args named store).Keeps p I Q := by
  refine ((L.keeps_evalAll h hargs).imp hI).bind fun byPlace q _ hq => ?_
  refine ((L.keeps_evalNamed hq.1 hnamed).imp hI).bind fun byName r _ hr => ?_
  exact hrest ⟨byPlace, byName⟩ r hr.1 ⟨L.scope.withinAll hr.2.1 hq.2.2, hr.2.2⟩

/-- What a call on a readable register answers may be stored in a writable one. -/
theorem keeps_callWith {function : String} {on store : Option String} {a : Function.Arguments}
    (hon : ∀ x, on = some x → reads x) (hstore : ∀ x, store = some x → writes x)
    (h : Holds J filled start p.session) (ha : a.Within (P p.session.made.moment)) :
    (callWith function on store a).Keeps p (Holds J filled start) fun _ _ => True := by
  cases on with
  | none =>
    exact (L.keeps_makeValue h (Function.yields_call L.scope h.start_le ha function)).bind
      fun v q hq hv => L.keeps_store hq hv hstore
  | some x =>
    have hx := hon x rfl
    refine (L.keeps_read hx h).bind fun v q hq hv => ?_
    have ha : a.Within (P q.session.made.moment) :=
      ⟨L.scope.withinAll hv.1 ha.byPlace, L.scope.withinAttrs hv.1 ha.byName⟩
    refine (L.keeps_method hq hv.2 ha).bind fun answer r hr hanswer => ?_
    cases answer with
    | self =>
      exact (L.keeps_read hx hr).bind fun w t ht hw => L.keeps_store ht hw.2 hstore
    | value w => exact L.keeps_store hr hanswer hstore
    | _ => exact Run.keeps_pure hr trivial

end Layout

end Session

end CredentialWrites
