import CredentialWrites.Proofs.Request.Apart

/-!
# Steps that leave builders and what they built apart

The steps of a session work with the common registers as they like. On a builder they call its
methods, and on what it built those that render it, with arguments that are common and results that
are stored where they belong; of what was built they may also take parts. After every such step the
registers hold what they are for, and what is to be kept in some of them is there.

* `Action.Respects` : an action works with registers for what they are for.
* `Session.apart_step` : such an action leaves the registers apart.
* `Session.apart_after` : and so do any number of them.
-/

namespace CredentialWrites

open Making Value

/-- Where an attribute of what was built belongs. -/
def Role.ofPart (name : String) : Role :=
  if name = "value" ∨ name = "credential_value" then .built else .common

/-- An action works with registers for what they are for, and writes to registers of a kind only. -/
inductive Action.Respects (role : String → Role) (writes : String → Prop) : Action → Prop where
  | common {a : Action}
      (ha : a.Uses (fun x => role x = .common) fun x => role x = .common ∧ writes x) :
      Respects role writes a
  | newBuilder {args : List Expr} {named : List (String × Expr)} {store : String}
      (hargs : Expr.AllOver (fun x => role x = .common) args)
      (hnamed : Expr.NamedOver (fun x => role x = .common) named)
      (hstore : role store = .builder) (hwrites : writes store) :
      Respects role writes (.call "WriteRequest.builder" none args named (some store))
  | onBuilder {method on : String} {args : List Expr} {named : List (String × Expr)}
      {store : Option String} (hon : role on = .builder)
      (hargs : Expr.AllOver (fun x => role x = .common) args)
      (hnamed : Expr.NamedOver (fun x => role x = .common) named)
      (hstore : ∀ x, store = some x → role x = .ofMethod method ∧ writes x) :
      Respects role writes (.call method (some on) args named store)
  | reuse {method on source : String} {store : Option String} (hon : role on = .builder)
      (hsource : role source = .built) (hmethod : Role.ofMethod method ≠ .common)
      (hstore : ∀ x, store = some x → role x = .ofMethod method ∧ writes x) :
      Respects role writes (.call method (some on) [.register source] [] store)
  | onBuilt {method on : String} {args : List Expr} {named : List (String × Expr)}
      {store : Option String} (hon : role on = .built)
      (hargs : Expr.AllOver (fun x => role x = .common) args)
      (hnamed : Expr.NamedOver (fun x => role x = .common) named)
      (hstore : ∀ x, store = some x → role x = .common ∧ writes x) :
      Respects role writes (.call method (some on) args named store)
  | part {on name : String} {store : Option String} (hon : role on = .built)
      (hstore : ∀ x, store = some x → role x = .ofPart name ∧ writes x) :
      Respects role writes (.attribute on name store)
  | look {on name : String} : Respects role writes (.attribute on name none)
  | again {source x : String} (hx : role x = role source) (hwrites : writes x) :
      Respects role writes (.define (.register source) x)

/-- What is said of the registers that an action writes to is left when nothing is said of their
roles. -/
theorem Action.Respects.uses {role : String → Role} {writes : String → Prop} {a : Action}
    (ha : a.Respects role writes) : a.Uses (fun _ => True) writes := by
  cases ha with
  | common ha => exact Action.Uses.mono (fun _ _ => trivial) (fun _ hx => hx.2) ha
  | newBuilder hargs hnamed hstore hwrites =>
    refine ⟨hargs.mono fun _ _ => trivial, hnamed.mono fun _ _ => trivial, by simp, ?_⟩
    rintro x ⟨⟩
    exact hwrites
  | onBuilder hon hargs hnamed hstore | onBuilt hon hargs hnamed hstore =>
    exact ⟨hargs.mono fun _ _ => trivial, hnamed.mono fun _ _ => trivial, fun _ _ => trivial,
      fun x hx => (hstore x hx).2⟩
  | reuse hon hsource hmethod hstore =>
    exact ⟨⟨trivial, trivial⟩,
      by simp [Expr.NamedOver], fun _ _ => trivial, fun x hx => (hstore x hx).2⟩
  | part hon hstore => exact ⟨trivial, fun x hx => (hstore x hx).2⟩
  | look => exact ⟨trivial, by simp⟩
  | again hx hwrites => exact ⟨trivial, hwrites⟩

namespace Session

variable {role : String → Role} {kept : String → Option Value} {d : Division} {s : Session}
    {p : Progress}
  {store : Option String} {a : Function.Arguments}

/-! ### Calls on what was built -/

theorem guards_nil_of_password {n : Nat} {w : Word} : d.Guards n (some (.password w)) := by
  rintro es ⟨⟩

/-- What was built is rendered from common objects, apart from its documents, of which only the keys
count. -/
theorem rendersWithin_of_built {n : Nat} {v : Value} (hbefore : d.MadeBefore n) (hv : d.Built n v) :
    Layout.RendersWithin (d.Common n) v := by
  have hshared : d.Common n [] := hbefore.scope.shared n
  cases hv with
  | @request r hvalue hpermissions =>
    refine ⟨fun name hname w hw => ?_, fun w hw => ?_⟩
    · simp only [List.mem_cons, List.not_mem_nil, or_false] at hname
      rcases hname with rfl | rfl | rfl | rfl
      · cases hw
        trivial
      · change r.toValue.storedAttr "name" = .ok w at hw
        rw [Request.storedAttr_name] at hw
        cases hw
        cases r.name with
        | none => trivial
        | some name => exact within_ofWord name.word
      · change r.toValue.storedAttr "type" = .ok w at hw
        rw [Request.storedAttr_type] at hw
        cases hw
        cases r.value <;> trivial
      · cases hw
        exact Grant.withinAll_toValue hpermissions
    · change r.toValue.storedAttr "value" = .ok w at hw
      rw [Request.storedAttr_value] at hw
      cases hw
      rcases hvalue' : r.value with _ | w | es
      · trivial
      · exact (within_ofWord w).keysWithin
      · exact (hvalue es hvalue').2
  | @value o ho =>
    rcases o with _ | w | es
    · trivial
    · trivial
    · intro content hcontent
      rw [List.mem_singleton.1 hcontent]
      exact (ho es rfl).2
  | @content o ho =>
    rcases o with _ | (_ | _) | es <;> trivial

theorem method_of_built {n : Nat} {v : Value} (hv : d.Built n v) (method : String) :
    Session.method v method a = Answer.value <$> valueMethod v method a := by
  cases hv with
  | request => rfl
  | @value o => rcases o with _ | _ | _ <;> rfl
  | @content o => rcases o with _ | (_ | _) | _ <;> rfl

theorem keeps_callWith_onBuilt {method x : String} (h : Placed d role kept p.session)
    (hx : role x = .built) (ha : a.Within (d.Common p.session.made.moment))
    (hstore : ∀ y, store = some y → role y = .common ∧ kept y = none) :
    (Layout.callWith method (some x) store a).Keeps p (Apart role kept) fun _ _ => True := by
  refine h.keeps_read.bind fun v q _ hq => ?_
  obtain ⟨hq, hv⟩ := hq
  rw [hx] at hv
  rw [← hq] at h ha
  have hrenders := rendersWithin_of_built h.before hv
  have hvalue := h.keeps_common
    (m := valueMethod v method a) (h.layout.keeps_valueMethod h.holds hrenders ha)
  have hmethod : (Session.method v method a).Keeps q (Apart role kept) fun s answer =>
      ∃ w, answer = .value w ∧ Placed d role kept s ∧ w.Within (d.Common s.made.moment) := by
    rw [method_of_built hv]
    exact hvalue.map fun s w _ hw => ⟨w, rfl, hw⟩
  refine hmethod.bind fun answer r _ hanswer => ?_
  obtain ⟨w, rfl, hplaced, hw⟩ := hanswer
  exact hplaced.keeps_store (r := .common) hw hstore

/-! ### What was built as an argument -/

theorem Placed.places_of_read {x : String} {v : Value} (h : Placed d role kept s)
    (hv : s.registers.read x = .ok v) : d.Places s.made.moment (role x) v := by
  unfold Registers.read at hv
  split at hv <;> cases hv
  exact (h.content x v ‹_›).1

theorem keeps_eval_register {x : String} (h : Placed d role kept p.session) :
    (Run.eval (.register x)).Keeps p (Apart role kept) fun s v =>
      s = p.session ∧ d.Places s.made.moment (role x) v :=
  Run.keeps_eval (Run.keeps_lift ⟨d, h⟩ fun _ hv => ⟨rfl, h.places_of_read hv⟩)

theorem evalAll_register (registers : Registers) (x : String) :
    Expr.evalAll registers [.register x] = liftM ((fun v => [v]) <$> registers.read x) := by
  unfold Registers.read
  cases h : registers.lookup x <;> simp [Expr.evalAll, Expr.eval, Registers.read, h] <;> rfl

theorem keeps_evalAll_register {x : String} (h : Placed d role kept p.session) :
    (Run.evalAll [.register x]).Keeps p (Apart role kept) fun s vs =>
      s = p.session ∧ ∃ v, vs = [v] ∧ d.Places s.made.moment (role x) v := by
  have hread : (Run.make (liftM ((fun v => [v]) <$> p.session.registers.read x))).Keeps p
      (Apart role kept) fun s vs => s = p.session ∧ ∃ v, vs = [v] ∧
      d.Places s.made.moment (role x) v := by
    refine Run.keeps_lift ⟨d, h⟩ fun vs hvs => ?_
    obtain ⟨v, hv, rfl⟩ := Except.map_eq_ok.1 hvs
    exact ⟨rfl, v, rfl, h.places_of_read hv⟩
  refine hread.of_run_eq ?_
  rw [Run.evalAll, Run.run_bind, Run.run_current]
  dsimp only
  rw [evalAll_register]

theorem withinAll_keys {P : Cell → Prop} {es : List (Value × Value)} (h : EntryKeysWithin P es) :
    WithinAll P (es.map Prod.fst) := by
  induction es with
  | nil => trivial
  | cons e es ih => exact ⟨h.1, ih h.2.2⟩

/-- What was built offers to a builder the keys of its document only. -/
theorem offers_of_built {n : Nat} {v : Value} (hv : d.Built n v) :
    RequestBuilder.Offers (d.Common n) v := by
  cases hv with
  | request =>
    exact ⟨trivial, by rintro _ ⟨⟩, by rintro _ ⟨⟩⟩
  | @value o ho =>
    rcases o with _ | w | es
    · exact ⟨trivial, by rintro _ ⟨⟩, by rintro _ ⟨⟩⟩
    · exact ⟨trivial, by rintro _ ⟨⟩, by rintro _ ⟨⟩⟩
    · exact ⟨trivial, by rintro _ ⟨⟩, by rintro _ ⟨⟩⟩
  | @content o ho =>
    rcases o with _ | w | es
    · exact ⟨trivial, by rintro _ ⟨⟩, by rintro _ ⟨⟩⟩
    · exact .of_within (within_ofWord w)
    · obtain ⟨-, hkeys⟩ := ho es rfl
      refine ⟨hkeys, by rintro _ ⟨⟩, ?_⟩
      rintro _ ⟨⟩ w hw g hg
      exact RequestBuilder.within_grant (withinAll_iff.1 (withinAll_keys hkeys) w hw) hg

theorem eq_of_mem_args {method : String} {v w : Value} {act : RequestBuilder.Act}
    (hact : requestAct? method ⟨[v], []⟩ = some act) (hw : w ∈ act.args) : w = v := by
  unfold requestAct? at hact
  split at hact <;> cases hact
  all_goals first
    | exact List.mem_singleton.1 hw
    | cases hw

/-- A method of a builder is given something that was built. -/
theorem keeps_reuse {method on source : String} (h : Placed d role kept p.session)
    (hon : role on = .builder) (hsource : role source = .built)
    (hmethod : Role.ofMethod method ≠ .common)
    (hstore : ∀ x, store = some x → role x = .ofMethod method ∧ kept x = none) :
    (call method (some on) [.register source] [] store).Keeps p (Apart role kept) fun _ _ =>
      True := by
  refine (keeps_evalAll_register h).bind fun byPlace q _ hq => ?_
  obtain ⟨hq, v, rfl, hv⟩ := hq
  rw [hsource] at hv
  rw [← hq] at h
  have hnamed : (Run.evalNamed []).Keeps q (Apart role kept) fun s byName =>
      s = q.session ∧ byName = [] :=
    (Run.keeps_pure (I := Apart role kept) ⟨d, h⟩ ⟨rfl, rfl⟩).of_run_eq rfl
  refine hnamed.bind fun byName r _ hr => ?_
  obtain ⟨hr, rfl⟩ := hr
  rw [← hr] at h hv
  refine keeps_callWith_onBuilder h hon ⟨fun act hact w hw => ?_, fun hact => ?_⟩ hstore
  · rw [eq_of_mem_args hact hw]
    exact offers_of_built hv
  · exact absurd (ofMethod_of_requestAct?_eq_none hact) hmethod

/-- What a register holds is stored in another one that is for the same. -/
theorem keeps_again {source x : String} (h : Placed d role kept p.session)
    (hx : role x = role source)
    (hkept : kept x = none) : (act (.define (.register source) x)).Keeps p
      (Apart role kept) fun _ _ => True := by
  refine (keeps_eval_register h).bind fun v q _ hq => ?_
  obtain ⟨hq, hv⟩ := hq
  rw [← hq] at h
  refine h.keeps_store hv ?_
  rintro y ⟨⟩
  exact ⟨hx, hkept⟩

/-! ### Parts of what was built -/

theorem attr_of_built {n : Nat} {v : Value} (hv : d.Built n v) (name : String) :
    v.attr name = liftM (v.storedAttr name) := by
  cases hv with
  | request => rfl
  | @value o => rcases o with _ | _ | _ <;> rfl
  | @content o => rcases o with _ | (_ | _) | _ <;> rfl

theorem places_of_requestAttr {n : Nat} {r : Request} {name : String} {w : Value}
    (hshared : d.Common n []) (hvalue : d.Guards n r.value)
    (hpermissions : d.Allows n r.permissions)
    (hw : r.toValue.storedAttr name = .ok w) : d.Places n (.ofPart name) w := by
  by_cases hcontent : name = "value"
  · subst hcontent
    rw [Request.storedAttr_value] at hw
    cases hw
    exact .content hvalue
  by_cases hcredential : name = "credential_value"
  · subst hcredential
    cases hw
    exact .value hvalue
  have hpart : Role.ofPart name = .common := by simp [Role.ofPart, hcontent, hcredential]
  rw [hpart]
  change requestAttr name [.bool r.overwrite, (r.name.map CredentialName.toValue).getD .null,
    (r.value.map CredentialValue.toValue).getD .null,
    .tuple (r.permissions.map Grant.toValue)] = .ok w at hw
  unfold requestAttr at hw
  split at hw
  · cases hw
    trivial
  · cases hw
    exact CredentialName.within_toValue r.name
  · exact absurd rfl hcredential
  · cases hw
    exact Grant.withinAll_toValue hpermissions
  · -- the name of a request is that of its credential name
    generalize r.name = o at hw
    rcases o with _ | ⟨_ | _ | _⟩ <;> cases hw <;> trivial
  · generalize r.value = o at hw
    rcases o with _ | _ | _ <;> cases hw <;> trivial
  · generalize r.value = o at hw
    rcases o with _ | _ | _ <;> cases hw <;> trivial
  · exact absurd rfl hcontent
  · exact within_attrAmong hshared withinAttrs_nil hw

/-- The record of a credential value has its content, and besides that only what has no objects of
its own. -/
theorem storedAttr_credentialValue {P : Cell → Prop} {value : CredentialValue} {name : String}
    {w : Value} (hshared : P []) (hw : value.toValue.storedAttr name = .ok w) :
    name = "value" ∧ w = value.content ∨ name ≠ "value" ∧ name ≠ "credential_value" ∧
      w.Within P := by
  have hamong {kind : String} {methods : List String} {content : Value}
      (hmethods : "credential_value" ∉ methods)
      (h : attrAmong kind [("value", content)] methods name = .ok w) :
      name = "value" ∧ w = content ∨ name ≠ "value" ∧ name ≠ "credential_value" ∧ w.Within P := by
    unfold attrAmong at h
    by_cases hname : name = "value"
    · subst hname
      cases h
      exact .inl ⟨rfl, rfl⟩
    · have hne : (name == "value") = false := by simpa using hname
      have hlookup : [("value", content)].lookup name = none := by rw [List.lookup_cons, hne]; rfl
      rw [hlookup] at h
      dsimp only at h
      split at h
      · rename_i hmethod
        cases h
        refine .inr ⟨hname, ?_, within_boundMethod hshared⟩
        rintro rfl
        exact hmethods (by simpa using hmethod)
      · cases h
  have htype {type : ValueType} (hname : name = "value_type") (h : w = .member (.valueType type)) :
      name ≠ "value" ∧ name ≠ "credential_value" ∧ w.Within P := by
    subst hname h
    exact ⟨by decide, by decide, trivial⟩
  cases value with
  | password _ | json _ =>
    change (if name = "value_type" then _ else _) = _ at hw
    split at hw
    · rename_i hname
      cases hw
      exact .inr (htype hname rfl)
    · exact hamong (by decide) hw

/-- The content of a credential value has attributes only if it is a member of a vocabulary. -/
theorem storedAttr_content {P : Cell → Prop} {o : Option CredentialValue} {name : String}
    {w : Value} (hshared : P [])
    (hw : ((o.map CredentialValue.content).getD .null).storedAttr name = .ok w) :
    name = "value" ∧ (∃ s, w = .text s) ∨ name ≠ "value" ∧ name ≠ "credential_value" ∧
      w.Within P := by
  have hmember {m : Member} (vocabulary : Vocabulary) (hm : m.vocabulary = vocabulary)
      (hnames : ¬ vocabulary.members.any (·.name = "credential_value"))
      (h : memberAttr m name = .ok w) :
      name = "value" ∧ (∃ s, w = .text s) ∨ name ≠ "value" ∧ name ≠ "credential_value" ∧
      w.Within P := by
    by_cases hname : name = "value"
    · subst hname
      cases h
      exact .inl ⟨rfl, _, rfl⟩
    · refine .inr ⟨hname, ?_, within_memberAttr hshared h⟩
      rintro rfl
      have hnone : m.vocabulary.members.find? (·.name = "credential_value") = none := by
        rw [hm]
        simpa using hnames
      simp [memberAttr, hnone] at h
  rcases o with _ | (_ | m | m) | es
  · cases hw
  · cases hw
  · exact hmember .logLevel rfl (by decide) hw
  · exact hmember .logFormat rfl (by decide) hw
  · cases hw

/-- A part of what was built belongs where it is stored. -/
theorem places_of_storedAttr {n : Nat} {v w : Value} {name : String} (hbefore : d.MadeBefore n)
    (hv : d.Built n v) (hw : v.storedAttr name = .ok w) : d.Places n (.ofPart name) w := by
  have hshared : d.Common n [] := hbefore.scope.shared n
  have hcommon (h : name ≠ "value" ∧ name ≠ "credential_value" ∧ w.Within (d.Common n)) :
      d.Places n (.ofPart name) w := by
    rw [Role.ofPart, if_neg (by simp [h])]
    exact h.2.2
  cases hv with
  | request hvalue hpermissions => exact places_of_requestAttr hshared hvalue hpermissions hw
  | @value o ho =>
    cases o with
    | none => cases hw
    | some value =>
      rcases storedAttr_credentialValue hshared hw with ⟨rfl, rfl⟩ | h
      · exact .content ho
      · exact hcommon h
  | content ho =>
    rcases storedAttr_content hshared hw with ⟨rfl, s, rfl⟩ | h
    · exact .content (o := some (.password (.plain s))) guards_nil_of_password
    · exact hcommon h

/-! ### Steps -/

/-- A part of what was built is stored where it belongs. -/
theorem keeps_part {on name : String} (h : Placed d role kept p.session) (hon : role on = .built)
    (hstore : ∀ x, store = some x → role x = .ofPart name ∧ kept x = none) :
    (act (.attribute on name store)).Keeps p (Apart role kept) fun _ _ => True := by
  refine h.keeps_read.bind fun v q _ hq => ?_
  obtain ⟨hq, hv⟩ := hq
  rw [hon] at hv
  rw [← hq] at h
  have hattr : (Run.make (v.attr name)).Keeps q (Apart role kept) fun s w =>
      Placed d role kept s ∧ d.Places s.made.moment (.ofPart name) w := by
    rw [attr_of_built hv]
    refine Run.keeps_make (fun made hmade => ?_) fun w made hw => ?_
    · obtain rfl : made = q.session.made := hmade
      exact ⟨d, h⟩
    · obtain ⟨hpart, rfl⟩ := gives_lift.1 hw
      exact ⟨h, places_of_storedAttr h.before hv hpart⟩
  refine hattr.bind fun w r _ hr => ?_
  obtain ⟨hplaced, hw⟩ := hr
  exact hplaced.keeps_store hw hstore

/-- Something is only looked at. -/
theorem keeps_attribute_none {on name : String} (h : Placed d role kept p.session) :
    (act (.attribute on name none)).Keeps p (Apart role kept) fun _ _ => True := by
  refine h.keeps_read.bind fun v q _ hq => ?_
  rw [← hq.1] at h
  have hattr := (h.layout.keeps_look h.holds (timePasses_attr v name)).imp h.apart_of_holds
  exact hattr.bind fun w r hr _ => Run.keeps_pure hr trivial

/-- **An action that works with registers for what they are for leaves them apart.** -/
theorem keeps_act_of_respects {a : Action} (h : Apart role kept p.session)
    (ha : a.Respects role fun x => kept x = none) :
    (act a).Keeps p (Apart role kept) fun _ _ => True := by
  obtain ⟨d, h⟩ := h
  cases ha with
  | common ha =>
    exact ((h.layout.keeps_act h.holds ha).imp h.apart_of_holds).mono fun _ _ _ _ => trivial
  | @newBuilder args named store hargs hnamed hstore hwrites =>
    have hrest (a : Function.Arguments) (q : Progress)
        (hq : Holds (Contains d role kept)
          (fun x => (kept x).isSome) p.session.made.moment q.session) :
        (Layout.callWith "WriteRequest.builder" none (some store) a).Keeps q (Apart role kept)
          fun _ _ => True :=
      keeps_callWith_newBuilder (h.of_holds hq) hstore hwrites
    change (Session.call "WriteRequest.builder" none args named (some store)).Keeps p
        (Apart role kept) _
    generalize "WriteRequest.builder" = function at hrest ⊢
    exact h.layout.keeps_call h.holds hargs hnamed h.apart_of_holds fun a q hq _ => hrest a q hq
  | @onBuilder method on args named store hon hargs hnamed hstore =>
    change (Session.call method (some on) args named store).Keeps p (Apart role kept) _
    exact h.layout.keeps_call h.holds hargs hnamed h.apart_of_holds fun a q hq ha =>
      keeps_callWith_onBuilder (h.of_holds hq) hon (.of_within ha) hstore
  | reuse hon hsource hmethod hstore => exact keeps_reuse h hon hsource hmethod hstore
  | @onBuilt method on args named store hon hargs hnamed hstore =>
    change (Session.call method (some on) args named store).Keeps p (Apart role kept) _
    exact h.layout.keeps_call h.holds hargs hnamed h.apart_of_holds fun a q hq ha =>
      keeps_callWith_onBuilt (h.of_holds hq) hon ha hstore
  | part hon hstore => exact keeps_part h hon hstore
  | look => exact keeps_attribute_none h
  | again hx hwrites => exact keeps_again h hx hwrites

theorem apart_step {t : ScriptStep} (h : Apart role kept s)
    (ht : t.action.Respects role fun x => kept x = none) : Apart role kept (s.step t).1 :=
  step_of_keeps (keeps_act_of_respects h ht)

/-- Steps that work with registers for what they are for leave them apart. -/
theorem apart_after {ts : List ScriptStep} (h : Apart role kept s)
    (hts : ∀ t ∈ ts, t.action.Respects role fun x => kept x = none) :
    Apart role kept (s.after ts) :=
  after_of_step (fun _ t ht hs => apart_step hs (hts t ht)) h

end Session

end CredentialWrites
