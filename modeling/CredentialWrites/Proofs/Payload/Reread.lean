import CredentialWrites.Proofs.Payload.Fidelity
import CredentialWrites.Proofs.Payload.Fields

/-!
# Payloads made from mappings of requests

A request that was rendered as a mapping can be read back: the mapping makes a payload with the
fields of the payload of the request. That payload is made anew each time that it is asked for, and
holds the same each time, unless something uses up the operations of a permission.

* `Grant.Sends` : the fields that are sent for a permission.
* `Payload.IsPayload` : a payload of a request.
* `Payload.always_ofRequest` : the payload of a request can be made at all times.
* `RequestBuilder.reread_of_run` : what the mapping of a built request makes.
-/

namespace CredentialWrites

open Making

theorem Except.toOption_eq_some {ε α : Type} {x : Except ε α} {a : α} :
    x.toOption = some a ↔ x = .ok a := by
  cases x <;> simp [Except.toOption]

theorem Except.bind_toOption_eq_some {ε δ α β : Type} {x : Except ε α} {f : α → Except δ β}
    {b : β} : (x.toOption.bind fun a => (f a).toOption) = some b ↔ ∃ a, x = .ok a ∧
    f a = .ok b := by
  simp only [Option.bind_eq_some_iff, Except.toOption_eq_some]

theorem exists_between_of_forall₂ {α β γ : Type} {p : α → β → Prop} {q : β → γ → Prop} {as : List α}
    {cs : List γ} (h : List.Forall₂ (fun a c => ∃ b, p a b ∧ q b c) as cs) :
    ∃ bs, List.Forall₂ p as bs ∧ List.Forall₂ q bs cs := by
  induction h with
  | nil => exact ⟨[], .nil, .nil⟩
  | cons hac _ ih =>
    obtain ⟨b, hab, hbc⟩ := hac
    obtain ⟨bs, hp, hq⟩ := ih
    exact ⟨b :: bs, .cons hab hp, .cons hbc hq⟩

namespace Grant

/-- The fields are those that are sent for a permission. -/
def Sends (g : Grant) (s : State) (f : Payload.PermissionFields) : Prop :=
  g.identity? = some f.actor ∧ g.tokens? s = some f.operations

/-- The operations of a permission are not used up by a look at them. -/
def IsSteady (g : Grant) : Prop :=
  ∀ c items, g.operations ≠ .stream c items

theorem IsSteady.left?_eq {g : Grant} (h : g.IsSteady) (s : State) :
    g.operations.left? s = g.operations.items.toOption := by
  unfold Value.left?
  split
  · exact absurd ‹_› (h _ _)
  · rfl

/-- What is sent for a permission is the same at all times, if nothing uses up its operations. -/
theorem IsSteady.sends_unique {g : Grant} (h : g.IsSteady) {s s' : State}
    {f f' : Payload.PermissionFields} (hf : g.Sends s f) (hf' : g.Sends s' f') : f' = f := by
  obtain ⟨actor, operations⟩ := f
  obtain ⟨actor', operations'⟩ := f'
  obtain ⟨hactor, htokens⟩ := hf
  obtain ⟨hactor', htokens'⟩ := hf'
  rw [tokens?, h.left?_eq] at htokens htokens'
  cases hactor.symm.trans hactor'
  cases htokens.symm.trans htokens'
  rfl

end Grant

namespace Payload

open Value

variable {s t : State} {v w : Value}

/-! ### Payloads at other times -/

theorem isModel_of_gives_ofPermission {g : Grant} (h : (ofPermission g.toValue).Gives s w t) :
    ∃ f : PermissionFields, g.Sends s f ∧ f.IsModel w := by
  obtain ⟨c, c', identity, tokens, hidentity, htokens, rfl⟩ := eq_of_gives_ofPermission h
  exact ⟨⟨identity, tokens⟩, ⟨hidentity, htokens⟩, c, c', rfl⟩

theorem always_permission {actor : Value} {c : Cell} {operations : List Value}
    {f : PermissionFields} (hactor : Field.optional Field.text actor = .ok f.actor)
    (hoperations : List.Forall₂ (fun v token => Field.text v = .ok token) operations f.operations) :
    (permission [("actor", actor), ("operations", .list c operations)]).Always fun _ => True := by
  have htake : takeField "operations" takeList [("actor", actor),
      ("operations", Value.list c operations)] =
    pure [("actor", actor), ("operations", .list c operations)] := rfl
  rw [permission, htake, pure_bind, readPermission_of_forall₂ hactor hoperations]
  exact (always_makePermission f).mono fun _ _ => trivial

theorem storedAttr_of_token? {op : Value} {token : String} (h : Grant.token? op = some token) :
    ∃ v, op.storedAttr "operation" = .ok v ∧ Field.text v = .ok token :=
  Except.bind_toOption_eq_some.1 h

/-- The tokens of operations can be looked up at all times if they can be looked up once. -/
theorem always_operationTokens {g : Grant} (hsteady : g.IsSteady) {tokens : List String}
    (h : g.tokens? s = some tokens) :
    (Value.operationTokens g.operations).Always fun vs =>
      List.Forall₂ (fun v token => Field.text v = .ok token) vs tokens := by
  rw [Grant.tokens?, hsteady.left?_eq, Option.bind_eq_some_iff] at h
  obtain ⟨ops, hops, htokens⟩ := h
  have hitems : g.operations.items = .ok ops := Except.toOption_eq_some.1 hops
  have heach : Value.operationTokens g.operations =
      (do Making.each (fun op => return ← op.storedAttr "operation") (← g.operations.items)) := by
    unfold Value.operationTokens Value.forEach
    split
    · exact absurd ‹_› (hsteady _ _)
    · rfl
  rw [Option.mapM_eq_some_iff] at htokens
  rw [heach]
  refine (always_lift hitems).bind fun _ heq => ?_
  subst heq
  refine (always_each (r := fun op v => op.storedAttr "operation" = .ok v) fun op hop =>
    ?_).mono fun vs hvs => ?_
  · obtain ⟨token, -, htoken⟩ := forall₂_exists_right htokens hop
    obtain ⟨v, hv, -⟩ := storedAttr_of_token? htoken
    exact (always_lift hv).mono fun _ heq => heq ▸ hv
  · refine forall₂_comp (fun v op token hv htoken => ?_) hvs.flip htokens
    obtain ⟨v', hv', htext⟩ := storedAttr_of_token? htoken
    cases hv.symm.trans hv'
    exact htext

theorem always_permission_of_tokens {g : Grant} (hsteady : g.IsSteady) {f : PermissionFields}
    {identity : Value} (hidentity : Field.optional Field.text identity = .ok f.actor)
    (h : g.tokens? s = some f.operations) :
    (do
      let tokens ← g.toValue.attr "operation_tokens"
      let operations ← Making.list (← tokens.takeItems)
      permission [("actor", identity), ("operations", operations)] :
      Making Value).Always fun _ => True := by
  have hattr : g.toValue.attr "operation_tokens" =
      (do list (← Value.operationTokens g.operations)) := rfl
  rw [hattr]
  refine Always.bind (p := fun tokens => ∃ c vs, tokens = .list c vs ∧
    List.Forall₂ (fun v token => Field.text v = .ok token) vs f.operations) ?_ ?_
  · refine (always_operationTokens hsteady h).bind fun vs hvs => (always_list vs).mono ?_
    rintro _ ⟨c, rfl⟩
    exact ⟨c, vs, rfl, hvs⟩
  · rintro _ ⟨c, vs, rfl, hvs⟩
    have htake : (Value.list c vs).takeItems.Always (· = vs) :=
      fun u => ⟨vs, u, gives_each_pure vs u, rfl⟩
    refine htake.bind fun _ heq => (always_list _).bind ?_
    subst heq
    rintro _ ⟨c', rfl⟩
    exact always_permission hidentity hvs

theorem storedAttr_of_identity? {g : Grant} (hne : g.actor ≠ .null) {identity : Option String}
    (h : g.identity? = some identity) :
    ∃ v, g.actor.storedAttr "identity" = .ok v ∧ Field.optional Field.text v = .ok identity := by
  unfold Grant.identity? at h
  split at h
  · contradiction
  · exact Except.bind_toOption_eq_some.1 h

/-- The payload of a permission can be made at all times if it can be made once. -/
theorem always_ofPermission {g : Grant} (hsteady : g.IsSteady) {f : PermissionFields}
    (h : g.Sends s f) : (ofPermission g.toValue).Always fun _ => True := by
  obtain ⟨hidentity, htokens⟩ := h
  have hactor : g.toValue.storedAttr "actor" = .ok g.actor := rfl
  rw [ofPermission]
  refine (always_lift hactor).bind fun _ heq => ?_
  subst heq
  split
  · rename_i hnull
    have hnone : f.actor = none := by
      rw [Grant.identity?_of_null hnull rfl] at hidentity
      exact (Option.some.inj hidentity).symm
    rw [pure_bind]
    exact always_permission_of_tokens hsteady (by rw [hnone]; rfl) htokens
  · rename_i hne
    obtain ⟨v, hv, htext⟩ := storedAttr_of_identity? hne hidentity
    refine (always_lift hv).bind fun _ heq => ?_
    subst heq
    exact always_permission_of_tokens hsteady htext htokens

variable {r : Request} {fs : List PermissionFields}

/-- What is sent for permissions is the same at all times, if nothing uses up their operations. -/
theorem eq_of_sends {gs : List Grant} {fs' : List PermissionFields} (hsteady : ∀ g ∈ gs, g.IsSteady)
    (h : List.Forall₂ (fun g f => ∃ u, Grant.Sends g u f) gs fs)
    (h' : List.Forall₂ (fun g f => ∃ u, Grant.Sends g u f) gs fs') : fs' = fs := by
  induction h generalizing fs' with
  | nil =>
    cases h'
    rfl
  | cons hf _ ih =>
    obtain _ | ⟨hf', hfs'⟩ := h'
    rw [List.forall_mem_cons] at hsteady
    obtain ⟨_, hf⟩ := hf
    obtain ⟨_, hf'⟩ := hf'
    rw [hsteady.1.sends_unique hf hf', ih hsteady.2 hfs']

/-- A payload of a request: its value is plain and says what the content of the request says, and
its permissions have the given fields. -/
inductive IsPayload (r : Request) (fs : List PermissionFields) : Value → Prop where
  | intro {c c' : Cell} {value : Value} {models : List Value} (hplain : value.isPlain)
      (hdocument : value.document = ((r.value.map CredentialValue.content).getD .null).document)
      (hmodels : List.Forall₂ PermissionFields.IsModel fs models) :
      IsPayload r fs (requestModel c c' r.overwrite (r.name.map fun n => n.word.text)
        (r.value.map fun v => v.type.token) value models)

theorem IsPayload.sameFields {p q : Value} (hp : IsPayload r fs p) (hq : IsPayload r fs q) :
    SameFields p q := by
  obtain ⟨hplain, hdocument, hmodels⟩ := hp
  obtain ⟨hplain', hdocument', hmodels'⟩ := hq
  exact .intro (outline_eq_of_document_eq hplain hplain'
    (hdocument'.trans hdocument.symm)) hmodels hmodels'

theorem exists_isPayload {p : Value}
    (hcontent : ((r.value.map CredentialValue.content).getD .null).isDocument)
    (h : (ofRequest r.toValue).Gives s p t) :
    ∃ fs, List.Forall₂ (fun g f => ∃ u, Grant.Sends g u f) r.permissions fs ∧ IsPayload r fs p := by
  obtain ⟨c, c', value, models, ⟨_, _, hthaw⟩, hmodels, rfl⟩ := eq_of_gives_ofRequest h
  obtain ⟨hdocument, hplain⟩ := Value.document_of_gives_thaw hcontent hthaw
  obtain ⟨fs, hsent, hfields⟩ := exists_between_of_forall₂ (hmodels.imp fun g p ⟨u, _, hp⟩ =>
    (isModel_of_gives_ofPermission hp).imp fun f hf =>
      (⟨⟨u, hf.1⟩, hf.2⟩ : (∃ u, g.Sends u f) ∧ f.IsModel p))
  exact ⟨fs, hsent, .intro hplain hdocument hfields⟩

/-- The payload of a request can be made at all times if it can be made once, and if nothing uses up
the operations of its permissions. -/
theorem always_ofRequest (hcontent : ((r.value.map CredentialValue.content).getD .null).isDocument)
    (hsteady : ∀ g ∈ r.permissions, Grant.IsSteady g)
    (hsent : List.Forall₂ (fun g f => ∃ u, Grant.Sends g u f) r.permissions fs) :
    (ofRequest r.toValue).Always (IsPayload r fs) := by
  have hunique {s t : State} {p : Value} (hp : (ofRequest r.toValue).Gives s p t) :
      IsPayload r fs p := by
    obtain ⟨fs', hsent', hpayload⟩ := exists_isPayload hcontent hp
    obtain rfl : fs' = fs := eq_of_sends hsteady hsent hsent'
    exact hpayload
  refine (Always.and_of_gives ?_ fun s p t hp => hunique hp).mono fun _ (h : True ∧ _) => h.2
  rw [ofRequest_eq]
  refine (Value.always_thaw hcontent).bind fun value _ => ?_
  have hpermission : ∀ v ∈ r.permissions.map Grant.toValue,
      (ofPermission v).Always fun p => IsPermissionModel p := by
    intro v hv
    obtain ⟨g, hg, rfl⟩ := List.mem_map.1 hv
    obtain ⟨f, -, u, hf⟩ := forall₂_exists_right hsent hg
    refine ((always_ofPermission (hsteady g hg) hf).and_of_gives fun s p t hp => ?_).mono fun _ h =>
    h.2
    obtain ⟨f, -, c, c', rfl⟩ := isModel_of_gives_ofPermission hp
    exact ⟨c, _, rfl⟩
  refine (always_each hpermission).bind fun models hmodels => (always_list models).bind ?_
  rintro _ ⟨c, rfl⟩
  have hmodels' : ∀ p ∈ models, IsPermissionModel p := fun p hp =>
    (forall₂_exists_left hmodels hp).elim fun _ h => h.2
  rw [request_bodyFields hmodels' c (optional_text_name r) (optional_text_type r)]
  exact (always_list _).bind fun _ _ => (always_object _ _).mono fun _ _ => trivial

/-! ### Payloads from mappings -/

/-- The mapping that a payload of a request was rendered as makes a payload of that request, which
is rendered as the same mapping. -/
theorem always_request_of_toDict {r : Request} {p d : Value}
    (hcontent : ((r.value.map CredentialValue.content).getD .null).isDocument)
    (hp : IsPayload r fs p)
    (hd : (toDict p).Gives s d t) :
    ∃ es, d.entries? = some es ∧ (request (fieldsOf es)).Always fun q =>
      IsPayload r fs q ∧ (toDict q).Always fun d' => d'.outline = d.outline := by
  obtain ⟨hplain, hdocument, hmodels⟩ := hp
  obtain ⟨d₁, d₂, value, entries, ⟨_, _, hdump⟩, hentries, rfl⟩ := eq_of_gives_toDict hd
  have hdicts := isDict_of_forall₂ hmodels hentries
  have hvalue := Value.isDocument_of_document_eq hdocument hcontent
  obtain ⟨hdocument', hplain'⟩ := document_of_gives_dump hvalue hplain hdump
  refine ⟨_, rfl, (always_request_fieldsOf (c := d₁) hdicts rfl).mono ?_⟩
  rintro q ⟨_, _, models', hmodels', rfl⟩
  exact ⟨.intro hplain' (hdocument'.trans hdocument) hmodels',
    always_toDict_again hvalue hplain hdump hmodels' hdicts d₁ d₂⟩

end Payload

namespace RequestBuilder

open Value

variable {turns : List Turn} {before after : List Event} {e : Event}

/-- **The mapping of a request is a payload in another form.** Whenever a built request can be
rendered as a mapping, that mapping makes a payload. It has the fields of the payload of the
request, it equals that payload, it is rendered as the same mapping again, and with every
indentation as the same text, or refused like it. The payload of the request is the one that was
rendered. It may as well be made at any other time, unless something uses up the operations of a
permission. -/
theorem reread_of_run (h : run turns = before ++ e :: after) {r : Request}
    (hr : e.answer = .built r) (hgiven : (given before).isDocument) {s t : State} {d : Value}
    (hd : (Payload.requestToDict r.toValue).Gives s d t) :
    ∃ es, d.entries? = some es ∧
      ∀ s', (s' = s ∨ ∀ g ∈ r.permissions, Grant.IsSteady g) →
        ∃ p t', (Payload.ofRequest r.toValue).Gives s' p t' ∧
          (Payload.request (Payload.fieldsOf es)).Always fun q =>
            Payload.SameFields p q ∧ p.eq q ∧
              ((Payload.toDict q).Always fun d' => d'.outline = d.outline) ∧
              ∀ indent, Payload.toJson q indent = Payload.toJson p indent := by
  have hcontent := Value.isDocument_of_document_eq (document_of_built h hr hgiven) hgiven
  obtain ⟨p₀, u, hp₀, hdict⟩ := gives_bind.1 hd
  obtain ⟨fs, hsent, hpayload₀⟩ := Payload.exists_isPayload hcontent hp₀
  -- the payload is the one that was dumped, or it can be made again and holds the same
  have hpayload (s' : State) (hs' : s' = s ∨ ∀ g ∈ r.permissions, Grant.IsSteady g) :
      ∃ p t', (Payload.ofRequest r.toValue).Gives s' p t' ∧ Payload.IsPayload r fs p := by
    obtain rfl | hsteady := hs'
    · exact ⟨p₀, u, hp₀, hpayload₀⟩
    · exact Payload.always_ofRequest hcontent hsteady hsent s'
  obtain ⟨es, hes, hagain⟩ := Payload.always_request_of_toDict hcontent hpayload₀ hdict
  refine ⟨es, hes, fun s' hs' => ?_⟩
  obtain ⟨p, t', hp, hpayload⟩ := hpayload s' hs'
  refine ⟨p, t', hp, hagain.mono fun q hq => ?_⟩
  have hfields := hpayload.sameFields hq.1
  exact ⟨hfields, hfields.eq, hq.2, hfields.toJson_eq⟩

/-- A document with a key that holds a frozen set, and a permission, come out of the mapping
again. -/
theorem reread_of_run_of_nestedDocument :
    ∃ before e r d es, run [
        ⟨.call (.jsonValue nestedDocument), ⟨2, []⟩⟩,
        ⟨.call
          (.additionalPermission (Permission.toValue ⟨some ⟨.app, .plain "a", none⟩, [.read]⟩)),
          ⟨3, []⟩⟩,
        ⟨.build, ⟨3, []⟩⟩] = before ++ e :: [] ∧
      e.answer = .built r ∧ (Payload.requestToDict r.toValue).Gives ⟨3, []⟩ d ⟨24, []⟩ ∧
        d.entries? = some es ∧
      ∃ p t, (Payload.ofRequest r.toValue).Gives ⟨3, []⟩ p t ∧
        (Payload.request (Payload.fieldsOf es)).Always fun q => Payload.SameFields p q ∧
          ((Payload.toDict q).Always fun d' => d'.outline = d.outline) ∧
          ∀ indent, Payload.toJson q indent = Payload.toJson p indent := by
  have key (turns : List Turn) (h : ∃ before e r d, run turns = before ++ e :: [] ∧
      e.answer = .built r ∧ given before = nestedDocument ∧
      (Payload.requestToDict r.toValue).Gives ⟨3, []⟩ d ⟨24, []⟩) :
      ∃ before e r d es, run turns = before ++ e :: [] ∧ e.answer = .built r ∧
        (Payload.requestToDict r.toValue).Gives ⟨3, []⟩ d ⟨24, []⟩ ∧ d.entries? = some es ∧
        ∃ p t, (Payload.ofRequest r.toValue).Gives ⟨3, []⟩ p t ∧
          (Payload.request (Payload.fieldsOf es)).Always fun q => Payload.SameFields p q ∧
            ((Payload.toDict q).Always fun d' => d'.outline = d.outline) ∧
            ∀ indent, Payload.toJson q indent = Payload.toJson p indent := by
    obtain ⟨before, e, r, d, hrun, hr, hgiven, hd⟩ := h
    have hdocument : (given before).isDocument := hgiven ▸ rfl
    obtain ⟨es, hes, hagain⟩ := reread_of_run hrun hr hdocument hd
    obtain ⟨p, t, hp, hq⟩ := hagain _ (.inl rfl)
    exact ⟨before, e, r, d, es, hrun, hr, hd, hes, p, t, hp, hq.mono fun _ h => ⟨h.1, h.2.2⟩⟩
  exact key _ ⟨[_, _], _, _, Payload.requestDict [23] [22] false none (some "json")
    (.map [19] [(.tuple [.int 1, .frozenSet [.int 2, .text "x"]],
      .map [18] [(.null, .list [17] [.list [16] [.int 5], .bool true])])])
    [Payload.permissionDict [21] [20] (some "mtls-app:a") ["read"]], rfl, rfl, rfl, rfl⟩

end RequestBuilder

end CredentialWrites
