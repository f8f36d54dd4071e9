import CredentialWrites.Proofs.Payload.Dump
import CredentialWrites.Proofs.Request.Given

/-!
# Requests as mappings

The mapping of a built request holds what its callers gave. A document comes out with the same keys
in the same order and the same leaves, all of its mappings plain and all of its sequences lists; a
permission comes out as the identity of its actor and the tokens of its operations.

* `RequestBuilder.document_of_built` : the content of a built request says what was given.
* `RequestBuilder.toDict_of_run` : the mapping of a request that was built in a run.
-/

namespace CredentialWrites

namespace Grant

/-- A mapping stands for a permission: it has the identity of the actor, or null, and the tokens of
the operations that are left when it is made, in their order. -/
def RendersAs (g : Grant) (w : Value) : Prop :=
  ∃ c c' identity tokens s, g.identity? = some identity ∧ g.tokens? s = some tokens ∧
    w = Payload.permissionDict c c' identity tokens

theorem toValue_injective : Function.Injective toValue :=
  fun _ _ h => Option.some.inj (congrArg ofValue? h)

end Grant

namespace Permission

/-- A permission as the record that it is. -/
def grant (p : Permission) : Grant :=
  ⟨(p.actor.map Actor.toValue).getD .null,
    .tuple (p.operations.map fun op => .member (.operation op))⟩

/-- Permissions that were built are records like any others. -/
theorem eq_map_grant {gs : List Grant} {ps : List Permission}
    (h : gs.map Grant.toValue = ps.map toValue) : gs = ps.map grant := by
  have hgrant : ps.map toValue = (ps.map grant).map Grant.toValue := by
    rw [List.map_map]
    rfl
  rw [hgrant] at h
  exact List.map_injective_iff.2 Grant.toValue_injective h

theorem identity?_grant (p : Permission) :
    p.grant.identity? = some (p.actor.map Actor.identity) := by
  obtain ⟨actor, operations⟩ := p
  cases actor with
  | none => rfl
  | some a =>
    exact Grant.identity?_of_ne_null (by simp [grant, Actor.toValue]) a.storedAttr_identity rfl

theorem tokens?_grant (p : Permission) (s : Making.State) :
    p.grant.tokens? s = some (p.operations.map Operation.token) := by
  have hleft : p.grant.operations.left? s =
    some (p.operations.map fun op => .member (.operation op)) := rfl
  rw [Grant.tokens?, hleft, Option.bind_some, Option.mapM_eq_some_iff, List.forall₂_map_left_iff,
    List.forall₂_map_right_iff, List.forall₂_same]
  exact fun _ _ => rfl

/-- What stands for a permission whose actor and operations were checked. -/
theorem renders_grant {p : Permission} {w : Value} (h : p.grant.RendersAs w) :
    ∃ c c', w = Payload.permissionDict c c' (p.actor.map Actor.identity)
      (p.operations.map Operation.token) := by
  obtain ⟨c, c', identity, tokens, s, hidentity, htokens, rfl⟩ := h
  rw [identity?_grant] at hidentity
  rw [tokens?_grant] at htokens
  obtain rfl := Option.some.inj hidentity
  obtain rfl := Option.some.inj htokens
  exact ⟨c, c', rfl⟩

end Permission

namespace Payload

open Making

/-- The mapping of a request: its content is thawed and dumped, and each permission is rendered. -/
theorem exists_of_gives_requestToDict {r : Request} {s t : State} {d : Value}
    (h : (requestToDict r.toValue).Gives s d t) :
    ∃ c c' thawed value permissions,
      (∃ u u', (Value.thaw ((r.value.map CredentialValue.content).getD .null)).Gives u thawed u') ∧
      (∃ u u', (dump .any 1 thawed).Gives u value u') ∧
      List.Forall₂ Grant.RendersAs r.permissions permissions ∧
      d = requestDict c c' r.overwrite (r.name.map fun n => n.word.text)
        (r.value.map fun v => v.type.token) value permissions := by
  obtain ⟨payload, _, hpayload, hdict⟩ := gives_bind.1 h
  obtain ⟨_, _, thawed, payloads, hthaw, hpayloads, rfl⟩ := eq_of_gives_ofRequest hpayload
  obtain ⟨c, c', value, permissions, hdump, hpermissions, rfl⟩ := eq_of_gives_toDict hdict
  refine ⟨c, c', thawed, value, permissions, hthaw, hdump, ?_, rfl⟩
  refine forall₂_comp (fun g p w hp hw => ?_) hpayloads hpermissions
  obtain ⟨u, _, hp⟩ := hp
  obtain ⟨_, _, hw⟩ := hw
  obtain ⟨_, _, identity, tokens, hidentity, htokens, rfl⟩ := eq_of_gives_ofPermission hp
  obtain ⟨d, d', rfl⟩ := eq_of_gives_dump_permissionModel hw
  exact ⟨d, d', identity, tokens, u, hidentity, htokens, rfl⟩

/-- The mapping of a request whose content is a document. -/
theorem eq_of_gives_requestToDict {r : Request} {s t : State} {d : Value}
    (hcontent : ((r.value.map CredentialValue.content).getD .null).isDocument)
    (h : (requestToDict r.toValue).Gives s d t) :
    ∃ c c' value permissions, value.isPlain ∧
      value.document = ((r.value.map CredentialValue.content).getD .null).document ∧
      List.Forall₂ Grant.RendersAs r.permissions permissions ∧
      d = requestDict c c' r.overwrite (r.name.map fun n => n.word.text)
        (r.value.map fun v => v.type.token) value permissions := by
  obtain ⟨c, c', thawed, value, permissions, ⟨_, _, hthaw⟩, ⟨_, _, hdump⟩, hpermissions, rfl⟩ :=
    exists_of_gives_requestToDict h
  -- what the content says goes through the thawing and through the dump
  obtain ⟨hthawed, hplain⟩ := Value.document_of_gives_thaw hcontent hthaw
  have hdocument := Value.isDocument_of_document_eq hthawed hcontent
  obtain ⟨hvalue, hplain⟩ := document_of_gives_dump hdocument hplain hdump
  exact ⟨c, c', value, permissions, hplain, hvalue.trans hthawed, hpermissions, rfl⟩

end Payload

namespace RequestBuilder

open Making

/-- A credential value says what it was made from, if that is a document. -/
theorem MadeFrom.document_eq {v : Value} {value : CredentialValue} (h : MadeFrom v value)
    (hv : v.isDocument) : value.content.document = v.document := by
  cases h with
  | password h =>
    rw [Value.ofWord_of_word? h]
    rfl
  | json h => exact Value.document_of_gives_freezeMapping hv h

variable {turns : List Turn} {before after : List Event} {e : Event}

/-- The content of a built request says what was given. -/
theorem document_of_built (h : run turns = before ++ e :: after) {r : Request}
    (hr : e.answer = .built r) (hgiven : (given before).isDocument) :
    ((r.value.map CredentialValue.content).getD .null).document = (given before).document := by
  have hmade := madeFrom_of_built h hr
  unfold given at hgiven ⊢
  generalize (before.filterMap Event.given?).getLast? = o, r.value = value at hmade hgiven ⊢
  cases hmade with
  | none => rfl
  | some hmade => exact hmade.document_eq hgiven

/-- **Requests come out as they were given.** The mapping of a built request has the fields in their
order, and the permissions exactly if there are any. Its value is plain and says what was given, and
is what was given if that is a scalar; each permission comes out as the identity of its actor and
the tokens of its operations, in the order of the request. -/
theorem toDict_of_run (h : run turns = before ++ e :: after) {r : Request}
    (hr : e.answer = .built r) (hgiven : (given before).isDocument) {s t : State} {d : Value}
    (hd : (Payload.requestToDict r.toValue).Gives s d t) :
    ∃ c c' value permissions,
      d = Payload.requestDict c c' r.overwrite (r.name.map fun n => n.word.text)
        (r.value.map fun v => v.type.token) value permissions ∧
      value.isPlain ∧ value.document = (given before).document ∧
      ((given before).isScalar → value = given before) ∧
      List.Forall₂ Grant.RendersAs r.permissions permissions ∧
      ∀ ps : List Permission, r.permissions.map Grant.toValue = ps.map Permission.toValue →
        List.Forall₂ (fun p w => ∃ c c',
          w = Payload.permissionDict c c' (p.actor.map Actor.identity)
            (p.operations.map Operation.token)) ps permissions := by
  have hdocument := document_of_built h hr hgiven
  have hcontent := Value.isDocument_of_document_eq hdocument hgiven
  obtain ⟨c, c', value, permissions, hplain, hvalue, hpermissions, rfl⟩ :=
    Payload.eq_of_gives_requestToDict hcontent hd
  rw [hdocument] at hvalue
  refine ⟨c, c', value, permissions, rfl, hplain, hvalue, Value.eq_of_document_eq_scalar hvalue,
    hpermissions, fun ps hps => ?_⟩
  rw [Permission.eq_map_grant hps, List.forall₂_map_left_iff] at hpermissions
  exact hpermissions.imp fun p w => Permission.renders_grant

/-- A document with read-only parts, and with a key that holds a frozen set. -/
def nestedDocument : Value :=
  .map [0] [(.tuple [.int 1, .frozenSet [.int 2, .text "x"]],
    .view [(.null, .tuple [.list [1] [.int 5], .bool true])])]

/-- The document comes out of a request with one permission. -/
theorem toDict_of_run_of_nestedDocument :
    ∃ before e r d, run [
        ⟨.call (.jsonValue nestedDocument), ⟨2, []⟩⟩,
        ⟨.call
          (.additionalPermission (Permission.toValue ⟨some ⟨.app, .plain "a", none⟩, [.read]⟩)),
          ⟨3, []⟩⟩,
        ⟨.build, ⟨3, []⟩⟩] = before ++ e :: [] ∧
      e.answer = .built r ∧ (Payload.requestToDict r.toValue).Gives ⟨3, []⟩ d ⟨24, []⟩ ∧
      ∃ c c' value permissions, d = Payload.requestDict c c' r.overwrite
        (r.name.map fun n => n.word.text) (r.value.map fun v => v.type.token) value permissions ∧
        value.isPlain ∧ value.document = nestedDocument.document := by
  have key (turns : List Turn) (h : ∃ before e r d, run turns = before ++ e :: [] ∧
      e.answer = .built r ∧ given before = nestedDocument ∧
      (Payload.requestToDict r.toValue).Gives ⟨3, []⟩ d ⟨24, []⟩) :
      ∃ before e r d, run turns = before ++ e :: [] ∧ e.answer = .built r ∧
        (Payload.requestToDict r.toValue).Gives ⟨3, []⟩ d ⟨24, []⟩ ∧
        ∃ c c' value permissions, d = Payload.requestDict c c' r.overwrite
          (r.name.map fun n => n.word.text) (r.value.map fun v => v.type.token) value permissions ∧
          value.isPlain ∧ value.document = nestedDocument.document := by
    obtain ⟨before, e, r, d, hrun, hr, hgiven, hd⟩ := h
    have hdocument : (given before).isDocument := hgiven ▸ rfl
    obtain ⟨c, c', value, permissions, hdict, hplain, hvalue, -⟩ :=
      toDict_of_run hrun hr hdocument hd
    rw [hgiven] at hvalue
    exact ⟨before, e, r, d, hrun, hr, hd, c, c', value, permissions, hdict, hplain, hvalue⟩
  exact key _ ⟨[_, _], _, _, Payload.requestDict [23] [22] false none (some "json")
    (.map [19] [(.tuple [.int 1, .frozenSet [.int 2, .text "x"]],
      .map [18] [(.null, .list [17] [.list [16] [.int 5], .bool true])])])
    [Payload.permissionDict [21] [20] (some "mtls-app:a") ["read"]], rfl, rfl, rfl, rfl⟩

end RequestBuilder

end CredentialWrites
