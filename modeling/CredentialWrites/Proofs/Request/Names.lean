import CredentialWrites.Proofs.Payload.Names

/-!
# Names of members in the text of a request

The text of a request is a document whose objects have one member for each key that was given, in
the same order. Two keys of one mapping that become the same name become two members of that name,
of which a reader keeps one. This is the only way in which two members of an object have one name.

* `Payload.bodyNames` : the names of the members of a body.
* `Payload.names_of_gives_requestToJson` : the names in the text of a request.
* `RequestBuilder.names_of_run` : the names in the text of a request that was built in a run.
* `RequestBuilder.nodup_names_of_isTextDocument` : no name is repeated if all keys are texts.
-/

namespace CredentialWrites

open Making

/-! ### Payloads -/

namespace Payload

open Wire (namesOf namesOfAll namesOfAttrs namesOfAttrs_cons isStreamless areStreamless
  areStreamlessAttrs)

variable {s t : State} {c c' : Cell} {overwrite : Bool} {name type : Option String} {value : Value}
  {payloads : List Value} {indent : Value} {text : String}

/-- The names of the members of a body with so many permissions. -/
def bodyNames (permissions : Nat) : List String :=
  ["overwrite", "name", "type", "value"] ++ if permissions = 0 then []
    else ["additional_permissions"]

/-- The names of the fields of a permission. -/
def grantNames : List String :=
  ["actor", "operations"]

/-- The names of a body and of its permissions differ, whatever else there is in it. -/
theorem forall_nodup_iff {permissions : Nat} {inner : List (List String)} :
    (∀ names ∈ bodyNames permissions :: (inner ++ List.replicate permissions grantNames),
      names.Nodup) ↔
      ∀ names ∈ inner, names.Nodup := by
  have hbody : (bodyNames permissions).Nodup := by
    unfold bodyNames
    split <;> decide
  have hgrants : ∀ names ∈ List.replicate permissions grantNames, names.Nodup := by
    intro names hmem
    rw [List.eq_of_mem_replicate hmem]
    decide
  rw [List.forall_mem_cons, List.forall_mem_append]
  exact ⟨fun h => h.2.1, fun h => ⟨hbody, h, hgrants⟩⟩

theorem isStreamless_optionalText (o : Option String) : isStreamless (optionalText o) := by
  cases o <;> rfl

theorem namesOf_optionalText (shape : FieldShape) (o : Option String) :
    namesOf shape (optionalText o) = [] := by
  cases o <;> rfl

theorem areStreamless_texts (tokens : List String) : areStreamless (tokens.map .text) := by
  induction tokens with
  | nil => rfl
  | cons token tokens ih => exact ih

theorem namesOfAll_texts (shape : FieldShape) (tokens : List String) :
    namesOfAll shape (tokens.map .text) = [] := by
  induction tokens with
  | nil => rfl
  | cons token tokens ih => exact ih

/-- The payload of a permission has no other names than those of its fields. -/
theorem names_permissionModel (identity : Option String) (tokens : List String) :
    isStreamless (permissionModel c c' identity tokens) ∧
      namesOf .permission (permissionModel c c' identity tokens) = [grantNames] := by
  constructor
  · simp [permissionModel, isStreamless, areStreamlessAttrs, isStreamless_optionalText,
      areStreamless_texts]
  · rw [permissionModel, namesOf, if_pos rfl, namesOfAttrs_cons rfl, namesOfAttrs_cons rfl,
      namesOf_optionalText, namesOf, FieldShape.ofField, FieldShape.ofItems, namesOfAll_texts]
    rfl

/-- The payloads of permissions have no other names than those of their fields. -/
theorem names_of_forall₂ {gs : List Grant}
    (h : List.Forall₂ (fun g p => ∃ u u',
      (ofPermission (Grant.toValue g)).Gives u p u') gs payloads) :
    areStreamless payloads ∧ namesOfAll .permission payloads =
      List.replicate gs.length grantNames := by
  induction h with
  | nil => exact ⟨rfl, rfl⟩
  | cons hp _ ih =>
    obtain ⟨_, _, hp⟩ := hp
    obtain ⟨_, _, identity, tokens, -, -, rfl⟩ := eq_of_gives_ofPermission hp
    obtain ⟨hstreamless, hnames⟩ := names_permissionModel identity tokens
    rw [areStreamless, hstreamless, ih.1, namesOfAll, hnames, ih.2]
    exact ⟨rfl, rfl⟩

/-- The fields of a body that are written, and the names inside them. -/
theorem names_written (hvalue : isStreamless value) (hpayloads : areStreamless payloads)
    {fields : List (String × Value)}
    (h : fields = [("overwrite", .bool overwrite), ("name", optionalText name),
      ("type", optionalText type),
      ("value", value)] ++ if payloads.isEmpty then []
        else [("additional_permissions", .list c payloads)]) :
    areStreamlessAttrs fields ∧
      (Value.fieldsOf .requestPayload fields).map Prod.fst = bodyNames payloads.length ∧
      namesOfAttrs .requestPayload fields =
        namesOf .any value ++ namesOfAll .permission payloads := by
  -- the first four fields are always written, and only the value has names inside it
  have hfour (rest : List (String × Value)) :
      namesOfAttrs .requestPayload ([("overwrite", .bool overwrite),
        ("name", optionalText name), ("type", optionalText type), ("value", value)] ++ rest) =
      namesOf .any value ++ namesOfAttrs .requestPayload rest := by
    simp only [List.cons_append, List.nil_append]
    rw [namesOfAttrs_cons rfl, namesOfAttrs_cons rfl, namesOfAttrs_cons rfl, namesOfAttrs_cons rfl,
      namesOf_optionalText, namesOf_optionalText]
    rfl
  subst h
  rw [hfour]
  cases payloads with
  | nil =>
    refine ⟨?_, rfl, rfl⟩
    simp [areStreamlessAttrs, isStreamless, isStreamless_optionalText, hvalue]
  | cons p ps =>
    refine ⟨?_, rfl, ?_⟩
    · simp [areStreamlessAttrs, isStreamless, isStreamless_optionalText, hvalue, hpayloads]
    · rw [List.isEmpty_cons, if_neg Bool.false_ne_true, namesOfAttrs_cons rfl, namesOfAttrs,
        List.append_nil]
      rfl

/-- The names in the text of the payload of a request: those of the body, then those of its value,
and then those of its permissions. -/
theorem names_of_gives_toJson (hvalue : isStreamless value) (hpayloads : areStreamless payloads)
    (h : (toJson (requestModel c c' overwrite name type value payloads) indent).Gives s text t) :
    ∃ ms, Json.read? text = some (.object ms) ∧ (Json.object ms).names =
      bodyNames payloads.length :: (namesOf .any value ++ namesOfAll .permission payloads) := by
  simp only [requestModel, toJson, written_requestModel, gives_bind, gives_lift, gives_pure] at h
  obtain ⟨style, _, ⟨hstyle, rfl⟩, ms, _, hms, rfl, -⟩ := h
  obtain ⟨hstreamless, hown, hinner⟩ := names_written hvalue hpayloads rfl
  have hnamed := (Wire.membersNamed_of_gives_fieldMembers hstreamless hms).object
  rw [hown, hinner] at hnamed
  exact ⟨ms, Json.read?_write (standard_of_styleOf hstyle) hnamed.1, hnamed.2⟩

/-- The names in the text of a request. -/
theorem names_of_gives_requestToJson {r : Request}
    (h : (requestToJson r.toValue indent).Gives s text t) :
    ∃ ms, Json.read? text = some (.object ms) ∧ (Json.object ms).names =
      bodyNames r.permissions.length ::
        (namesOf .any ((r.value.map CredentialValue.content).getD .null) ++
          List.replicate r.permissions.length grantNames) := by
  obtain ⟨payload, _, hpayload, htext⟩ := gives_bind.1 h
  obtain ⟨c, c', value, payloads, ⟨_, _, hthaw⟩, hpayloads, rfl⟩ := eq_of_gives_ofRequest hpayload
  -- the value is thawed, which changes none of its names and leaves no stream in it
  obtain ⟨hnames, hvalue⟩ := Wire.namesOf_of_gives_thaw hthaw
  obtain ⟨hstreamless, hgrants⟩ := names_of_forall₂ hpayloads
  obtain ⟨ms, hread, heq⟩ := names_of_gives_toJson hvalue hstreamless htext
  rw [hnames, hgrants, ← hpayloads.length_eq] at heq
  exact ⟨ms, hread, heq⟩

end Payload

/-! ### Requests -/

namespace RequestBuilder

open Payload (bodyNames grantNames)

theorem MadeFrom.namesOf_eq {v : Value} {value : CredentialValue} (h : MadeFrom v value) :
    Wire.namesOf .any value.content = Wire.namesOf .any v := by
  cases h with
  | password h =>
    rw [Value.ofWord_of_word? h]
    rename_i w
    cases w <;> rfl
  | json h => exact Wire.namesOf_of_gives_freeze (Value.gives_freeze_of_gives_freezeMapping h)

variable {turns : List Turn} {before after : List Event} {e : Event}

/-- The content of a built request has the names of what was given. -/
theorem namesOf_of_built (h : run turns = before ++ e :: after) {r : Request}
    (hr : e.answer = .built r) : Wire.namesOf .any
      ((r.value.map CredentialValue.content).getD .null) = Wire.namesOf .any (given before) := by
  have hmade := madeFrom_of_built h hr
  unfold given
  generalize (before.filterMap Event.given?).getLast? = o, r.value = value at hmade ⊢
  cases hmade with
  | none => rfl
  | some hmade => exact hmade.namesOf_eq

/-- The names in the text of a built request. -/
theorem names_of_built (h : run turns = before ++ e :: after) {r : Request}
    (hr : e.answer = .built r) {s t : State} {indent : Value} {text : String}
    (htext : (Payload.requestToJson r.toValue indent).Gives s text t) :
    ∃ ms, Json.read? text = some (.object ms) ∧
      (Json.object ms).names = bodyNames r.permissions.length ::
        (Wire.namesOf .any (given before) ++ List.replicate r.permissions.length grantNames) := by
  obtain ⟨ms, hread, hnames⟩ := Payload.names_of_gives_requestToJson htext
  rw [namesOf_of_built h hr] at hnames
  exact ⟨ms, hread, hnames⟩

/-- A reader loses nothing of a document of texts. -/
theorem nodup_names_of_isTextDocument (h : run turns = before ++ e :: after) {r : Request}
    (hr : e.answer = .built r) (hgiven : (given before).isTextDocument) {s t : State}
    {indent : Value}
    {text : String} (htext : (Payload.requestToJson r.toValue indent).Gives s text t) :
    ∃ ms, Json.read? text = some (.object ms) ∧ ∀ names ∈ (Json.object ms).names, names.Nodup := by
  obtain ⟨ms, hread, hnames⟩ := names_of_built h hr htext
  refine ⟨ms, hread, ?_⟩
  rw [hnames, Payload.forall_nodup_iff]
  exact Wire.nodup_of_isTextDocument hgiven

/-- **No entry is lost, but two may become indistinguishable.** Whenever a built request has a text,
whatever the indentation and whatever was given, it is a document of the standard. A reader sees one
member for every key of every mapping, at all depths and in the order of the keys, under the name
that the key becomes. Two members of an object thus have one name exactly if two keys of a mapping
become the same name. -/
theorem names_of_run (h : run turns = before ++ e :: after) {r : Request} (hr : e.answer = .built r)
    {s t : State} {indent : Value} {text : String}
    (htext : (Payload.requestToJson r.toValue indent).Gives s text t) :
    ∃ ms, Json.read? text = some (.object ms) ∧
      (Json.object ms).names = bodyNames r.permissions.length ::
        (Wire.namesOf .any (given before) ++ List.replicate r.permissions.length grantNames) ∧
      ((∀ names ∈ (Json.object ms).names, names.Nodup) ↔
        ∀ names ∈ Wire.namesOf .any (given before), names.Nodup) := by
  obtain ⟨ms, hread, hnames⟩ := names_of_built h hr htext
  refine ⟨ms, hread, hnames, ?_⟩
  rw [hnames]
  exact Payload.forall_nodup_iff

/-- A document with keys of five kinds. -/
def mixedDocument : Value :=
  .map [0] [(.int 1, .text "a"), (.null, .list [1] [.map [2] [(.bytes [107], .null),
    (.tuple [.int 1, .text "x"], .float ⟨false, .infinite⟩)]]), (.bool true, .frozenSet [])]

/-- In the text of a request with the document and one permission, no two members have one name. -/
theorem names_of_run_of_mixedDocument :
    ∃ before e r text t, run [
        ⟨.call (.jsonValue mixedDocument), ⟨3, []⟩⟩,
        ⟨.call
          (.additionalPermission (Permission.toValue ⟨some ⟨.app, .plain "a", none⟩, [.read]⟩)),
          ⟨7, []⟩⟩,
        ⟨.build, ⟨7, []⟩⟩] = before ++ e :: [] ∧
      e.answer = .built r ∧ (Payload.requestToJson r.toValue (.int 2)).Gives ⟨7, []⟩ text t ∧
      ∃ ms, Json.read? text = some (.object ms) ∧ (Json.object ms).names =
        [["overwrite", "name", "type", "value", "additional_permissions"], ["1", "None", "true"],
          ["k", "1,x"], ["actor", "operations"]] ∧
        ∀ names ∈ (Json.object ms).names, names.Nodup := by
  have hnames : Wire.namesOf .any mixedDocument = [["1", "None", "true"], ["k", "1,x"]] := by rfl
  have key (turns : List Turn) (h : ∃ before e r text t, run turns = before ++ e :: [] ∧
      e.answer = .built r ∧ given before = mixedDocument ∧ r.permissions.length = 1 ∧
      (Payload.requestToJson r.toValue (.int 2)).Gives ⟨7, []⟩ text t) :
      ∃ before e r text t, run turns = before ++ e :: [] ∧ e.answer = .built r ∧
        (Payload.requestToJson r.toValue (.int 2)).Gives ⟨7, []⟩ text t ∧
        ∃ ms, Json.read? text = some (.object ms) ∧ (Json.object ms).names =
          [["overwrite", "name", "type", "value", "additional_permissions"], ["1", "None", "true"],
            ["k", "1,x"], ["actor", "operations"]] ∧
          ∀ names ∈ (Json.object ms).names, names.Nodup := by
    obtain ⟨before, e, r, text, t, hrun, hr, hgiven, hlength, htext⟩ := h
    obtain ⟨ms, hread, heq, hnodup⟩ := names_of_run hrun hr htext
    rw [hgiven, hnames] at heq hnodup
    rw [hlength] at heq
    exact ⟨before, e, r, text, t, hrun, hr, htext, ms, hread, heq, hnodup.2 (by decide)⟩
  exact key _ ⟨[_, _], _, _, _, _, rfl, rfl, rfl, rfl, rfl⟩

/-- The number one and the text of it are two keys of a mapping, and become two members of one
name. -/
theorem member_repeated :
    ∃ before e r text t, run [
        ⟨.call (.jsonValue (.map [0] [(.int 1, .text "a"), (.text "1", .text "b")])), ⟨1, []⟩⟩,
        ⟨.build, ⟨1, []⟩⟩] = before ++ e :: [] ∧
      e.answer = .built r ∧ (Payload.requestToJson r.toValue .null).Gives ⟨1, []⟩ text t ∧
      ∃ ms, Json.read? text = some (.object ms) ∧
        ("value", .object [("1", .text "a"), ("1", .text "b")]) ∈ ms ∧
        ¬ ∀ names ∈ (Json.object ms).names, names.Nodup := by
  refine ⟨[_], _, _, _, _, rfl, rfl, rfl, ?_⟩
  refine ⟨[("overwrite", .bool false), ("name", .null), ("type", .text "json"),
    ("value", .object [("1", .text "a"), ("1", .text "b")])],
    Json.read?_write JsonStyle.standard_compact ?_, ?_, ?_⟩
  · simp [Json.Standard, Json.MembersStandard]
  · simp
  · decide

end RequestBuilder

end CredentialWrites
