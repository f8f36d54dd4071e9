import CredentialWrites.Proofs.Payload.Again
import CredentialWrites.Proofs.Payload.Later

/-!
# Payloads with the same fields

A permission is told by its fields, the identity of its actor and its tokens, both in a payload,
where it is a model, and in the mapping of a payload, where it is a mapping itself. A payload that
is made from the mapping of another has the same fields. Payloads with the same fields are equal,
and they come out as the same text.

* `Payload.always_request_fieldsOf` : the payload that is made from a mapping.
* `Payload.SameFields` : payloads that differ in the identities of containers only.
* `Payload.SameFields.eq`, `Payload.SameFields.toJson_eq` : what such payloads have in common.
* `Payload.always_toDict_again` : the mapping of a payload that was made from a mapping.
-/

namespace CredentialWrites

namespace Payload

open Making Value

variable {s t : State} {level : Nat} {v w : Value}

/-! ### Reading a mapping -/

namespace PermissionFields

/-- The value is the model of a permission with the fields. -/
def IsModel (f : PermissionFields) (v : Value) : Prop :=
  ∃ c c', v = permissionModel c c' f.actor f.operations

/-- The value is the mapping of a permission with the fields. -/
def IsDict (f : PermissionFields) (v : Value) : Prop :=
  ∃ c c', v = permissionDict c c' f.actor f.operations

end PermissionFields

variable {fs : List PermissionFields} {entries : List Value}

/-- Nothing is taken from the mapping of a permission. -/
theorem takeEntry_of_isDict {f : PermissionFields} (h : f.IsDict v) : takeEntry v = pure v := by
  obtain ⟨c, c', rfl⟩ := h
  rfl

theorem each_takeEntry_of_isDict (h : List.Forall₂ PermissionFields.IsDict fs entries) :
    each takeEntry entries = pure entries := by
  induction h with
  | nil => rfl
  | cons hentry _ ih =>
    rw [each, takeEntry_of_isDict hentry, ih]
    rfl

theorem each_of_forall₂ {α : Type} {read : Value → Except FieldFault α} {path : Nat → List Step}
    {vs : List Value} {as : List α} (h : List.Forall₂ (fun v a => read v = .ok a) vs as) (i : Nat) :
    Field.each (fun i v => Field.along (path i) (read v)) i vs = .ok as := by
  induction h generalizing i with
  | nil => rfl
  | cons hv _ ih =>
    rw [Field.each, ih, hv]
    rfl

theorem forall₂_text (texts : List String) :
    List.Forall₂ (fun v a => Field.text v = .ok a) (texts.map .text) texts :=
  List.forall₂_map_left_iff.2 (List.forall₂_same.2 fun _ _ => rfl)

theorem optional_text_optionalText (o : Option String) :
    Field.optional Field.text (optionalText o) = .ok o := by
  cases o <;> rfl

/-- The fields of a permission are read as they are. -/
theorem readPermission_of_forall₂ {actor : Value} {c : Cell} {operations : List Value}
    {f : PermissionFields} (hactor : Field.optional Field.text actor = .ok f.actor)
    (hoperations : List.Forall₂ (fun v token => Field.text v = .ok token) operations f.operations)
    (path : List Step) : readPermission path [("actor", actor),
      ("operations", .list c operations)] = .ok f := by
  have hidentity : fieldOr [("actor", actor), ("operations", Value.list c operations)] "actor" path
      (Field.optional Field.text) none = .ok f.actor := (fieldOr_eq_ok_iff rfl).2 hactor
  have htokens : listField [("actor", actor),
    ("operations", Value.list c operations)] "operations" path
      (fun path v => Field.along path (Field.text v)) = .ok f.operations :=
      each_of_forall₂ hoperations 0
  rw [readPermission, hidentity, htokens]
  rfl

/-- The fields of a permission are read from its mapping. -/
theorem readEntry_of_isDict {f : PermissionFields} (h : f.IsDict v) (path : List Step) :
    readEntry path v = .ok (.fields f) := by
  obtain ⟨c, c', rfl⟩ := h
  change PermissionEntry.fields <$> readPermission path
    [("actor", optionalText f.actor), ("operations", .list c' (f.operations.map .text))] = _
  rw [readPermission_of_forall₂ (optional_text_optionalText f.actor) (forall₂_text f.operations)]
  rfl

theorem each_readEntry_of_isDict (h : List.Forall₂ PermissionFields.IsDict fs entries)
    (path : Nat → List Step) (i : Nat) :
    Field.each (fun i => readEntry (path i)) i entries = .ok (fs.map .fields) := by
  induction h generalizing i with
  | nil => rfl
  | cons hentry _ ih =>
    rw [Field.each, ih, readEntry_of_isDict hentry]
    rfl

theorem always_makePermission (f : PermissionFields) : (makePermission f).Always f.IsModel := by
  refine (always_list _).bind fun v hv => (always_object _ _).mono ?_
  obtain ⟨c', rfl⟩ := hv
  rintro w ⟨c, rfl⟩
  exact ⟨c, c', rfl⟩

theorem always_makeEntry (fs : List PermissionFields) :
    ((fs.map PermissionEntry.fields).mapM makeEntry).Always
      (List.Forall₂ PermissionFields.IsModel fs) := by
  induction fs with
  | nil => exact always_pure .nil
  | cons f fs ih =>
    rw [List.map_cons, List.mapM_cons]
    exact (always_makePermission f).bind fun v hv => ih.bind fun vs hvs =>
      always_pure (.cons hv hvs)

variable {c c' : Cell} {overwrite : Bool} {name type : Option String} {value : Value}

/-- The fields of a body are read from its mapping as they are, and the permissions are those that
it has, if it has any. -/
theorem readRequest_fieldsOf (h : List.Forall₂ PermissionFields.IsDict fs entries)
    {es : List (Value × Value)}
    (hes : (requestDict c c' overwrite name type value entries).entries? = some es) :
    takeField "additional_permissions" takeEntries (fieldsOf es) = pure (fieldsOf es) ∧
      readRequest (fieldsOf es) = .ok ⟨overwrite, name, type, value, fs.map .fields⟩ := by
  cases Option.some.inj hes
  have hname := optional_text_optionalText name
  have htype := optional_text_optionalText type
  cases h with
  | nil =>
    change takeField "additional_permissions" takeEntries
      [("overwrite", .bool overwrite), ("name", optionalText name), ("type", optionalText type),
        ("value", value)] = _ ∧ readRequest [("overwrite", .bool overwrite),
        ("name", optionalText name),
        ("type", optionalText type), ("value", value)] = _
    refine ⟨rfl, ?_⟩
    rw [readRequest, (fieldOr_eq_ok_iff rfl).2 hname, (fieldOr_eq_ok_iff rfl).2 htype]
    rfl
  | cons hentry hentries =>
    rename_i f entry fs entries
    have hall := List.Forall₂.cons hentry hentries
    change takeField "additional_permissions" takeEntries
      (bodyFields overwrite (optionalText name) (optionalText type) value
        (.list c' (entry :: entries))) = _ ∧
      readRequest (bodyFields overwrite (optionalText name) (optionalText type) value
        (.list c' (entry :: entries))) = _
    constructor
    · have htake : takeEntries (.list c' (entry :: entries)) =
          pure (.list c' (entry :: entries)) := by
        simp only [takeEntries, takeList, pure_bind, each_takeEntry_of_isDict hall]
      simp [bodyFields, takeField, htake]
      rfl
    · rw [readRequest, (fieldOr_eq_ok_iff rfl).2 hname, (fieldOr_eq_ok_iff rfl).2 htype]
      have hpermissions : listField (bodyFields overwrite (optionalText name)
          (optionalText type) value (.list c' (entry :: entries)))
          "additional_permissions" [] readEntry =
            .ok ((f :: fs).map .fields) :=
        each_readEntry_of_isDict hall (fun i => [.field "additional_permissions", .index i]) 0
      rw [hpermissions]
      rfl

/-- The mapping of a body makes a body with the same fields. -/
theorem always_request_fieldsOf (h : List.Forall₂ PermissionFields.IsDict fs entries)
    {es : List (Value × Value)}
    (hes : (requestDict c c' overwrite name type value entries).entries? = some es) :
    (request (fieldsOf es)).Always fun q => ∃ d d' models,
      List.Forall₂ PermissionFields.IsModel fs models ∧
        q = requestModel d d' overwrite name type value models := by
  obtain ⟨htake, hread⟩ := readRequest_fieldsOf h hes
  rw [request, htake, pure_bind, hread]
  change (makeRequest _).Always _
  refine (always_makeEntry fs).bind fun models hmodels =>
  (always_list models).bind fun list hlist => ?_
  obtain ⟨d', rfl⟩ := hlist
  refine (always_object _ _).mono ?_
  rintro q ⟨d, rfl⟩
  exact ⟨d, d', models, hmodels, rfl⟩

/-! ### Payloads with the same fields -/

/-- Two payloads have the same fields: what they are to be written under is equal, the values are
the same up to the identities of containers, and so are the permissions, one by one. -/
inductive SameFields : Value → Value → Prop where
  | intro {c c' d d' : Cell} {overwrite : Bool} {name type : Option String} {value value' : Value}
      {fs : List PermissionFields} {models models' : List Value}
      (hvalue : value'.outline = value.outline)
      (hmodels : List.Forall₂ PermissionFields.IsModel fs models)
      (hmodels' : List.Forall₂ PermissionFields.IsModel fs models') :
      SameFields (requestModel c c' overwrite name type value models)
        (requestModel d d' overwrite name type value' models')

theorem document_of_isModel {f : PermissionFields} {p q : Value} (hp : f.IsModel p)
    (hq : f.IsModel q) (level : Nat) :
    Wire.document .permission level q = Wire.document .permission level p := by
  obtain ⟨c, c', rfl⟩ := hp
  obtain ⟨d, d', rfl⟩ := hq
  rfl

theorem documents_of_areModels {fs : List PermissionFields} {ps qs : List Value}
    (hps : List.Forall₂ PermissionFields.IsModel fs ps)
    (hqs : List.Forall₂ PermissionFields.IsModel fs qs)
    (level : Nat) : Wire.documents .permission level qs = Wire.documents .permission level ps := by
  induction hps generalizing qs with
  | nil =>
    cases hqs
    rfl
  | cons hp _ ih =>
    obtain _ | ⟨hq, hqs⟩ := hqs
    rw [Wire.documents, Wire.documents, document_of_isModel hp hq, ih hqs]

/-- Payloads with the same fields are written as the same text, with every indentation. -/
theorem SameFields.toJson_eq {p q : Value} (h : SameFields p q) (indent : Value) :
    toJson q indent = toJson p indent := by
  obtain ⟨hvalue, hmodels, hmodels'⟩ := h
  rename_i c c' d d' overwrite name type value value' fs models models'
  have hdocument := Wire.document_eq_of_outline hvalue .any 1
  have hpermissions : Wire.document .permissions 1 (.list d' models') =
      Wire.document .permissions 1 (.list c' models) := by
    have hdocuments := documents_of_areModels hmodels hmodels' 1
    simp only [Wire.document, FieldShape.ofItems, FieldShape.partLevel, FieldShape.fits,
      FieldShape.isList, if_true, hdocuments]
  have hwritten : List.Forall₂ (fun a b => b.1 = a.1 ∧
      Wire.document (.ofField .requestPayload b.1) 1 b.2 =
      Wire.document (.ofField .requestPayload a.1) 1 a.2)
      (if models.isEmpty then [] else [("additional_permissions", Value.list c' models)])
      (if models'.isEmpty then [] else [("additional_permissions", Value.list d' models')]) := by
    cases hmodels with
    | nil =>
      cases hmodels'
      exact .nil
    | cons _ _ =>
      cases hmodels'
      exact .cons ⟨rfl, hpermissions⟩ .nil
  have hmembers := Wire.fieldMembers_congr .requestPayload 1
    (.cons (a := ("overwrite", .bool overwrite)) (b := ("overwrite", .bool overwrite)) ⟨rfl, rfl⟩
      (.cons (a := ("name", optionalText name)) (b := ("name", optionalText name)) ⟨rfl, rfl⟩
        (.cons (a := ("type", optionalText type)) (b := ("type", optionalText type)) ⟨rfl, rfl⟩
          (.cons (a := ("value", value)) (b := ("value", value')) ⟨rfl, hdocument⟩ hwritten))))
  rw [requestModel, requestModel, toJson, toJson, written_requestModel, written_requestModel]
  simp only [List.cons_append, List.nil_append, hmembers]

theorem same_of_isModel {f : PermissionFields} {p q : Value} (hp : f.IsModel p) (hq : f.IsModel q) :
    same p q := by
  obtain ⟨c, c', rfl⟩ := hp
  obtain ⟨d, d', rfl⟩ := hq
  have hoperations : sameAll (f.operations.map .text) (f.operations.map .text) :=
    sameAll_iff.2 (List.forall₂_same.2 fun _ _ => same_self _)
  simp [permissionModel, same, sameFields, ObjectKind.isModel, ObjectKind.fieldNames,
    List.lookup_cons, same_self, hoperations]

/-- Payloads with the same fields are equal. -/
theorem SameFields.eq {p q : Value} (h : SameFields p q) : p.eq q := by
  obtain ⟨hvalue, hmodels, hmodels'⟩ := h
  rename_i c c' d d' overwrite name type value value' fs models models'
  have hvalues : same value value' := by
    refine same_of_reshape_eq ?_
    rw [reshape_of_outline (f := .kept) hvalue]
    rfl
  have hpermissions : sameAll models models' :=
    sameAll_iff.2 (forall₂_comp (p := fun p f => PermissionFields.IsModel f p)
      (q := PermissionFields.IsModel) (fun _ _ _ hp hq => same_of_isModel hp hq) hmodels.flip
      hmodels')
  have hflag : sameAtom (.bool overwrite) (.bool overwrite) := by cases overwrite <;> rfl
  simp [requestModel, Value.eq, same, sameFields, ObjectKind.isModel, ObjectKind.fieldNames,
    List.lookup_cons, same_self, hflag, hvalues, hpermissions]

/-! ### Rendering again -/

variable {models : List Value}

theorem always_dump_of_isModel {f : PermissionFields} (h : f.IsModel v) :
    (dump .permission level v).Always fun _ => True := by
  obtain ⟨c, c', rfl⟩ := h
  have hdump : dump .permission level (permissionModel c c' f.actor f.operations) = (do
      Making.map (Payload.entriesOf (← dumpFields .permissionPayload level
        [("actor", optionalText f.actor), ("operations", .list c' (f.operations.map .text))]))) :=
        rfl
  rw [hdump]
  refine (always_dumpFields ?_).bind fun _ _ => (always_map _).mono fun _ _ => trivial
  simp only [List.forall_mem_cons, List.not_mem_nil, false_implies, implies_true, and_true]
  refine ⟨always_dump_optionalText _, always_dump_list (fun _ => rfl) fun v hv => ?_⟩
  obtain ⟨a, -, rfl⟩ := List.mem_map.1 hv
  exact always_pure trivial

/-- A body can be rendered as a mapping if its value can be dumped. -/
theorem always_toDict (hvalue : (dump .any 1 value).Always fun _ => True)
    (hmodels : List.Forall₂ PermissionFields.IsModel fs models) :
    (toDict (requestModel c c' overwrite name type value models)).Always fun _ => True := by
  rw [requestModel, toDict, written_requestModel]
  refine (always_dumpFields ?_).bind fun _ _ => (always_map _).mono fun _ _ => trivial
  rw [List.forall_mem_append]
  constructor
  · simp only [List.forall_mem_cons, List.not_mem_nil, false_implies, implies_true, and_true]
    exact ⟨always_pure trivial, always_dump_optionalText _, always_dump_optionalText _, hvalue⟩
  · split
    · simp
    · simp only [List.forall_mem_cons, List.not_mem_nil, false_implies, implies_true, and_true]
      refine always_dump_list (fun _ => rfl) fun v hv => ?_
      obtain ⟨f, -, hf⟩ := forall₂_exists_left hmodels hv
      exact always_dump_of_isModel hf

theorem PermissionFields.IsDict.outline_eq {f : PermissionFields} (hv : f.IsDict v)
    (hw : f.IsDict w) : w.outline = v.outline := by
  obtain ⟨c, c', rfl⟩ := hv
  obtain ⟨d, d', rfl⟩ := hw
  rfl

/-- Mappings of bodies are the same up to identities if their values and their permissions are. -/
theorem outline_requestDict {d d' : Cell} {value' : Value} {entries' : List Value}
    (hvalue : value'.outline = value.outline) (h : List.Forall₂ PermissionFields.IsDict fs entries)
    (h' : List.Forall₂ PermissionFields.IsDict fs entries') :
    (requestDict d d' overwrite name type value' entries').outline =
      (requestDict c c' overwrite name type value entries).outline := by
  have hentries : reshapeAll .kept entries' = reshapeAll .kept entries :=
    reshapeAll_of_forall₂ (forall₂_comp (p := fun v f => PermissionFields.IsDict f v)
      (q := PermissionFields.IsDict) (fun _ _ _ hv hw => hv.outline_eq hw) h.flip h')
  rw [requestDict, requestDict, outline_map, outline_map]
  cases h with
  | nil =>
    cases h'
    exact congrArg (fun v => Value.map [] [(.text "overwrite", .bool overwrite),
      (.text "name", (optionalText name).outline), (.text "type", (optionalText type).outline),
      (.text "value", v)]) hvalue
  | cons _ _ =>
    cases h' with
    | cons _ _ =>
      exact congrArg₂ (fun v items => Value.map [] [(.text "overwrite", .bool overwrite),
        (.text "name", (optionalText name).outline), (.text "type", (optionalText type).outline),
        (.text "value", v), (.text "additional_permissions", .list [] items)]) hvalue hentries

/-- Bodies with permissions of the same fields are rendered as mappings of them. -/
theorem isDict_of_forall₂ (hmodels : List.Forall₂ PermissionFields.IsModel fs models)
    (hentries : List.Forall₂ (fun p e => ∃ u u', (dump .permission 1 p).Gives u e u')
      models entries) :
    List.Forall₂ PermissionFields.IsDict fs entries := by
  refine forall₂_comp (fun f p e hp he => ?_) hmodels hentries
  obtain ⟨_, _, rfl⟩ := hp
  obtain ⟨_, _, he⟩ := he
  exact eq_of_gives_dump_permissionModel he

/-- A body whose value was dumped already is rendered as the mapping that it was made from. -/
theorem always_toDict_again (hvalue : value.isDocument) (hplain : value.isPlain)
    (hdump : (dump .any 1 value).Gives s w t)
    (hmodels : List.Forall₂ PermissionFields.IsModel fs models)
    (hentries : List.Forall₂ PermissionFields.IsDict fs entries) (d d' : Cell) :
    (toDict (requestModel c c' overwrite name type w models)).Always fun m =>
      m.outline = (requestDict d d' overwrite name type w entries).outline := by
  obtain ⟨hdocument, hplain'⟩ := document_of_gives_dump hvalue hplain hdump
  have hagain := always_dump_again hvalue hplain hdump
  refine ((always_toDict hagain hmodels).and_of_gives fun s m t hm => ?_).mono fun _ h => h.2
  obtain ⟨_, _, w', entries', ⟨_, _, hdump'⟩, hentries', rfl⟩ := eq_of_gives_toDict hm
  have hvalue' := Value.isDocument_of_document_eq hdocument hvalue
  obtain ⟨hdocument', hplain''⟩ := document_of_gives_dump hvalue' hplain' hdump'
  exact outline_requestDict (outline_eq_of_document_eq hplain' hplain'' hdocument') hentries
    (isDict_of_forall₂ hmodels hentries')

end Payload

end CredentialWrites
