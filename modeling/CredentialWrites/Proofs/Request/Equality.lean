import CredentialWrites.Proofs.Payload.Nested
import CredentialWrites.Proofs.Permission.Equality

/-!
# Equal requests

Two requests are equal exactly if the mappings that they are sent as are. The one comparison is of
records, views, tuples and frozen sets, the other of plain mappings and lists, in which an actor is
its identity and an operation its token. No two different requests are sent as one mapping, and no
two equal ones as two.

* `Request.IsBuilt` : a request that was built in a run.
* `Request.same_toValue_iff` : when requests are the same.
* `Request.eq_iff_toDict_eq` : requests are equal exactly if their mappings are.
-/

namespace CredentialWrites

open Making Value

namespace Payload

variable {c c' d d' : Cell} {overwrite overwrite' : Bool} {name name' type type' : Option String}
  {value value' : Value} {permissions permissions' : List Value}

/-- The mappings of requests are the same if they agree in each of the fields. -/
theorem same_requestDict_iff :
    same (requestDict c c' overwrite name type value permissions)
        (requestDict d d' overwrite' name' type' value' permissions') ↔
      overwrite = overwrite' ∧ name = name' ∧ type = type' ∧ same value value' ∧
        List.Forall₂ (fun v w => same v w) permissions permissions' := by
  have hempty := same_named_iff (c := c) (d := d) ["overwrite", "name", "type", "value"]
    [.bool overwrite, optionalText name, optionalText type, value]
    [.bool overwrite', optionalText name', optionalText type', value'] (by decide) rfl rfl
  have hsome := same_named_iff (c := c) (d := d)
    ["overwrite", "name", "type", "value", "additional_permissions"]
    [.bool overwrite, optionalText name, optionalText type, value, .list c' permissions]
    [.bool overwrite', optionalText name', optionalText type', value', .list d' permissions']
    (by decide) rfl rfl
  simp only [List.forall₂_cons, List.forall₂_nil_left_iff, same_bools_iff, same_optionalText_iff,
    same_lists_iff, and_true] at hempty hsome
  -- the permissions are left out if there are none, so that there is an entry more or less
  cases permissions with
  | nil =>
    cases permissions' with
    | nil => simpa [requestDict] using hempty
    | cons p' ps' => simp [requestDict, same]
  | cons p ps =>
    cases permissions' with
    | nil => simp [requestDict, same]
    | cons p' ps' => exact hsome

end Payload

namespace CredentialValue

/-- Values of credentials are the same if they are of one type and their contents are the same. -/
theorem same_toValue_iff {v v' : Option CredentialValue} :
    same ((v.map toValue).getD .null) ((v'.map toValue).getD .null) ↔
      (v.map fun v => v.type.token) = (v'.map fun v => v.type.token) ∧
        same ((v.map content).getD .null) ((v'.map content).getD .null) := by
  rcases v with _ | ⟨w⟩ | ⟨es⟩ <;> rcases v' with _ | ⟨w'⟩ | ⟨es'⟩ <;>
    simp [toValue, content, type, ValueType.token, same, sameAll, sameAtom, number?, bytes?]

end CredentialValue

namespace CredentialName

/-- Names are the same if their characters are. -/
theorem same_toValue_iff {n n' : Option CredentialName} :
    same ((n.map toValue).getD .null) ((n'.map toValue).getD .null) ↔
      (n.map fun n => n.word.text) = n'.map fun n => n.word.text := by
  cases n with
  | none => cases n' <;> simp [toValue, same, sameAtom, number?, bytes?]
  | some n =>
    cases n' with
    | none => simp [toValue, same]
    | some n' =>
      have hwords := same_texts (text?_ofWord n.word) (text?_ofWord n'.word)
      simp [toValue, same_records_iff, hwords]

end CredentialName

/-- The record of a permission that was built. -/
def Grant.IsBuilt (g : Grant) : Prop :=
  ∃ p : Permission, p.IsBuilt ∧ g = p.grant

namespace Request

/-- The request was built by a run of a builder that was given a nested value or a text, and
permissions of some sort. -/
inductive IsBuilt (sort : Grant → Prop) : Request → Prop where
  | intro {turns : List RequestBuilder.Turn} {before after : List RequestBuilder.Event}
    {e : RequestBuilder.Event} {r : Request}
    (hrun : RequestBuilder.run turns = before ++ e :: after)
    (hanswer : e.answer = .built r) (hgiven : Nested false (RequestBuilder.given before))
    (hgrants : ∀ g ∈ r.permissions, sort g) : IsBuilt sort r

theorem IsBuilt.grants {sort : Grant → Prop} {r : Request} (h : r.IsBuilt sort) :
    ∀ g ∈ r.permissions, sort g := by
  cases h with
  | intro _ _ _ hgrants => exact hgrants

/-- What a request holds as its value, null if it has none. -/
def contentValue (r : Request) : Value :=
  (r.value.map CredentialValue.content).getD .null

variable {sort : Grant → Prop} {r r' : Request} {s s' t t' : Making.State} {d d' : Value}

/-- Requests are the same if they agree in each of the fields. -/
theorem same_toValue_iff :
    same r.toValue r'.toValue ↔ r.overwrite = r'.overwrite ∧
      ((r.name.map fun n => n.word.text) = r'.name.map fun n => n.word.text) ∧
      ((r.value.map fun v => v.type.token) = r'.value.map fun v => v.type.token) ∧
      same r.contentValue r'.contentValue ∧
      List.Forall₂ (fun v w => same v w) (r.permissions.map Grant.toValue)
        (r'.permissions.map Grant.toValue) := by
  rw [toValue, toValue, same_records_iff]
  simp only [List.forall₂_cons, List.forall₂_nil_left_iff, same_bools_iff, same_tuples_iff,
    CredentialName.same_toValue_iff, CredentialValue.same_toValue_iff, contentValue,
    true_and, and_true,
    and_assoc]

/-- What a built request holds is nested, and frozen. -/
theorem IsBuilt.nested_contentValue (hr : r.IsBuilt sort) :
    Nested false r.contentValue ∧ r.contentValue.isUniform false := by
  obtain ⟨hrun, hanswer, hgiven, -⟩ := hr
  have hmade := RequestBuilder.madeFrom_of_built hrun hanswer
  unfold RequestBuilder.given at hgiven
  unfold contentValue
  generalize (List.filterMap RequestBuilder.Event.given? _).getLast? = o,
  r.value = value at hmade hgiven ⊢
  cases hmade with
  | none => exact ⟨.scalar rfl, rfl⟩
  | some hmade =>
    cases hmade with
    | @password w _ =>
      -- a text is kept as it is
      exact ⟨.scalar (isScalar_ofWord w), isUniform_of_isScalar (isScalar_ofWord w)⟩
    | json hfreeze =>
      have hfrozen := hgiven.frozen (gives_freeze_of_gives_freezeMapping hfreeze)
      exact ⟨hfrozen.nested, hfrozen.uniform⟩

/-- What the mapping of a built request is made of. -/
theorem IsBuilt.exists_of_gives_toDict (hr : r.IsBuilt sort)
    (hd : (Payload.requestToDict r.toValue).Gives s d t) :
    ∃ c c' value permissions, IsPlainCopy r.contentValue value ∧
      List.Forall₂ Grant.RendersAs r.permissions permissions ∧
      d = Payload.requestDict c c' r.overwrite (r.name.map fun n => n.word.text)
        (r.value.map fun v => v.type.token) value permissions := by
  obtain ⟨hnested, huniform⟩ := hr.nested_contentValue
  obtain ⟨c, c', thawed, value, permissions, ⟨_, _, hthaw⟩, ⟨_, _, hdump⟩, hrendered, rfl⟩ :=
    Payload.exists_of_gives_requestToDict hd
  have hthawed := hnested.thawed huniform hthaw
  have hdumped := hthawed.nested.dumped hthawed.uniform hdump
  exact ⟨c, c', value, permissions, hthawed.trans hdumped, hrendered, rfl⟩

theorem exists_map_grant {gs : List Grant} (h : ∀ g ∈ gs, Grant.IsBuilt g) :
    ∃ ps : List Permission, gs = ps.map Permission.grant ∧ ∀ p ∈ ps, p.IsBuilt := by
  obtain ⟨ps, hps⟩ := exists_forall₂ h
  refine ⟨ps, ?_, fun p hp => ?_⟩
  · rw [← List.forall₂_eq_eq_eq, List.forall₂_map_right_iff]
    exact hps.imp fun _ _ h => h.2
  · obtain ⟨g, -, h⟩ := forall₂_exists_left hps hp
    exact h.1

/-- **Requests are equal exactly if they are sent as equal mappings.** The requests were built of
nested values or texts and of permissions that were built of plain names. -/
theorem eq_iff_toDict_eq (hr : r.IsBuilt Grant.IsBuilt) (hr' : r'.IsBuilt Grant.IsBuilt)
    (hd : (Payload.requestToDict r.toValue).Gives s d t)
    (hd' : (Payload.requestToDict r'.toValue).Gives s' d' t') :
    r.toValue.eq r'.toValue ↔ d.eq d' := by
  obtain ⟨c, c', value, permissions, hcopy, hrendered, rfl⟩ := hr.exists_of_gives_toDict hd
  obtain ⟨_, _, value', permissions', hcopy', hrendered', rfl⟩ := hr'.exists_of_gives_toDict hd'
  have hcontent := hcopy.same_eq hr.nested_contentValue.2 hr'.nested_contentValue.2 hcopy'
  obtain ⟨ps, hgrants, hps⟩ := exists_map_grant hr.grants
  obtain ⟨ps', hgrants', hps'⟩ := exists_map_grant hr'.grants
  rw [hgrants, List.forall₂_map_left_iff] at hrendered
  rw [hgrants', List.forall₂_map_left_iff] at hrendered'
  -- both comparisons of the permissions come down to whether they are the same permissions
  have hself (ps : List Permission) :
      List.Forall₂ (fun p v => v = p.toValue) ps ((ps.map Permission.grant).map Grant.toValue) := by
    rw [List.map_map, List.forall₂_map_right_iff, List.forall₂_same]
    exact fun _ _ => rfl
  have hrecords := forall₂_iff_eq (q := fun v w => same v w) (hself ps) (hself ps') <| by
    rintro p hp p' hp' _ _ rfl rfl
    exact (hps p hp).same_toValue_iff (hps' p' hp')
  have hmappings := forall₂_iff_eq (q := fun v w => same v w) hrendered hrendered'
    fun p hp p' hp' _ _ => (hps p hp).same_iff_of_rendersAs (hps' p' hp')
  change same _ _ ↔ same _ _
  rw [same_toValue_iff, Payload.same_requestDict_iff, hcontent, hgrants, hgrants',
    hrecords, hmappings]

/-- A mapping with a list and a set in it. -/
def mappingGiven : Value :=
  .map [0] [(.text "a", .list [1] [.int 1, .null]),
    (.text "b", .set [2] [.tuple [.text "x", .bool true]])]

/-- A view that is equal to the mapping, in another order. -/
def viewGiven : Value :=
  .view [(.text "b", .frozenSet [.tuple [.text "x", .int 1]]),
    (.text "a", .list [3] [.bool true, .null])]

theorem nested_mappingGiven : Nested false mappingGiven := by
  refine .entries rfl ⟨by simp [unhashable?], rfl⟩ ?_ ?_
  · simpa using ⟨.scalar rfl, .scalar rfl⟩
  · have hlist : Nested false (.list [1] [.int 1, .null]) :=
      .list (by simpa using ⟨.scalar rfl, .scalar rfl⟩)
    have hset : Nested false (.set [2] [.tuple [.text "x", .bool true]]) := by
      refine .members rfl ⟨by simp [unhashable?, unhashableAmong?], rfl⟩ ?_
      simpa [nested_tuple_iff] using ⟨.scalar rfl, .scalar rfl⟩
    simpa using ⟨hlist, hset⟩

theorem nested_viewGiven : Nested false viewGiven := by
  refine .entries rfl ⟨by simp [unhashable?], rfl⟩ ?_ ?_
  · simpa using ⟨.scalar rfl, .scalar rfl⟩
  · have hlist : Nested false (.list [3] [.bool true, .null]) :=
      .list (by simpa using ⟨.scalar rfl, .scalar rfl⟩)
    have hset : Nested false (.frozenSet [.tuple [.text "x", .int 1]]) := by
      refine .members rfl ⟨by simp [unhashable?, unhashableAmong?], rfl⟩ ?_
      simpa [nested_tuple_iff] using ⟨.scalar rfl, .scalar rfl⟩
    simpa using ⟨hset, hlist⟩

/-- A permission with a zone. -/
def permissionGiven : Permission :=
  ⟨some ⟨.user, .plain "u", some (.plain "z")⟩, [.read]⟩

theorem isBuilt_permissionGiven : permissionGiven.IsBuilt := by
  refine ⟨[.call (.zoneUser (.text "z") (.text "u")),
    .call (.operation (.member (.operation .read))), .build], [_, _], _, [], rfl, rfl, ?_⟩
  simp [PermissionBuilder.Call.names]

/-- The turns of a run that is given a value and a permission. -/
def turnsGiven (v : Value) : List RequestBuilder.Turn :=
  [⟨.call (.jsonValue v), ⟨5, []⟩⟩,
    ⟨.call (.additionalPermission permissionGiven.toValue), ⟨9, []⟩⟩, ⟨.build, ⟨9, []⟩⟩]

theorem isBuilt_of_given {v : Value} (hv : Nested false v) (hsort : sort permissionGiven.grant)
    (h : ∃ before e, RequestBuilder.run (turnsGiven v) = before ++ e :: [] ∧ e.answer = .built r ∧
      RequestBuilder.given before = v ∧ r.permissions = [permissionGiven.grant]) :
      r.IsBuilt sort := by
  obtain ⟨before, e, hrun, hanswer, hgiven, hgrants⟩ := h
  refine .intro hrun hanswer (hgiven ▸ hv) ?_
  rw [hgrants, List.forall_mem_singleton]
  exact hsort

/-- The request that was given the mapping. -/
def mappingRequest : Request :=
  ⟨false, none, some (.json [(.text "a", .tuple [.int 1, .null]),
    (.text "b", .frozenSet [.tuple [.text "x", .bool true]])]), [permissionGiven.grant]⟩

/-- The request that was given the view. -/
def viewRequest : Request :=
  ⟨false, none, some (.json [(.text "b", .frozenSet [.tuple [.text "x", .int 1]]),
    (.text "a", .tuple [.bool true, .null])]), [permissionGiven.grant]⟩

theorem isBuilt_mappingRequest (hsort : sort permissionGiven.grant) : mappingRequest.IsBuilt sort :=
  isBuilt_of_given nested_mappingGiven hsort ⟨[_, _], _, rfl, rfl, rfl, rfl⟩

theorem isBuilt_viewRequest (hsort : sort permissionGiven.grant) : viewRequest.IsBuilt sort :=
  isBuilt_of_given nested_viewGiven hsort ⟨[_, _], _, rfl, rfl, rfl, rfl⟩

/-- The mapping and the view make equal requests, which are sent as equal mappings. -/
theorem eq_iff_toDict_eq_of_mappingGiven :
    ∃ d d' t t', mappingRequest.IsBuilt Grant.IsBuilt ∧ viewRequest.IsBuilt Grant.IsBuilt ∧
      (Payload.requestToDict mappingRequest.toValue).Gives ⟨9, []⟩ d t ∧
      (Payload.requestToDict viewRequest.toValue).Gives ⟨9, []⟩ d' t' ∧
      mappingRequest.toValue.eq viewRequest.toValue ∧ d.eq d' := by
  have hgrant : Grant.IsBuilt permissionGiven.grant :=
    ⟨permissionGiven, isBuilt_permissionGiven, rfl⟩
  have hr := isBuilt_mappingRequest hgrant
  have hr' := isBuilt_viewRequest hgrant
  exact ⟨_, _, _, _, hr, hr', rfl, rfl, rfl, (eq_iff_toDict_eq hr hr' rfl rfl).1 rfl⟩

end Request

end CredentialWrites
