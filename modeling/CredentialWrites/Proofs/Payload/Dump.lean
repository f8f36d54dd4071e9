import CredentialWrites.Payload.Dump
import CredentialWrites.Proofs.Payload.Model

/-!
# What payloads look like when they are dumped

A plain document is dumped to the same document, whatever the limit of levels: a dumped key is the
key itself, or else it is a mapping or holds one, and then no mapping can have it as a key. The
mapping of a payload has its fields in their order, and the permissions only if there are any.

* `Payload.document_of_gives_dump` : what the dump of a plain document says.
* `Payload.eq_of_gives_toDict` : the mapping of the payload of a request.
-/

namespace CredentialWrites

namespace Payload

open Making Value

variable {s t : State} {level : Nat} {v w : Value}

theorem eq_of_gives_dump (hv : isKept v) (h : (dump .any level v).Gives s w t) : w = v := by
  rw [dump_of_isKept hv, gives_pure] at h
  exact h.1.symm

/-! ### Keys -/

theorem gives_dump_tuple {items : List Value} (h : (dump .any level (.tuple items)).Gives s w t) :
    w = .tuple items ∨
      ∃ items', (dumpAll .any (level + 1) items).Gives s items' t ∧ w = .tuple items' := by
  rw [dump] at h
  split at h
  · exact .inl (gives_pure.1 h).1.symm
  · obtain ⟨items', _, hitems, h⟩ := gives_bind.1 h
    obtain ⟨rfl, rfl⟩ := gives_pure.1 h
    exact .inr ⟨items', hitems, rfl⟩

theorem gives_dump_frozenSet {items : List Value}
    (h : (dump .any level (.frozenSet items)).Gives s w t) :
    w = .frozenSet items ∨ ∃ items' members, (dumpAll .any (level + 1) items).Gives s items' t ∧
      Value.distinct items' = .ok members ∧ w = .frozenSet members := by
  rw [dump] at h
  split at h
  · exact .inl (gives_pure.1 h).1.symm
  · simp only [gives_bind, gives_lift, gives_pure] at h
    obtain ⟨items', _, hitems, members, _, ⟨hmembers, rfl⟩, rfl, rfl⟩ := h
    exact .inr ⟨items', members, hitems, hmembers, rfl⟩

/-- The dump of a record is a mapping, unless the record is nested too deeply. -/
theorem gives_dump_record {kind : RecordKind} {fields : List Value}
    (h : (dump .any level (.record kind fields)).Gives s w t) :
    w = .record kind fields ∨ ∃ c es, w = .map c es := by
  rw [dump] at h
  split at h
  · exact .inl (gives_pure.1 h).1.symm
  · rw [if_neg (by decide)] at h
    obtain ⟨fields', _, -, h⟩ := gives_bind.1 h
    obtain ⟨c, rfl⟩ := eq_of_gives_map h
    exact .inr ⟨c, _, rfl⟩

theorem gives_dump_object {kind : ObjectKind} {c : Cell} {attrs : List (String × Value)}
    (h : (dump .any level (.object kind c attrs)).Gives s w t) :
    w = .object kind c attrs ∨ ∃ c es, w = .map c es := by
  rw [dump] at h
  split at h
  · exact .inl (gives_pure.1 h).1.symm
  · rw [if_neg (by decide)] at h
    split at h
    · obtain ⟨fields, _, -, h⟩ := gives_bind.1 h
      obtain ⟨c, rfl⟩ := eq_of_gives_map h
      exact .inr ⟨c, _, rfl⟩
    · exact .inl (gives_pure.1 h).1.symm

mutual

/-- The dump of a key is the key, or it can be none. -/
theorem key_of_gives_dump : ∀ {k w : Value} {level : Nat} {s t : State}, isKey k →
    (dump .any level k).Gives s w t → w = k ∨ w.unhashable? ≠ none
  | .tuple items, w, level, s, t, hk, h => by
    rw [isKey] at hk
    obtain rfl | ⟨items', hitems, rfl⟩ := gives_dump_tuple h
    · exact .inl rfl
    · rw [unhashable?]
      obtain rfl | hne := keys_of_gives_dumpAll hk hitems
      · exact .inl rfl
      · exact .inr hne
  | .frozenSet items, w, level, s, t, hk, h => by
    simp only [isKey, Bool.and_eq_true] at hk
    obtain rfl | ⟨items', members, hitems, hmembers, rfl⟩ := gives_dump_frozenSet h
    · exact .inl rfl
    · -- the set is made of the dumps of its members, all of which have to be hashable
      have hhashable := hashable_of_distinct hmembers
      obtain rfl | hne := keys_of_gives_dumpAll hk.1 hitems
      · rw [distinct_eq_ok hhashable hk.2] at hmembers
        rw [← Except.ok.inj hmembers]
        exact .inl rfl
      · exact absurd (unhashableAmong?_eq_none_iff.2 hhashable) hne
  | .record _ _, w, level, s, t, _, h => by
    obtain rfl | ⟨c, es, rfl⟩ := gives_dump_record h
    · exact .inl rfl
    · exact .inr (by simp [unhashable?])
  | .object _ _ _, w, level, s, t, _, h => by
    obtain rfl | ⟨c, es, rfl⟩ := gives_dump_object h
    · exact .inl rfl
    · exact .inr (by simp [unhashable?])
  | .list _ _, _, _, _, _, hk, _ | .set _ _, _, _, _, _, hk, _ | .map _ _, _, _, _, _, hk, _ => by
    simp [isKey, unhashable?] at hk
  | .null, _, _, _, _, _, h | .bool _, _, _, _, _, _, h | .int _, _, _, _, _, _, h
  | .float _, _, _, _, _, _, h | .nan _, _, _, _, _, _, h | .text _, _, _, _, _, _, h
  | .bytes _, _, _, _, _, _, h | .member _, _, _, _, _, _, h | .view _, _, _, _, _, _, h
  | .buffer _ _, _, _, _, _, _, h | .stream _ _, _, _, _, _, _, h
  | .fault _ _ _ _, _, _, _, _, _, h => .inl (eq_of_gives_dump rfl h)

theorem keys_of_gives_dumpAll : ∀ {ks ws : List Value} {level : Nat} {s t : State}, areKeys ks →
    (dumpAll .any level ks).Gives s ws t → ws = ks ∨ unhashableAmong? ws ≠ none
  | [], ws, level, s, t, _, h => by
    rw [dumpAll] at h
    exact .inl (gives_pure.1 h).1.symm
  | k :: ks, ws, level, s, t, hk, h => by
    simp only [areKeys, Bool.and_eq_true] at hk
    simp only [dumpAll, gives_bind, gives_pure] at h
    obtain ⟨w, _, hw, ws, _, hws, rfl, -⟩ := h
    simp only [ne_eq, unhashableAmong?_eq_none_iff, List.forall_mem_cons, not_and_or]
    obtain rfl | hne := key_of_gives_dump hk.1 hw
    · obtain rfl | hnes := keys_of_gives_dumpAll hk.2 hws
      · exact .inl rfl
      · exact .inr (.inr (unhashableAmong?_eq_none_iff.not.1 hnes))
    · exact .inr (.inl hne)

end

/-! ### Documents -/

theorem gives_dump_map {c : Cell} {es : List (Value × Value)}
    (h : (dump .any level (.map c es)).Gives s w t) :
    w = .map c es ∨ ∃ c' es' es'' u, (dumpEntries (level + 1) es).Gives s es' u ∧
      Value.entriesOf es' = .ok es'' ∧ w = .map c' es'' := by
  rw [dump] at h
  split at h
  · exact .inl (gives_pure.1 h).1.symm
  · simp only [gives_bind, gives_lift] at h
    obtain ⟨es', _, hes, es'', _, ⟨hes', rfl⟩, h⟩ := h
    obtain ⟨c', rfl⟩ := eq_of_gives_map h
    exact .inr ⟨c', es', es'', _, hes, hes', rfl⟩

theorem gives_dump_list {c : Cell} {items : List Value}
    (h : (dump .any level (.list c items)).Gives s w t) :
    w = .list c items ∨ ∃ c' items' u, (dumpAll .any (level + 1) items).Gives s items' u ∧
      w = .list c' items' := by
  rw [dump] at h
  split at h
  · exact .inl (gives_pure.1 h).1.symm
  · obtain ⟨items', _, hitems, h⟩ := gives_bind.1 h
    obtain ⟨c', rfl⟩ := eq_of_gives_list h
    exact .inr ⟨c', items', _, hitems, rfl⟩

mutual

/-- The dump of a plain document says the same, and is plain. -/
theorem document_of_gives_dump :
    ∀ {v w : Value} {level : Nat} {s t : State}, v.isDocument → v.isPlain →
    (dump .any level v).Gives s w t → w.document = v.document ∧ w.isPlain
  | .map c es, w, level, s, t, hv, hp, h => by
    obtain rfl | ⟨c', es', es'', _, hes, hentries, rfl⟩ := gives_dump_map h
    · exact ⟨rfl, hp⟩
    · simp only [isDocument, Bool.and_eq_true] at hv
      rw [isPlain] at hp
      -- the mapping is made anew from the dumps of its entries
      have hhashable := hashable_of_entriesOf hentries
      obtain ⟨e, he, hne⟩ | ⟨hdocument, hplain⟩ := documentEntries_of_gives_dumpEntries hv.2 hp hes
      · -- a key that changed is no key, so that there was no mapping
        exact absurd (hhashable e he) hne
      · have hkeys : es'.map Prod.fst = es.map Prod.fst := by
          rw [← keys_documentEntries, hdocument, keys_documentEntries]
        have halike : noneAlike (es'.map Prod.fst) := hkeys ▸ hv.1
        rw [entriesOf_eq_ok hhashable halike] at hentries
        obtain rfl := Except.ok.inj hentries
        rw [document, document, hdocument, isPlain]
        exact ⟨rfl, hplain⟩
  | .list c items, w, level, s, t, hv, hp, h => by
    obtain rfl | ⟨c', items', _, hitems, rfl⟩ := gives_dump_list h
    · exact ⟨rfl, hp⟩
    · rw [isDocument] at hv
      rw [isPlain] at hp
      obtain ⟨hdocument, hplain⟩ := documentAll_of_gives_dumpAll hv hp hitems
      rw [document, document, hdocument, isPlain]
      exact ⟨rfl, hplain⟩
  | .null, _, _, _, _, _, hp, h | .bool _, _, _, _, _, _, hp, h | .int _, _, _, _, _, _, hp, h
  | .float _, _, _, _, _, _, hp, h | .nan _, _, _, _, _, _, hp, h | .text _, _, _, _, _, _, hp, h
  | .bytes _, _, _, _, _, _, hp, h | .member _, _, _, _, _, _, hp, h => by
    rw [eq_of_gives_dump rfl h]
    exact ⟨rfl, hp⟩
  | .view _, _, _, _, _, _, hp, _ | .tuple _, _, _, _, _, _, hp, _
  | .frozenSet _, _, _, _, _, _, hp, _ | .record _ _, _, _, _, _, _, hp, _
  | .set _ _, _, _, _, _, _, hp, _ | .buffer _ _, _, _, _, _, _, hp, _
  | .stream _ _, _, _, _, _, _, hp, _ | .fault _ _ _ _, _, _, _, _, _, hp, _
  | .object _ _ _, _, _, _, _, _, hp, _ => by cases hp

theorem documentAll_of_gives_dumpAll : ∀ {vs ws : List Value} {level : Nat} {s t : State},
    areDocuments vs → arePlain vs → (dumpAll .any level vs).Gives s ws t →
    documentAll ws = documentAll vs ∧ arePlain ws
  | [], ws, level, s, t, _, _, h => by
    rw [dumpAll] at h
    obtain ⟨rfl, -⟩ := gives_pure.1 h
    exact ⟨rfl, rfl⟩
  | v :: vs, ws, level, s, t, hv, hp, h => by
    simp only [areDocuments, Bool.and_eq_true] at hv
    simp only [arePlain, Bool.and_eq_true] at hp
    simp only [dumpAll, gives_bind, gives_pure] at h
    obtain ⟨w, _, hw, ws, _, hws, rfl, -⟩ := h
    obtain ⟨hw', hplain⟩ := document_of_gives_dump hv.1 hp.1 hw
    obtain ⟨hws', hplains⟩ := documentAll_of_gives_dumpAll hv.2 hp.2 hws
    simp only [documentAll, arePlain, hw', hws', hplain, hplains, Bool.and_self, and_self]

theorem documentEntries_of_gives_dumpEntries : ∀ {es es' : List (Value × Value)} {level : Nat}
    {s t : State}, areDocumentEntries es → arePlainEntries es →
    (dumpEntries level es).Gives s es' t →
    (∃ e ∈ es', e.1.unhashable? ≠ none) ∨
      (documentEntries es' = documentEntries es ∧ arePlainEntries es')
  | [], es', level, s, t, _, _, h => by
    rw [dumpEntries] at h
    obtain ⟨rfl, -⟩ := gives_pure.1 h
    exact .inr ⟨rfl, rfl⟩
  | (k, v) :: es, es', level, s, t, hv, hp, h => by
    simp only [areDocumentEntries, Bool.and_eq_true] at hv
    simp only [arePlainEntries, Bool.and_eq_true] at hp
    simp only [dumpEntries, gives_bind, gives_pure] at h
    obtain ⟨k', _, hk, w, _, hw, es'', _, hes, rfl, -⟩ := h
    obtain ⟨hw', hplain⟩ := document_of_gives_dump hv.1.2 hp.1 hw
    obtain rfl | hne := key_of_gives_dump hv.1.1 hk
    · obtain ⟨e, he, hne⟩ | ⟨hes', hplains⟩ := documentEntries_of_gives_dumpEntries hv.2 hp.2 hes
      · exact .inl ⟨e, List.mem_cons_of_mem _ he, hne⟩
      · refine .inr ?_
        simp only [documentEntries, arePlainEntries, hw', hes', hplain, hplains,
          Bool.and_self, and_self]
    · exact .inl ⟨_, List.mem_cons_self, hne⟩

end

/-! ### Models -/

/-- What fits an optional text is dumped as it is. -/
theorem eq_of_gives_dump_optionalText {o : Option String}
    (h : (dump .optionalText level (optionalText o)).Gives s w t) : w = optionalText o := by
  have hdump : dump .optionalText level (optionalText o) = pure (optionalText o) := by
    cases o <;> rfl
  rw [hdump] at h
  exact (gives_pure.1 h).1.symm

theorem eq_of_gives_dumpAll_text {texts : List String} {ws : List Value}
    (h : (dumpAll .text level (texts.map .text)).Gives s ws t) : ws = texts.map .text := by
  induction texts generalizing s ws t with
  | nil =>
    rw [List.map_nil, dumpAll] at h
    exact (gives_pure.1 h).1.symm
  | cons a texts ih =>
    have hdump : dump .text level (.text a) = pure (.text a) := rfl
    simp only [List.map_cons, dumpAll, hdump, gives_bind, gives_pure] at h
    obtain ⟨_, _, ⟨rfl, rfl⟩, ws, _, hws, rfl, -⟩ := h
    rw [ih hws, List.map_cons]

/-- A list that is expected is dumped item by item. -/
theorem gives_dump_list_of_fits {shape : FieldShape} {c : Cell} {items : List Value}
    (hfits : ∀ items, shape.fits (.list c items))
    (h : (dump shape level (.list c items)).Gives s w t) :
    ∃ c' items' u, (dumpAll shape.ofItems level items).Gives s items' u ∧ w = .list c' items' := by
  rw [dump, hfits, if_neg (by simp), FieldShape.partLevel, if_pos (hfits [])] at h
  obtain ⟨items', _, hitems, h⟩ := gives_bind.1 h
  obtain ⟨c', rfl⟩ := eq_of_gives_list h
  exact ⟨c', items', _, hitems, rfl⟩

/-- The first of the fields is dumped before the others. -/
theorem gives_dumpFields_cons {kind : ObjectKind} {name : String}
    {attrs fields : List (String × Value)} (hname : kind.fieldNames.contains name)
    (h : (dumpFields kind level ((name, v) :: attrs)).Gives s fields t) :
    ∃ w u fields', (dump (.ofField kind name) level v).Gives s w u ∧
      (dumpFields kind level attrs).Gives u fields' t ∧ fields = (name, w) :: fields' := by
  rw [dumpFields, if_pos hname] at h
  simp only [gives_bind, gives_pure] at h
  obtain ⟨w, u, hw, fields', _, hfields, rfl, rfl⟩ := h
  exact ⟨w, u, fields', hw, hfields, rfl⟩

theorem eq_of_gives_dumpFields_nil {kind : ObjectKind} {fields : List (String × Value)}
    (h : (dumpFields kind level []).Gives s fields t) : fields = [] := by
  rw [dumpFields] at h
  exact (gives_pure.1 h).1.symm

/-- The mapping of a permission. -/
def permissionDict (c c' : Cell) (identity : Option String) (tokens : List String) : Value :=
  .map c [(.text "actor", optionalText identity), (.text "operations", .list c' (tokens.map .text))]

theorem eq_of_gives_dump_permissionModel {c c' : Cell} {identity : Option String}
    {tokens : List String}
    (h : (dump .permission level (permissionModel c c' identity tokens)).Gives s w t) :
    ∃ d d', w = permissionDict d d' identity tokens := by
  have hdump : dump .permission level (permissionModel c c' identity tokens) = (do
      Making.map (Payload.entriesOf (← dumpFields .permissionPayload level
        [("actor", optionalText identity), ("operations", .list c' (tokens.map .text))]))) := rfl
  rw [hdump] at h
  obtain ⟨fields, _, hfields, h⟩ := gives_bind.1 h
  obtain ⟨actor, _, fields, hactor, hrest, rfl⟩ := gives_dumpFields_cons rfl hfields
  obtain ⟨operations, _, fields, hoperations, hnil, rfl⟩ := gives_dumpFields_cons rfl hrest
  obtain rfl := eq_of_gives_dumpFields_nil hnil
  obtain rfl := eq_of_gives_dump_optionalText hactor
  obtain ⟨d', items, _, hitems, rfl⟩ := gives_dump_list_of_fits (fun _ => rfl) hoperations
  obtain rfl := eq_of_gives_dumpAll_text hitems
  obtain ⟨d, rfl⟩ := eq_of_gives_map h
  exact ⟨d, d', rfl⟩

/-- What is dumped of the models of permissions. -/
theorem forall₂_of_gives_dumpAll {shape : FieldShape} {vs ws : List Value}
    (h : (dumpAll shape level vs).Gives s ws t) :
    List.Forall₂ (fun v w => ∃ u u', (dump shape level v).Gives u w u') vs ws := by
  induction vs generalizing s ws t with
  | nil =>
    rw [dumpAll] at h
    obtain ⟨rfl, -⟩ := gives_pure.1 h
    exact .nil
  | cons v vs ih =>
    simp only [dumpAll, gives_bind, gives_pure] at h
    obtain ⟨w, _, hw, ws, _, hws, rfl, -⟩ := h
    exact .cons ⟨_, _, hw⟩ (ih hws)

/-- The mapping of the body of a write, which has no permissions if there are none. -/
def requestDict (c c' : Cell) (overwrite : Bool) (name type : Option String) (value : Value)
    (permissions : List Value) : Value :=
  .map c ([(.text "overwrite", .bool overwrite), (.text "name", optionalText name),
      (.text "type", optionalText type), (.text "value", value)] ++
    if permissions.isEmpty then [] else [(.text "additional_permissions", .list c' permissions)])

theorem eq_of_gives_dump_flag {b : Bool} (h : (dump .flag level (.bool b)).Gives s w t) :
    w = .bool b := by
  have hdump : dump .flag level (.bool b) = pure (.bool b) := rfl
  rw [hdump] at h
  exact (gives_pure.1 h).1.symm

/-- The permissions of a body that are written. -/
theorem gives_dumpFields_permissions {c : Cell} {payloads : List Value}
    {fields : List (String × Value)} (h : (dumpFields .requestPayload level
      (if payloads.isEmpty then [] else [("additional_permissions", Value.list c payloads)])).Gives
        s fields t) :
    ∃ c' entries,
      List.Forall₂ (fun p e => ∃ u u', (dump .permission level p).Gives u e u') payloads entries ∧
      fields = if entries.isEmpty then [] else [("additional_permissions", .list c' entries)] := by
  cases payloads with
  | nil =>
    obtain rfl := eq_of_gives_dumpFields_nil h
    exact ⟨[], [], .nil, rfl⟩
  | cons p payloads =>
    obtain ⟨permissions, _, fields, hpermissions, hnil, rfl⟩ := gives_dumpFields_cons rfl h
    obtain rfl := eq_of_gives_dumpFields_nil hnil
    obtain ⟨c', entries, _, hentries, rfl⟩ := gives_dump_list_of_fits (fun _ => rfl) hpermissions
    -- there are as many entries as payloads, so that they are not left out either
    have hforall := forall₂_of_gives_dumpAll hentries
    refine ⟨c', entries, hforall, ?_⟩
    cases hforall
    rfl

/-- The fields of a body that are written. -/
theorem written_requestModel {c : Cell} {overwrite : Bool} {name type : Option String}
    {value : Value} {payloads : List Value} :
    written [("overwrite", .bool overwrite), ("name", optionalText name),
      ("type", optionalText type),
        ("value", value), ("additional_permissions", .list c payloads)] =
      [("overwrite", .bool overwrite), ("name", optionalText name), ("type", optionalText type),
        ("value", value)] ++
        if payloads.isEmpty then [] else [("additional_permissions", .list c payloads)] := by
  cases payloads <;> rfl

/-- The mapping of the payload of a request. -/
theorem eq_of_gives_toDict {c c' : Cell} {overwrite : Bool} {name type : Option String}
    {value d : Value} {payloads : List Value}
    (h : (toDict (requestModel c c' overwrite name type value payloads)).Gives s d t) :
    ∃ c c' value' entries, (∃ u u', (dump .any 1 value).Gives u value' u') ∧
      List.Forall₂ (fun p e => ∃ u u', (dump .permission 1 p).Gives u e u') payloads entries ∧
      d = requestDict c c' overwrite name type value' entries := by
  -- four fields are always written, and the permissions come after them
  rw [requestModel, toDict, written_requestModel] at h
  obtain ⟨fields, _, hfields, h⟩ := gives_bind.1 h
  obtain ⟨_, _, rest, hoverwrite, hrest₁, rfl⟩ := gives_dumpFields_cons rfl hfields
  obtain ⟨_, _, rest, hname, hrest₂, rfl⟩ := gives_dumpFields_cons rfl hrest₁
  obtain ⟨_, _, rest, htype, hrest₃, rfl⟩ := gives_dumpFields_cons rfl hrest₂
  obtain ⟨value', _, rest, hvalue, hrest₄, rfl⟩ := gives_dumpFields_cons rfl hrest₃
  obtain ⟨c', entries, hentries, rfl⟩ := gives_dumpFields_permissions hrest₄
  obtain rfl := eq_of_gives_dump_flag hoverwrite
  obtain rfl := eq_of_gives_dump_optionalText hname
  obtain rfl := eq_of_gives_dump_optionalText htype
  obtain ⟨c, rfl⟩ := eq_of_gives_map h
  refine ⟨c, c', value', entries, ⟨_, _, hvalue⟩, hentries, ?_⟩
  cases entries <;> rfl

end Payload

end CredentialWrites
