import CredentialWrites.Payload.Wire
import CredentialWrites.Proofs.Payload.Dump
import CredentialWrites.Proofs.Value.Outline

/-!
# Dumping a dump

What a plain document was dumped to can be dumped again, at all times: its keys were dumped to
themselves, and so they are once more. What is written of a value does not tell the identities of
its containers, so that values with one outline are written as one document.

* `Payload.always_dump_again` : the dump of a plain document can be dumped.
* `Wire.document_outline` : values with one outline have one document.
-/

namespace CredentialWrites

open Making

namespace Payload

open Value

variable {s t : State} {level : Nat} {v w : Value}

/-! ### Dumping a dump -/

theorem dump_of_deep (h : maxLevel < level) (v : Value) : dump .any level v = pure v := by
  cases v <;> simp [dump, FieldShape.fits, h]

/-- What is nested too deeply is kept, so that only the rest is left to look at. -/
theorem always_dump_of_shallow {Q : Value → Prop} (hv : Q v)
    (h : ¬ maxLevel < level → (dump .any level v).Always Q) : (dump .any level v).Always Q := by
  by_cases hlevel : maxLevel < level
  · rw [dump_of_deep hlevel]
    exact always_pure hv
  · exact h hlevel

section Shallow

variable (hlevel : ¬ maxLevel < level)
include hlevel

theorem not_deep (v : Value) : ¬ (!FieldShape.any.fits v && decide (maxLevel < level)) = true := by
  simp [hlevel]

theorem dump_map (c : Cell) (es : List (Value × Value)) : dump .any level (.map c es) = (do
    let es ← dumpEntries (level + 1) es
    Making.map (← Value.entriesOf es)) := by
  rw [dump, if_neg (not_deep hlevel _)]

theorem dump_list (c : Cell) (items : List Value) : dump .any level (.list c items) = (do
    let items ← dumpAll .any (level + 1) items
    Making.list items) := by
  rw [dump, if_neg (not_deep hlevel _)]
  rfl

theorem dump_tuple (items : List Value) : dump .any level (.tuple items) = (do
    return .tuple (← dumpAll .any (level + 1) items)) := by
  rw [dump, if_neg (not_deep hlevel _)]

theorem dump_frozenSet (items : List Value) : dump .any level (.frozenSet items) = (do
    let items ← dumpAll .any (level + 1) items
    return .frozenSet (← Value.distinct items)) := by
  rw [dump, if_neg (not_deep hlevel _)]

/-- A record that is dumped does not stay the record that it is. -/
theorem not_gives_dump_record {kind : RecordKind} {fields : List Value} :
    ¬ (dump .any level (.record kind fields)).Gives s (.record kind fields) t := by
  rw [dump, if_neg (not_deep hlevel _), if_neg (by decide)]
  intro h
  obtain ⟨fields', _, -, h⟩ := gives_bind.1 h
  obtain ⟨c, h⟩ := eq_of_gives_map h
  cases h

end Shallow

mutual

/-- A key that was dumped to itself is dumped to itself at all times. -/
theorem always_dump_key : ∀ {k : Value} {level : Nat} {s t : State}, isKey k →
    (dump .any level k).Gives s k t → (dump .any level k).Always (· = k)
  | .tuple items, level, s, t, hk, h => by
    rw [isKey] at hk
    refine always_dump_of_shallow rfl fun hlevel => ?_
    rw [dump_tuple hlevel] at h ⊢
    obtain ⟨items', _, hitems, h⟩ := gives_bind.1 h
    cases (gives_pure.1 h).1
    exact (always_dumpAll_keys hk hitems).bind fun ws hws => always_pure (by rw [hws])
  | .frozenSet items, level, s, t, hk, h => by
    simp only [isKey, Bool.and_eq_true] at hk
    refine always_dump_of_shallow rfl fun hlevel => ?_
    rw [dump_frozenSet hlevel] at h ⊢
    simp only [gives_bind, gives_lift, gives_pure] at h
    obtain ⟨items', _, hitems, members, _, ⟨hmembers, rfl⟩, heq, -⟩ := h
    cases heq
    have hhashable := hashable_of_distinct hmembers
    -- the members were dumped to themselves as well, or else they could not be members
    obtain rfl | hne := keys_of_gives_dumpAll hk.1 hitems
    · refine (always_dumpAll_keys hk.1 hitems).bind fun ws hws => ?_
      rw [hws]
      exact (always_lift hmembers).bind fun _ h => always_pure (by rw [h])
    · exact absurd (unhashableAmong?_eq_none_iff.2 hhashable) hne
  | .record _ _, level, s, t, _, h =>
    always_dump_of_shallow rfl fun hlevel => absurd h (not_gives_dump_record hlevel)
  | .object kind c attrs, level, s, t, hk, _ => by
    -- what is no model can be a key, and is kept
    have hmodel : kind.isModel = false := by simpa [isKey, unhashable?] using hk
    have hkept : dump .any level (.object kind c attrs) = pure (.object kind c attrs) := by
      simp [dump, hmodel]
    rw [hkept]
    exact always_pure rfl
  | .list _ _, _, _, _, hk, _ | .set _ _, _, _, _, hk, _ | .map _ _, _, _, _, hk, _ => by
    simp [isKey, unhashable?] at hk
  | .null, _, _, _, _, _ | .bool _, _, _, _, _, _ | .int _, _, _, _, _, _ | .float _, _, _, _, _, _
  | .nan _, _, _, _, _, _ | .text _, _, _, _, _, _ | .bytes _, _, _, _, _, _
  | .member _, _, _, _, _, _ | .view _, _, _, _, _, _ | .buffer _ _, _, _, _, _, _
  | .stream _ _, _, _, _, _, _ | .fault _ _ _ _, _, _, _, _, _ => by
    rw [dump_of_isKept rfl]
    exact always_pure rfl

theorem always_dumpAll_keys : ∀ {ks : List Value} {level : Nat} {s t : State}, areKeys ks →
    (dumpAll .any level ks).Gives s ks t → (dumpAll .any level ks).Always (· = ks)
  | [], level, s, t, _, _ => by
    rw [dumpAll]
    exact always_pure rfl
  | k :: ks, level, s, t, hk, h => by
    simp only [areKeys, Bool.and_eq_true] at hk
    rw [dumpAll] at h ⊢
    simp only [gives_bind, gives_pure] at h
    obtain ⟨w, _, hw, ws, _, hws, heq, -⟩ := h
    cases heq
    exact (always_dump_key hk.1 hw).bind fun _ hfirst =>
      (always_dumpAll_keys hk.2 hws).bind fun _ hrest =>
      always_pure (by rw [hfirst, hrest])

end

/-- The dump of a plain document keeps the keys, if they can be keys at all. -/
theorem keys_of_gives_dumpEntries {es es' : List (Value × Value)} (hv : areDocumentEntries es)
    (hp : arePlainEntries es) (hhashable : ∀ e ∈ es', e.1.unhashable? = none)
    (h : (dumpEntries level es).Gives s es' t) : es'.map Prod.fst = es.map Prod.fst := by
  obtain ⟨e, he, hne⟩ | ⟨hdocument, -⟩ := documentEntries_of_gives_dumpEntries hv hp h
  · exact absurd (hhashable e he) hne
  · rw [← keys_documentEntries, hdocument, keys_documentEntries]

mutual

/-- What a plain document was dumped to can be dumped. -/
theorem always_dump_again : ∀ {v w : Value} {level : Nat} {s t : State}, v.isDocument → v.isPlain →
    (dump .any level v).Gives s w t → (dump .any level w).Always fun _ => True
  | .map c es, w, level, s, t, hv, hp, h => by
    refine always_dump_of_shallow trivial fun hlevel => ?_
    simp only [isDocument, Bool.and_eq_true] at hv
    rw [isPlain] at hp
    rw [dump_map hlevel] at h
    simp only [gives_bind, gives_lift] at h
    obtain ⟨es', _, hes, es'', _, ⟨hentries, rfl⟩, h⟩ := h
    obtain ⟨c', rfl⟩ := eq_of_gives_map h
    -- the dumped keys are those of the document, so that they make a mapping again
    have hhashable := hashable_of_entriesOf hentries
    have hkeys : es'.map Prod.fst = es.map Prod.fst :=
      keys_of_gives_dumpEntries hv.2 hp hhashable hes
    rw [entriesOf_eq_ok hhashable (hkeys ▸ hv.1)] at hentries
    cases hentries
    rw [dump_map hlevel]
    refine (always_dumpEntries_again hv.2 hp hhashable hes).bind fun ds hds => ?_
    have hagain : Value.entriesOf ds = .ok ds := by
      refine entriesOf_eq_ok (fun d hd => ?_) (by rw [hds, hkeys]; exact hv.1)
      have hmem : d.1 ∈ es'.map Prod.fst := hds ▸ List.mem_map_of_mem hd
      obtain ⟨e, he, heq⟩ := List.mem_map.1 hmem
      exact heq ▸ hhashable e he
    exact (always_lift hagain).bind fun _ _ => (always_map _).mono fun _ _ => trivial
  | .list c items, w, level, s, t, hv, hp, h => by
    refine always_dump_of_shallow trivial fun hlevel => ?_
    rw [isDocument] at hv
    rw [isPlain] at hp
    rw [dump_list hlevel] at h
    obtain ⟨items', _, hitems, h⟩ := gives_bind.1 h
    obtain ⟨c', rfl⟩ := eq_of_gives_list h
    rw [dump_list hlevel]
    exact (always_dumpAll_again hv hp hitems).bind fun _ _ =>
      (always_list _).mono fun _ _ => trivial
  | .null, _, _, _, _, _, _, h | .bool _, _, _, _, _, _, _, h | .int _, _, _, _, _, _, _, h
  | .float _, _, _, _, _, _, _, h | .nan _, _, _, _, _, _, _, h | .text _, _, _, _, _, _, _, h
  | .bytes _, _, _, _, _, _, _, h | .member _, _, _, _, _, _, _, h => by
    rw [eq_of_gives_dump rfl h, dump_of_isKept rfl]
    exact always_pure trivial
  | .view _, _, _, _, _, _, hp, _ | .tuple _, _, _, _, _, _, hp, _
  | .frozenSet _, _, _, _, _, _, hp, _ | .record _ _, _, _, _, _, _, hp, _
  | .set _ _, _, _, _, _, _, hp, _ | .buffer _ _, _, _, _, _, _, hp, _
  | .stream _ _, _, _, _, _, _, hp, _ | .fault _ _ _ _, _, _, _, _, _, hp, _
  | .object _ _ _, _, _, _, _, _, hp, _ => by cases hp

theorem always_dumpAll_again : ∀ {vs ws : List Value} {level : Nat} {s t : State},
    areDocuments vs → arePlain vs → (dumpAll .any level vs).Gives s ws t →
    (dumpAll .any level ws).Always fun _ => True
  | [], ws, level, s, t, _, _, h => by
    rw [dumpAll] at h
    obtain ⟨rfl, -⟩ := gives_pure.1 h
    rw [dumpAll]
    exact always_pure trivial
  | v :: vs, ws, level, s, t, hv, hp, h => by
    simp only [areDocuments, Bool.and_eq_true] at hv
    simp only [arePlain, Bool.and_eq_true] at hp
    simp only [dumpAll, gives_bind, gives_pure] at h
    obtain ⟨w, _, hw, ws, _, hws, rfl, -⟩ := h
    rw [dumpAll]
    exact (always_dump_again hv.1 hp.1 hw).bind fun _ _ =>
      (always_dumpAll_again hv.2 hp.2 hws).bind fun _ _ => always_pure trivial

theorem always_dumpEntries_again : ∀ {es es' : List (Value × Value)} {level : Nat} {s t : State},
    areDocumentEntries es → arePlainEntries es → (∀ e ∈ es', e.1.unhashable? = none) →
    (dumpEntries level es).Gives s es' t →
    (dumpEntries level es').Always fun ds => ds.map Prod.fst = es'.map Prod.fst
  | [], es', level, s, t, _, _, _, h => by
    rw [dumpEntries] at h
    obtain ⟨rfl, -⟩ := gives_pure.1 h
    rw [dumpEntries]
    exact always_pure rfl
  | (k, v) :: es, es', level, s, t, hv, hp, hhashable, h => by
    simp only [areDocumentEntries, Bool.and_eq_true] at hv
    simp only [arePlainEntries, Bool.and_eq_true] at hp
    simp only [dumpEntries, gives_bind, gives_pure] at h
    obtain ⟨k', _, hk, w, _, hw, es'', _, hes, rfl, -⟩ := h
    rw [List.forall_mem_cons] at hhashable
    obtain rfl := (key_of_gives_dump hv.1.1 hk).resolve_right (not_not.2 hhashable.1)
    rw [dumpEntries]
    refine (always_dump_key hv.1.1 hk).bind fun l hl =>
      (always_dump_again hv.1.2 hp.1 hw).bind fun x _ => ?_
    refine (always_dumpEntries_again hv.2 hp.2 hhashable.2 hes).bind fun ds hds => always_pure ?_
    rw [List.map_cons, List.map_cons, hl, hds]

end

/-! ### Parts that can be dumped -/

theorem always_dumpAll {shape : FieldShape} {vs : List Value}
    (h : ∀ v ∈ vs, (dump shape level v).Always fun _ => True) :
    (dumpAll shape level vs).Always fun _ => True := by
  induction vs with
  | nil =>
    rw [dumpAll]
    exact always_pure trivial
  | cons v vs ih =>
    rw [List.forall_mem_cons] at h
    rw [dumpAll]
    exact h.1.bind fun _ _ => (ih h.2).bind fun _ _ => always_pure trivial

theorem always_dumpFields {kind : ObjectKind} {attrs : List (String × Value)}
    (h : ∀ a ∈ attrs, (dump (.ofField kind a.1) level a.2).Always fun _ => True) :
    (dumpFields kind level attrs).Always fun _ => True := by
  induction attrs with
  | nil =>
    rw [dumpFields]
    exact always_pure trivial
  | cons a attrs ih =>
    obtain ⟨name, v⟩ := a
    rw [List.forall_mem_cons] at h
    rw [dumpFields]
    split
    · exact h.1.bind fun _ _ => (ih h.2).bind fun _ _ => always_pure trivial
    · exact ih h.2

theorem always_dump_optionalText (o : Option String) :
    (dump .optionalText level (optionalText o)).Always fun _ => True := by
  have hdump : dump .optionalText level (optionalText o) = pure (optionalText o) := by
    cases o <;> rfl
  rw [hdump]
  exact always_pure trivial

/-- A list is dumped wherever one is expected if its items can be dumped. -/
theorem always_dump_list {shape : FieldShape} {c : Cell} {items : List Value}
    (hfits : ∀ items, shape.fits (.list c items))
    (h : ∀ v ∈ items, (dump shape.ofItems level v).Always fun _ => True) :
    (dump shape level (.list c items)).Always fun _ => True := by
  rw [dump, hfits, if_neg (by simp), FieldShape.partLevel, if_pos (hfits [])]
  exact (always_dumpAll h).bind fun _ _ => (always_list _).mono fun _ _ => trivial

end Payload

/-! ### Documents and outlines -/

theorem FieldShape.fits_outline (shape : FieldShape) (v : Value) :
    shape.fits v.outline = shape.fits v := by
  cases v <;> cases shape <;> rfl

namespace Wire

open Value

mutual

/-- The document of a value does not tell the identities of its containers. -/
theorem document_outline (shape : FieldShape) (level : Nat) : ∀ v : Value,
    document shape level v.outline = document shape level v
  | .map c es => by
    have hfits : shape.fits (.map [] (reshapeEntries .kept es)) = shape.fits (.map c es) :=
      shape.fits_outline (.map c es)
    rw [outline_map, document, document, hfits, members_reshapeEntries (level + 1) es]
  | .list c items => by
    have hfits : shape.fits (.list [] (reshapeAll .kept items)) = shape.fits (.list c items) :=
      shape.fits_outline (.list c items)
    have hpart : shape.partLevel (.list [] []) level = shape.partLevel (.list c []) level := by
      cases shape <;> rfl
    rw [outline_list, document, document, hfits, hpart, documents_reshapeAll shape.ofItems _ items]
  | .tuple items => by
    have hfits : shape.fits (.tuple (reshapeAll .kept items)) = shape.fits (.tuple items) :=
      shape.fits_outline (.tuple items)
    rw [outline_tuple, document, document, hfits, documents_reshapeAll .any _ items]
  | .set c items => by
    have hfits : shape.fits (.set [] items) = shape.fits (.set c items) :=
      shape.fits_outline (.set c items)
    rw [outline_set, document, document, hfits]
  | .buffer c bs => by
    have hfits : shape.fits (.buffer [] bs) = shape.fits (.buffer c bs) :=
      shape.fits_outline (.buffer c bs)
    rw [outline_buffer, document, document, hfits]
  | .view es => by
    have hfits : shape.fits (.view (reshapeEntries .kept es)) = shape.fits (.view es) :=
      shape.fits_outline (.view es)
    rw [outline_view, document, document, hfits]
  | .null | .bool _ | .int _ | .float _ | .nan _ | .text _ | .bytes _ | .member _ | .frozenSet _
  | .record _ _ | .stream _ _ | .fault _ _ _ _ | .object _ _ _ => rfl

theorem documents_reshapeAll (shape : FieldShape) (level : Nat) : ∀ vs : List Value,
    documents shape level (reshapeAll .kept vs) = documents shape level vs
  | [] => rfl
  | v :: vs => by
    rw [reshapeAll, documents, documents, ← outline, document_outline shape level v,
      documents_reshapeAll shape level vs]

theorem members_reshapeEntries (level : Nat) : ∀ es : List (Value × Value),
    members level (reshapeEntries .kept es) = members level es
  | [] => rfl
  | (k, v) :: es => by
    rw [reshapeEntries, members, members, ← outline, document_outline .any level v,
      members_reshapeEntries level es]

end

theorem document_eq_of_outline {v w : Value} (h : w.outline = v.outline) (shape : FieldShape)
    (level : Nat) : document shape level w = document shape level v := by
  rw [← document_outline, h, document_outline]

theorem fieldMembers_congr (kind : ObjectKind) (level : Nat) {attrs attrs' : List (String × Value)}
    (h : List.Forall₂ (fun a b => b.1 = a.1 ∧
      document (.ofField kind b.1) level b.2 =
        document (.ofField kind a.1) level a.2) attrs attrs') :
    fieldMembers kind level attrs' = fieldMembers kind level attrs := by
  induction h with
  | nil => rfl
  | @cons a b attrs attrs' h _ ih =>
    obtain ⟨name, v⟩ := a
    obtain ⟨name', w⟩ := b
    obtain ⟨rfl, hdocument⟩ := h
    rw [fieldMembers, fieldMembers, ih, hdocument]

end Wire

end CredentialWrites
