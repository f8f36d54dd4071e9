import CredentialWrites.Proofs.Value.Canonical

/-!
# Outlines of documents

A plain document is what it says, but for the identities of its containers: its outline is its
document. So two plain documents that say the same have one outline. Every document can be thawed,
at all times.

* `Value.outline_of_isPlain` : the outline of a plain document.
* `Value.always_thaw` : documents can be thawed.
-/

namespace CredentialWrites

open Making

namespace Making

theorem always_lift {α : Type} {e : Except Fault α} {a : α} (h : e = .ok a) :
    (liftM e : Making α).Always (· = a) :=
  fun s => ⟨a, s, gives_lift.2 ⟨h, rfl⟩, rfl⟩

theorem always_object (kind : ObjectKind) (attrs : List (String × Value)) :
    (object kind attrs).Always fun v => ∃ c, v = .object kind c attrs :=
  fun s => ⟨.object kind [s.moment] attrs, _, rfl, [s.moment], rfl⟩

end Making

namespace Value

theorem outline_map (c : Cell) (es : List (Value × Value)) :
    (map c es).outline = map [] (reshapeEntries .kept es) := rfl

theorem outline_view (es : List (Value × Value)) :
    (view es).outline = view (reshapeEntries .kept es) := rfl

theorem outline_list (c : Cell) (items : List Value) :
    (list c items).outline = list [] (reshapeAll .kept items) :=
  rfl

theorem outline_tuple (items : List Value) :
    (tuple items).outline = tuple (reshapeAll .kept items) := rfl

theorem outline_set (c : Cell) (items : List Value) : (set c items).outline = set [] items := rfl

theorem outline_buffer (c : Cell) (bs : List UInt8) : (buffer c bs).outline = buffer [] bs := rfl

mutual

/-- A plain document is what it says, but for the identities of its containers. -/
theorem outline_of_isPlain : ∀ {v : Value}, v.isPlain → v.outline = v.document
  | map _ es, h => by
    rw [isPlain] at h
    rw [outline_map, document, reshapeEntries_of_arePlainEntries h]
  | list _ items, h => by
    rw [isPlain] at h
    rw [outline_list, document, reshapeAll_of_arePlain h]
  | null, _ | bool _, _ | int _, _ | float _, _ | nan _, _ | text _, _ | bytes _, _
  | member _, _ => rfl
  | view _, h | tuple _, h | frozenSet _, h | record _ _, h | set _ _, h | buffer _ _, h
  | stream _ _, h | fault _ _ _ _, h | object _ _ _, h => by cases h

theorem reshapeAll_of_arePlain :
    ∀ {vs : List Value}, arePlain vs → reshapeAll .kept vs = documentAll vs
  | [], _ => rfl
  | v :: vs, h => by
    simp only [arePlain, Bool.and_eq_true] at h
    rw [reshapeAll, documentAll, reshapeAll_of_arePlain h.2, ← outline_of_isPlain h.1, outline]

theorem reshapeEntries_of_arePlainEntries : ∀ {es : List (Value × Value)}, arePlainEntries es →
    reshapeEntries .kept es = documentEntries es
  | [], _ => rfl
  | (k, v) :: es, h => by
    simp only [arePlainEntries, Bool.and_eq_true] at h
    rw [reshapeEntries, documentEntries, reshapeEntries_of_arePlainEntries h.2,
      ← outline_of_isPlain h.1, outline]

end

theorem outline_eq_of_document_eq {v w : Value} (hv : v.isPlain) (hw : w.isPlain)
    (h : w.document = v.document) : w.outline = v.outline := by
  rw [outline_of_isPlain hw, h, outline_of_isPlain hv]

mutual

/-- A document can be thawed. -/
theorem always_thaw : ∀ {v : Value}, v.isDocument → (thaw v).Always fun _ => True
  | view es, hv | map _ es, hv => by
    simp only [isDocument, Bool.and_eq_true] at hv
    rw [thaw]
    exact (always_thawEntries hv.2).bind fun es _ => (always_map es).mono fun _ _ => trivial
  | list _ items, hv | tuple items, hv => by
    rw [isDocument] at hv
    rw [thaw]
    exact (always_thawAll hv).bind fun vs _ => (always_list vs).mono fun _ _ => trivial
  | null, hv | bool _, hv | int _, hv | float _, hv | nan _, hv | text _, hv | bytes _, hv
  | member _, hv => by
    rw [thaw_of_isScalar rfl]
    exact (always_copy_of_isScalar rfl .thawed).mono fun _ _ => trivial
  | frozenSet _, hv | record _ _, hv | set _ _, hv | buffer _ _, hv | stream _ _, hv
  | fault _ _ _ _, hv | object _ _ _, hv => by cases hv

theorem always_thawAll : ∀ {vs : List Value}, areDocuments vs → (thawAll vs).Always fun _ => True
  | [], _ => always_pure trivial
  | v :: vs, hv => by
    simp only [areDocuments, Bool.and_eq_true] at hv
    rw [thawAll]
    exact (always_thaw hv.1).bind fun _ _ => (always_thawAll hv.2).bind fun _ _ =>
      always_pure trivial

theorem always_thawEntries : ∀ {es : List (Value × Value)}, areDocumentEntries es →
    (thawEntries es).Always fun _ => True
  | [], _ => always_pure trivial
  | (k, v) :: es, hv => by
    simp only [areDocumentEntries, Bool.and_eq_true] at hv
    rw [thawEntries]
    exact (always_thaw hv.1.2).bind fun _ _ => (always_thawEntries hv.2).bind fun _ _ =>
      always_pure trivial

end

end Value

end CredentialWrites
