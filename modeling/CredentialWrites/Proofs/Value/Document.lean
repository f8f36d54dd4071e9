import CredentialWrites.Proofs.Value.Keys
import CredentialWrites.Value.Snapshot

/-!
# Documents

A document is nested from mappings, lists, tuples and scalars. What it says is told by its keys, its
order and its leaves; which mappings are read-only, and which sequences are tuples, makes no
difference. Freezing and thawing keep what a document says, and thawing makes all of it plain.

* `Value.document` : what a document says, with every mapping plain and every sequence a list.
* `Value.isDocument`, `Value.isPlain` : the values nested like that, and those that are plain
  already.
* `Value.document_of_gives_freeze`, `Value.document_of_gives_thaw` : what copies of a document say.
-/

namespace CredentialWrites

namespace Value

open Making

/-- A value without parts that is its own copy. -/
def isScalar : Value → Bool
  | null => true
  | bool _ => true
  | int _ => true
  | float _ => true
  | nan _ => true
  | text _ => true
  | bytes _ => true
  | member _ => true
  | _ => false

mutual

/-- What a document says, with every mapping plain and every sequence a list. -/
def document : Value → Value
  | view es => map [] (documentEntries es)
  | map _ es => map [] (documentEntries es)
  | list _ items => list [] (documentAll items)
  | tuple items => list [] (documentAll items)
  | v => v

/-- `document` for every value of a list. -/
def documentAll : List Value → List Value
  | [] => []
  | v :: vs => document v :: documentAll vs

/-- `document` for every value of a mapping. -/
def documentEntries : List (Value × Value) → List (Value × Value)
  | [] => []
  | (k, v) :: es => (k, document v) :: documentEntries es

end

mutual

/-- The value is nested from mappings, lists, tuples and scalars. -/
def isDocument : Value → Bool
  | view es => noneAlike (es.map Prod.fst) && areDocumentEntries es
  | map _ es => noneAlike (es.map Prod.fst) && areDocumentEntries es
  | list _ items => areDocuments items
  | tuple items => areDocuments items
  | v => v.isScalar

/-- `isDocument` for every value of a list. -/
def areDocuments : List Value → Bool
  | [] => true
  | v :: vs => isDocument v && areDocuments vs

/-- The entries of a document. -/
def areDocumentEntries : List (Value × Value) → Bool
  | [] => true
  | (k, v) :: es => isKey k && isDocument v && areDocumentEntries es

end

mutual

/-- The value is nested from plain mappings, lists and scalars. -/
def isPlain : Value → Bool
  | map _ es => arePlainEntries es
  | list _ items => arePlain items
  | v => v.isScalar

/-- `isPlain` for every value of a list. -/
def arePlain : List Value → Bool
  | [] => true
  | v :: vs => isPlain v && arePlain vs

/-- `isPlain` for every value of a mapping. -/
def arePlainEntries : List (Value × Value) → Bool
  | [] => true
  | (_, v) :: es => isPlain v && arePlainEntries es

end

/-! ### What a document says -/

theorem keys_documentEntries (es : List (Value × Value)) :
    (documentEntries es).map Prod.fst = es.map Prod.fst := by
  induction es with
  | nil => rfl
  | cons e es ih =>
    rw [documentEntries, List.map_cons, List.map_cons, ih]

theorem document_of_isScalar {v : Value} (h : v.isScalar) : v.document = v := by
  cases v <;> first | rfl | cases h

theorem eq_of_document_eq_scalar {v w : Value} (h : w.document = v.document) (hv : v.isScalar) :
    w = v := by
  rw [document_of_isScalar hv] at h
  subst h
  cases w <;> first | rfl | cases hv

mutual

/-- Whether a value is a document is told by what it says. -/
theorem isDocument_document : ∀ v : Value, v.document.isDocument = v.isDocument
  | view es | map _ es => by
    simp only [document, isDocument, keys_documentEntries, areDocumentEntries_documentEntries es]
  | list _ items | tuple items => by
    simp only [document, isDocument, areDocuments_documentAll items]
  | null | bool _ | int _ | float _ | nan _ | text _ | bytes _ | member _ | frozenSet _ | record _ _
  | set _ _ | buffer _ _ | stream _ _ | fault _ _ _ _ | object _ _ _ => rfl

theorem areDocuments_documentAll :
    ∀ vs : List Value, areDocuments (documentAll vs) = areDocuments vs
  | [] => rfl
  | v :: vs => by
    simp only [documentAll, areDocuments, isDocument_document v, areDocuments_documentAll vs]

theorem areDocumentEntries_documentEntries : ∀ es : List (Value × Value),
    areDocumentEntries (documentEntries es) = areDocumentEntries es
  | [] => rfl
  | (k, v) :: es => by
    simp only [documentEntries, areDocumentEntries, isDocument_document v,
      areDocumentEntries_documentEntries es]

end

theorem isDocument_of_document_eq {v w : Value} (h : w.document = v.document) (hv : v.isDocument) :
    w.isDocument := by
  rw [← isDocument_document, h, isDocument_document]
  exact hv

/-! ### Copies -/

variable {s t : State}

/-- A scalar is its own copy. -/
theorem eq_of_gives_copy {v w : Value} (hv : v.isScalar) (h : (copy v).Gives s w t) : w = v := by
  have hcopy : v.uncopyable? = none ∧ ∀ now : Nat, v.relabel (now :: ·) = v := by
    cases v <;> first | exact ⟨rfl, fun _ => rfl⟩ | cases hv
  simp only [copy, hcopy.1, gives_bind, gives_pure] at h
  obtain ⟨now, -, -, rfl, -⟩ := h
  exact hcopy.2 now

theorem freeze_of_isScalar {v : Value} (hv : v.isScalar) : freeze v = copy v := by
  cases v <;> first | rfl | cases hv

theorem thaw_of_isScalar {v : Value} (hv : v.isScalar) : thaw v = copy v := by
  cases v <;> first | rfl | cases hv

mutual

/-- A frozen document says the same. -/
theorem document_of_gives_freeze : ∀ {v w : Value} {s t : State}, v.isDocument →
    (freeze v).Gives s w t → w.document = v.document
  | view es, w, s, t, hv, h | map _ es, w, s, t, hv, h => by
    simp only [isDocument, Bool.and_eq_true] at hv
    simp only [freeze, gives_bind, gives_pure] at h
    obtain ⟨es', u, hes, rfl, -⟩ := h
    rw [document, document, documentEntries_of_gives_freezeEntries hv.2 hes]
  | list _ items, w, s, t, hv, h | tuple items, w, s, t, hv, h => by
    rw [isDocument] at hv
    simp only [freeze, gives_bind, gives_pure] at h
    obtain ⟨items', u, hitems, rfl, -⟩ := h
    rw [document, document, documentAll_of_gives_freezeAll hv hitems]
  | null, w, s, t, hv, h | bool _, w, s, t, hv, h | int _, w, s, t, hv, h | float _, w, s, t, hv, h
  | nan _, w, s, t, hv, h | text _, w, s, t, hv, h | bytes _, w, s, t, hv, h
  | member _, w, s, t, hv, h => by
    -- nothing else is left to freeze, and a scalar is its own copy
    rw [freeze_of_isScalar rfl] at h
    rw [eq_of_gives_copy rfl h]
  | frozenSet _, w, s, t, hv, h | record _ _, w, s, t, hv, h | set _ _, w, s, t, hv, h
  | buffer _ _, w, s, t, hv, h | stream _ _, w, s, t, hv, h | fault _ _ _ _, w, s, t, hv, h
  | object _ _ _, w, s, t, hv, h => by cases hv

theorem documentAll_of_gives_freezeAll : ∀ {vs ws : List Value} {s t : State}, areDocuments vs →
    (freezeAll vs).Gives s ws t → documentAll ws = documentAll vs
  | [], ws, s, t, _, h => by
    simp only [freezeAll, gives_pure] at h
    rw [← h.1]
  | v :: vs, ws, s, t, hv, h => by
    simp only [areDocuments, Bool.and_eq_true] at hv
    simp only [freezeAll, gives_bind, gives_pure] at h
    obtain ⟨w, u, hw, ws, u', hws, rfl, -⟩ := h
    rw [documentAll, documentAll, document_of_gives_freeze hv.1 hw,
      documentAll_of_gives_freezeAll hv.2 hws]

theorem documentEntries_of_gives_freezeEntries : ∀ {es es' : List (Value × Value)} {s t : State},
    areDocumentEntries es → (freezeEntries es).Gives s es' t →
      documentEntries es' = documentEntries es
  | [], es', s, t, _, h => by
    simp only [freezeEntries, gives_pure] at h
    rw [← h.1]
  | (k, v) :: es, es', s, t, hv, h => by
    simp only [areDocumentEntries, Bool.and_eq_true] at hv
    simp only [freezeEntries, gives_bind, gives_pure] at h
    obtain ⟨w, u, hw, es'', u', hes, rfl, -⟩ := h
    rw [documentEntries, documentEntries, document_of_gives_freeze hv.1.2 hw,
      documentEntries_of_gives_freezeEntries hv.2 hes]

end

/-- What freezes a mapping freezes it like any other value. -/
theorem gives_freeze_of_gives_freezeMapping {v w : Value} (h : (freezeMapping v).Gives s w t) :
    (freeze v).Gives s w t := by
  cases hes : v.entries? with
  | none =>
    rw [freezeMapping, hes] at h
    exact absurd h not_gives_fail
  | some es =>
    have heq : freezeMapping v = freeze v := by
      cases v <;> first | rfl | cases hes
    rwa [heq] at h

theorem document_of_gives_freezeMapping {v w : Value} (hv : v.isDocument)
    (h : (freezeMapping v).Gives s w t) : w.document = v.document :=
  document_of_gives_freeze hv (gives_freeze_of_gives_freezeMapping h)

mutual

/-- A thawed document says the same, and is plain. -/
theorem document_of_gives_thaw : ∀ {v w : Value} {s t : State}, v.isDocument →
    (thaw v).Gives s w t → w.document = v.document ∧ w.isPlain
  | view es, w, s, t, hv, h | map _ es, w, s, t, hv, h => by
    simp only [isDocument, Bool.and_eq_true] at hv
    simp only [thaw, gives_bind] at h
    -- the mapping is a new one, but what it says does not depend on where it is
    obtain ⟨es', u, hes, h⟩ := h
    obtain ⟨c, rfl⟩ := eq_of_gives_map h
    obtain ⟨hes', hplain⟩ := documentEntries_of_gives_thawEntries hv.2 hes
    rw [document, document, hes', isPlain]
    exact ⟨rfl, hplain⟩
  | list _ items, w, s, t, hv, h | tuple items, w, s, t, hv, h => by
    rw [isDocument] at hv
    simp only [thaw, gives_bind] at h
    obtain ⟨items', u, hitems, h⟩ := h
    obtain ⟨c, rfl⟩ := eq_of_gives_list h
    obtain ⟨hitems', hplain⟩ := documentAll_of_gives_thawAll hv hitems
    rw [document, document, hitems', isPlain]
    exact ⟨rfl, hplain⟩
  | null, w, s, t, hv, h | bool _, w, s, t, hv, h | int _, w, s, t, hv, h | float _, w, s, t, hv, h
  | nan _, w, s, t, hv, h | text _, w, s, t, hv, h | bytes _, w, s, t, hv, h
  | member _, w, s, t, hv, h => by
    rw [thaw_of_isScalar rfl] at h
    rw [eq_of_gives_copy rfl h]
    exact ⟨rfl, rfl⟩
  | frozenSet _, w, s, t, hv, h | record _ _, w, s, t, hv, h | set _ _, w, s, t, hv, h
  | buffer _ _, w, s, t, hv, h | stream _ _, w, s, t, hv, h | fault _ _ _ _, w, s, t, hv, h
  | object _ _ _, w, s, t, hv, h => by cases hv

theorem documentAll_of_gives_thawAll : ∀ {vs ws : List Value} {s t : State}, areDocuments vs →
    (thawAll vs).Gives s ws t → documentAll ws = documentAll vs ∧ arePlain ws
  | [], ws, s, t, _, h => by
    simp only [thawAll, gives_pure] at h
    rw [← h.1]
    exact ⟨rfl, rfl⟩
  | v :: vs, ws, s, t, hv, h => by
    simp only [areDocuments, Bool.and_eq_true] at hv
    simp only [thawAll, gives_bind, gives_pure] at h
    obtain ⟨w, u, hw, ws, u', hws, rfl, -⟩ := h
    obtain ⟨hw', hplain⟩ := document_of_gives_thaw hv.1 hw
    obtain ⟨hws', hplains⟩ := documentAll_of_gives_thawAll hv.2 hws
    simp only [documentAll, arePlain, hw', hws', hplain, hplains, Bool.and_self, and_self]

theorem documentEntries_of_gives_thawEntries : ∀ {es es' : List (Value × Value)} {s t : State},
    areDocumentEntries es → (thawEntries es).Gives s es' t →
    documentEntries es' = documentEntries es ∧ arePlainEntries es'
  | [], es', s, t, _, h => by
    simp only [thawEntries, gives_pure] at h
    rw [← h.1]
    exact ⟨rfl, rfl⟩
  | (k, v) :: es, es', s, t, hv, h => by
    simp only [areDocumentEntries, Bool.and_eq_true] at hv
    simp only [thawEntries, gives_bind, gives_pure] at h
    obtain ⟨w, u, hw, es'', u', hes, rfl, -⟩ := h
    obtain ⟨hw', hplain⟩ := document_of_gives_thaw hv.1.2 hw
    obtain ⟨hes', hplains⟩ := documentEntries_of_gives_thawEntries hv.2 hes
    simp only [documentEntries, arePlainEntries, hw', hes', hplain, hplains,
      Bool.and_self, and_self]

end

end Value

end CredentialWrites
