import CredentialWrites.Proofs.Value.Document

/-!
# Documents of texts

A document whose keys are texts, and whose leaves are texts, whole numbers, truth values and
nothing, can be written down. What it spells is told without the identities of its mappings and
lists, and with every member of a vocabulary as its token, which the member is equal to.

* `Value.isTextDocument` : the documents that can be written down.
* `Value.isWire` : what such a document becomes as part of a payload, and payloads themselves.
* `Value.spelled` : what such a value spells.
-/

namespace CredentialWrites

/-- A member of a vocabulary of texts is told by its token. -/
theorem Member.token_eq_iff {m n : Member} (hm : m.isText) (hn : n.isText) :
    m.token = n.token ↔ m = n := by
  refine ⟨fun h => ?_, fun h => h ▸ rfl⟩
  cases m with
  | logLevel m =>
    cases n with
    | logLevel n => cases m <;> cases n <;> first | rfl | exact absurd h (by decide)
    | logFormat n => cases m <;> cases n <;> exact absurd h (by decide)
    | valueType _ | operation _ | actorType _ | errorCode _ => cases hn
  | logFormat m =>
    cases n with
    | logLevel n => cases m <;> cases n <;> exact absurd h (by decide)
    | logFormat n => cases m <;> cases n <;> first | rfl | exact absurd h (by decide)
    | valueType _ | operation _ | actorType _ | errorCode _ => cases hn
  | valueType _ | operation _ | actorType _ | errorCode _ => cases hm

namespace Value

mutual

/-- The value is nested from mappings with texts as keys, lists, tuples, texts, whole numbers, truth
values and null. -/
def isTextDocument : Value → Bool
  | view es => noneAlike (es.map Prod.fst) && areTextEntries es
  | map _ es => noneAlike (es.map Prod.fst) && areTextEntries es
  | list _ items => areTextDocuments items
  | tuple items => areTextDocuments items
  | null => true
  | bool _ => true
  | int _ => true
  | v => v.text?.isSome

/-- `isTextDocument` for every value of a list. -/
def areTextDocuments : List Value → Bool
  | [] => true
  | v :: vs => isTextDocument v && areTextDocuments vs

/-- The entries of a document of texts. -/
def areTextEntries : List (Value × Value) → Bool
  | [] => true
  | (k, v) :: es => k.text?.isSome && isTextDocument v && areTextEntries es

end

mutual

/-- The value is nested from plain mappings with texts as keys, lists, models, texts, whole numbers,
truth values and null. -/
def isWire : Value → Bool
  | map _ es => noneAlike (es.map Prod.fst) && areWireEntries es
  | list _ items => areWire items
  | object kind _ attrs => kind.isModel && decide (attrs.map Prod.fst).Nodup && areWireAttrs attrs
  | null => true
  | bool _ => true
  | int _ => true
  | v => v.text?.isSome

/-- `isWire` for every value of a list. -/
def areWire : List Value → Bool
  | [] => true
  | v :: vs => isWire v && areWire vs

/-- `isWire` for every value of a mapping, whose keys are texts. -/
def areWireEntries : List (Value × Value) → Bool
  | [] => true
  | (k, v) :: es => k.text?.isSome && isWire v && areWireEntries es

/-- `isWire` for every attribute. -/
def areWireAttrs : List (String × Value) → Bool
  | [] => true
  | (_, v) :: attrs => isWire v && areWireAttrs attrs

end

mutual

/-- What a value spells: mappings and lists have no identities, and the members of a vocabulary of
texts are their tokens. -/
def spelled : Value → Value
  | map _ es => map [] (spelledEntries es)
  | list _ items => list [] (spelledAll items)
  | member m => if m.isText then text m.token else member m
  | v => v

/-- `spelled` for every value of a list. -/
def spelledAll : List Value → List Value
  | [] => []
  | v :: vs => spelled v :: spelledAll vs

/-- `spelled` for every key and value of a mapping. -/
def spelledEntries : List (Value × Value) → List (Value × Value)
  | [] => []
  | (k, v) :: es => (spelled k, spelled v) :: spelledEntries es

end

/-! ### Texts as keys -/

section Texts

variable {a b : Value} {x y : String}

theorem eq_of_text?_eq_some (h : a.text? = some x) :
    a = text x ∨ ∃ m, a = member m ∧ m.isText ∧ m.token = x := by
  cases a with
  | text s => exact .inl (congrArg text (Option.some.inj h))
  | member m =>
    simp only [text?, Option.ite_none_right_eq_some, Option.some.injEq] at h
    exact .inr ⟨m, rfl, h⟩
  | _ => cases h

/-- Texts are the same if their characters are. -/
theorem same_texts (ha : a.text? = some x) (hb : b.text? = some y) : same a b = (x == y) := by
  rw [Bool.eq_iff_iff, beq_iff_eq]
  obtain rfl | ⟨m, rfl, hm, rfl⟩ := eq_of_text?_eq_some ha
  · rw [same, sameAtom, beq_iff_eq, hb, Option.some.injEq, eq_comm]
  · obtain rfl | ⟨n, rfl, hn, rfl⟩ := eq_of_text?_eq_some hb
    · simp [same, sameAtom, hm]
    · rw [same, sameAtom, beq_iff_eq, Member.token_eq_iff hm hn]

/-- Texts are one as keys if their characters are the same. -/
theorem alike_texts (ha : a.text? = some x) (hb : b.text? = some y) : alike a b = (x == y) := by
  have hkey : ∀ {v : Value} {z : String}, v.text? = some z → v.hashKey = v := fun hv => by
    obtain rfl | ⟨m, rfl, -⟩ := eq_of_text?_eq_some hv <;> rfl
  rw [alike, hkey ha, hkey hb, same_texts ha hb, Bool.and_self]

theorem spelled_of_text? (h : a.text? = some x) : a.spelled = text x := by
  obtain rfl | ⟨m, rfl, hm, rfl⟩ := eq_of_text?_eq_some h
  · rfl
  · rw [spelled, if_pos hm]

theorem isKey_of_text? (h : a.text?.isSome) : isKey a := by
  cases a <;> first | rfl | cases h

end Texts

/-! ### Documents of texts are documents -/

mutual

theorem isDocument_of_isTextDocument : ∀ {v : Value}, v.isTextDocument → v.isDocument
  | view es, h | map _ es, h => by
    simp only [isTextDocument, Bool.and_eq_true] at h
    simp only [isDocument, h.1, areDocumentEntries_of_areTextEntries h.2, Bool.and_self]
  | list _ items, h | tuple items, h => by
    rw [isTextDocument] at h
    rw [isDocument]
    exact areDocuments_of_areTextDocuments h
  | null, _ | bool _, _ | int _, _ | text _, _ | member _, _ => rfl
  | float _, h | nan _, h | bytes _, h | frozenSet _, h | record _ _, h | set _ _, h | buffer _ _, h
  | stream _ _, h | fault _ _ _ _, h | object _ _ _, h => by cases h

theorem areDocuments_of_areTextDocuments :
    ∀ {vs : List Value}, areTextDocuments vs → areDocuments vs
  | [], _ => rfl
  | v :: vs, h => by
    simp only [areTextDocuments, Bool.and_eq_true] at h
    simp only [areDocuments, isDocument_of_isTextDocument h.1, areDocuments_of_areTextDocuments h.2,
      Bool.and_self]

theorem areDocumentEntries_of_areTextEntries : ∀ {es : List (Value × Value)}, areTextEntries es →
    areDocumentEntries es
  | [], _ => rfl
  | (k, v) :: es, h => by
    simp only [areTextEntries, Bool.and_eq_true] at h
    simp only [areDocumentEntries, isKey_of_text? h.1.1, isDocument_of_isTextDocument h.1.2,
      areDocumentEntries_of_areTextEntries h.2, Bool.and_self]

end

mutual

/-- Whether a value is a document of texts is told by what it says. -/
theorem isTextDocument_document : ∀ v : Value, v.document.isTextDocument = v.isTextDocument
  | view es | map _ es => by
    simp only [document, isTextDocument, keys_documentEntries, areTextEntries_documentEntries es]
  | list _ items | tuple items => by
    simp only [document, isTextDocument, areTextDocuments_documentAll items]
  | null | bool _ | int _ | float _ | nan _ | text _ | bytes _ | member _ | frozenSet _ | record _ _
  | set _ _ | buffer _ _ | stream _ _ | fault _ _ _ _ | object _ _ _ => rfl

theorem areTextDocuments_documentAll : ∀ vs : List Value,
    areTextDocuments (documentAll vs) = areTextDocuments vs
  | [] => rfl
  | v :: vs => by
    simp only [documentAll, areTextDocuments, isTextDocument_document v,
      areTextDocuments_documentAll vs]

theorem areTextEntries_documentEntries : ∀ es : List (Value × Value),
    areTextEntries (documentEntries es) = areTextEntries es
  | [] => rfl
  | (k, v) :: es => by
    simp only [documentEntries, areTextEntries, isTextDocument_document v,
      areTextEntries_documentEntries es]

end

theorem isTextDocument_of_document_eq {v w : Value} (h : w.document = v.document)
    (hv : v.isTextDocument) : w.isTextDocument := by
  rw [← isTextDocument_document, h, isTextDocument_document]
  exact hv

mutual

/-- A plain document of texts can be part of a payload. -/
theorem isWire_of_isPlain : ∀ {v : Value}, v.isPlain → v.isTextDocument → v.isWire
  | map _ es, hp, h => by
    rw [isPlain] at hp
    simp only [isTextDocument, Bool.and_eq_true] at h
    simp only [isWire, h.1, areWireEntries_of_arePlainEntries hp h.2, Bool.and_self]
  | list _ items, hp, h => by
    rw [isPlain] at hp
    rw [isTextDocument] at h
    rw [isWire]
    exact areWire_of_arePlain hp h
  | null, _, _ | bool _, _, _ | int _, _, _ | text _, _, _ => rfl
  | member _, _, h => h
  | view _, hp, _ | tuple _, hp, _ => by cases hp
  | float _, _, h | nan _, _, h | bytes _, _, h | frozenSet _, _, h | record _ _, _, h
  | set _ _, _, h | buffer _ _, _, h | stream _ _, _, h | fault _ _ _ _, _, h
  | object _ _ _, _, h => by cases h

theorem areWire_of_arePlain : ∀ {vs : List Value}, arePlain vs → areTextDocuments vs → areWire vs
  | [], _, _ => rfl
  | v :: vs, hp, h => by
    simp only [arePlain, Bool.and_eq_true] at hp
    simp only [areTextDocuments, Bool.and_eq_true] at h
    simp only [areWire, isWire_of_isPlain hp.1 h.1, areWire_of_arePlain hp.2 h.2, Bool.and_self]

theorem areWireEntries_of_arePlainEntries : ∀ {es : List (Value × Value)}, arePlainEntries es →
    areTextEntries es → areWireEntries es
  | [], _, _ => rfl
  | (k, v) :: es, hp, h => by
    simp only [arePlainEntries, Bool.and_eq_true] at hp
    simp only [areTextEntries, Bool.and_eq_true] at h
    simp only [areWireEntries, h.1.1, isWire_of_isPlain hp.1 h.1.2,
      areWireEntries_of_arePlainEntries hp.2 h.2, Bool.and_self]

end

mutual

/-- What a plain document spells is told by what it says. -/
theorem spelled_document : ∀ {v : Value}, v.isPlain → v.document.spelled = v.spelled
  | map _ es, h => by
    rw [isPlain] at h
    rw [document, spelled, spelled, spelledEntries_documentEntries h]
  | list _ items, h => by
    rw [isPlain] at h
    rw [document, spelled, spelled, spelledAll_documentAll h]
  | null, _ | bool _, _ | int _, _ | float _, _ | nan _, _ | text _, _ | bytes _, _
  | member _, _ => rfl
  | view _, h | tuple _, h | frozenSet _, h | record _ _, h | set _ _, h | buffer _ _, h
  | stream _ _, h | fault _ _ _ _, h | object _ _ _, h => by cases h

theorem spelledAll_documentAll : ∀ {vs : List Value}, arePlain vs →
    spelledAll (documentAll vs) = spelledAll vs
  | [], _ => rfl
  | v :: vs, h => by
    simp only [arePlain, Bool.and_eq_true] at h
    rw [documentAll, spelledAll, spelledAll, spelled_document h.1, spelledAll_documentAll h.2]

theorem spelledEntries_documentEntries : ∀ {es : List (Value × Value)}, arePlainEntries es →
    spelledEntries (documentEntries es) = spelledEntries es
  | [], _ => rfl
  | (k, v) :: es, h => by
    simp only [arePlainEntries, Bool.and_eq_true] at h
    rw [documentEntries, spelledEntries, spelledEntries, spelled_document h.1,
      spelledEntries_documentEntries h.2]

end

end Value

end CredentialWrites
