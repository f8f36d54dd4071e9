import CredentialWrites.Proofs.Json.Decimal

/-!
# Documents that the standard has no text for

The words that some writers have for an infinity and for what is no number are none of the standard.
A text with such a word in the place of a number is refused by the reader, however deep the word
stands, and whatever stands around it.

* `Json.IsForeign` : the words that no document of the standard starts with.
* `Json.reads_of_known` : which documents are read back, and which are refused.
* `Json.exists_read?_write_iff` : the documents whose texts are read at all.
-/

namespace CredentialWrites

namespace Json

/-- The word starts like a number or a letter, and nothing that starts with it is a document. -/
structure IsForeign (word : String) : Prop where
  opens : Opens word.toList
  refused : ∀ fuel rest, value? fuel (word.toList ++ rest) = none

/-- What is a number on its own is no foreign word. -/
theorem IsForeign.not_number {word : String} (h : IsForeign word) {j : Json} {r : List Char} :
    number? word.toList ≠ some (j, r) := by
  intro hnumber
  have hnone := h.refused 1 []
  rw [List.append_nil, value?_number hnumber] at hnone
  cases hnone

/-- A word that is no number and starts with no mark of the standard. -/
theorem isForeign_of_toList {word : String} {c : Char} {tail : List Char}
    (hword : word.toList = c :: tail) (hblank : isBlank c = false)
    (hmarks : c ≠ '"' ∧ c ≠ '[' ∧ c ≠ ']' ∧ c ≠ '\x7b' ∧ c ≠ 'n' ∧ c ≠ 't' ∧ c ≠ 'f')
    (hnumber : ∀ rest, number? (c :: (tail ++ rest)) = none) : IsForeign word := by
  obtain ⟨hquote, hbracket, hclosed, hbrace, hn, ht, hf⟩ := hmarks
  refine ⟨⟨c, tail, hword, hblank, hclosed⟩, fun fuel rest => ?_⟩
  rw [hword, List.cons_append]
  cases fuel with
  | zero => rfl
  | succ fuel =>
    rw [value?, skipBlanks_cons hblank]
    split
    all_goals first
      | exact hnumber rest
      | (rename_i heq; obtain ⟨rfl, -⟩ := List.cons.inj heq; contradiction)

/-- What starts with a letter is no number. -/
theorem number?_letter {c : Char} (hminus : c ≠ '-') (hdigit : c.isDigit = false) (cs : List Char) :
    number? (c :: cs) = none := by
  rw [number?_cons hminus, unsigned?, whole?_cons hdigit]
  rfl

theorem isForeign_nan : IsForeign "NaN" := by
  have hword : "NaN".toList = 'N' :: "aN".toList := by decide
  exact isForeign_of_toList hword rfl (by decide) fun _ => number?_letter (by decide) rfl _

theorem isForeign_infinity : IsForeign "Infinity" := by
  have hword : "Infinity".toList = 'I' :: "nfinity".toList := by decide
  exact isForeign_of_toList hword rfl (by decide) fun _ => number?_letter (by decide) rfl _

theorem isForeign_minusInfinity : IsForeign "-Infinity" := by
  have hword : "-Infinity".toList = '-' :: 'I' :: "nfinity".toList := by decide
  refine isForeign_of_toList hword rfl (by decide) fun rest => ?_
  rw [number?_minus, unsigned?, List.cons_append, whole?_cons rfl]
  rfl

/-- The fragile parts of a document are read back, or are foreign words in the place of numbers. -/
def Known (j : Json) : Prop :=
  ∀ part ∈ j.fragile, part.Standard ∨ ∃ word, part = number word ∧ IsForeign word

/-- A document is refused at every level, whatever ends it. -/
def Refused (style : JsonStyle) (j : Json) : Prop :=
  ∀ level fuel rest, (j.chars style level).length ≤ fuel → EndsNumber rest →
    value? fuel (j.chars style level ++ rest) = none

theorem opens_of_known (style : JsonStyle) (level : Nat) {j : Json} (h : j.Known) :
    Opens (j.chars style level) := by
  cases j with
  | number written =>
    rw [chars]
    obtain h | ⟨_, heq, h⟩ := h (number written) (by simp [fragile])
    · rw [Standard] at h
      exact opens_of_number? h
    · cases heq
      exact h.opens
  | null => exact opens_chars style level (j := null) trivial
  | bool b => exact opens_chars style level (j := bool b) trivial
  | int i => exact opens_chars style level (j := int i) trivial
  | text s => exact opens_chars style level (j := text s) trivial
  | broken ps => exact ⟨_, _, rfl, rfl, by decide⟩
  | array items => cases items <;> exact ⟨_, _, rfl, rfl, by decide⟩
  | object members => cases members <;> exact ⟨_, _, rfl, rfl, by decide⟩

theorem items_known {items : List Json} (h : (array items).Known) : ∀ item ∈ items, item.Known := by
  rw [Known, fragile] at h
  induction items with
  | nil => simp
  | cons item items ih =>
    rw [itemsFragile, List.forall_mem_append] at h
    exact List.forall_mem_cons.2 ⟨h.1, ih h.2⟩

theorem members_known {members : List (String × Json)} (h : (object members).Known) :
    ∀ m ∈ members, m.2.Known := by
  rw [Known, fragile] at h
  induction members with
  | nil => simp
  | cons m members ih =>
    rw [membersFragile, List.forall_mem_append] at h
    exact List.forall_mem_cons.2 ⟨h.1, ih h.2⟩

variable {style : JsonStyle}

theorem reads_false_iff {j : Json} : Reads style false j ↔ Refused style j := by
  simp only [Reads, Refused, Bool.false_eq_true, if_false]

section

open Classical

theorem reads_of_standard (hstyle : style.Standard) {j : Json} (h : j.Standard) :
    Reads style (decide j.Standard) j := by
  rw [decide_eq_true h, reads_true_iff]
  exact value?_chars hstyle j h

mutual

/-- A document whose fragile parts are known is read back if they all are, and refused otherwise. -/
theorem reads_of_known (hstyle : style.Standard) :
    ∀ j : Json, j.Known → Reads style (decide j.Standard) j
  | number written, hknown => by
    obtain h | ⟨_, heq, h⟩ := hknown (number written) (by simp [fragile])
    · exact reads_of_standard hstyle h
    · cases heq
      have hstandard : ¬ (number written).Standard := h.not_number
      rw [decide_eq_false hstandard, reads_false_iff]
      exact fun level fuel rest _ _ => h.refused fuel rest
  | array items, hknown => by
    have hitems := items_known hknown
    have hopens : ∀ item ∈ items, ∀ level, Opens (item.chars style level) :=
      fun item hmem level => opens_of_known style level (hitems item hmem)
    have hstandard : decide (array items).Standard = items.all fun item =>
        decide item.Standard := by
      rw [Bool.eq_iff_iff, decide_eq_true_iff, Standard, itemsStandard_iff]
      simp
    rw [hstandard]
    exact reads_array hstyle _ hopens (items_read_of_known hstyle items hitems)
  | object members, hknown => by
    have hstandard : decide (object members).Standard = members.all fun m =>
        decide m.2.Standard := by
      rw [Bool.eq_iff_iff, decide_eq_true_iff, Standard, membersStandard_iff]
      simp
    rw [hstandard]
    exact reads_object hstyle (fun value => decide value.Standard)
      (members_read_of_known hstyle members (members_known hknown))
  | broken ps, hknown => by
    obtain h | ⟨_, heq, -⟩ := hknown (broken ps) (by simp [fragile])
    · exact reads_of_standard hstyle h
    · cases heq
  | null, _ | bool _, _ | int _, _ | text _, _ => reads_of_standard hstyle trivial

theorem items_read_of_known (hstyle : style.Standard) : ∀ items : List Json,
    (∀ item ∈ items, item.Known) → ∀ item ∈ items, Reads style (decide item.Standard) item
  | [], _ => by simp
  | item :: rest, hknown => by
    rw [List.forall_mem_cons] at hknown ⊢
    exact ⟨reads_of_known hstyle item hknown.1, items_read_of_known hstyle rest hknown.2⟩

theorem members_read_of_known (hstyle : style.Standard) : ∀ members : List (String × Json),
    (∀ m ∈ members, m.2.Known) → ∀ m ∈ members, Reads style (decide m.2.Standard) m.2
  | [], _ => by simp
  | (name, value) :: rest, hknown => by
    rw [List.forall_mem_cons] at hknown ⊢
    exact ⟨reads_of_known hstyle value hknown.1, members_read_of_known hstyle rest hknown.2⟩

end

/-- A document with a foreign word among its numbers is refused. -/
theorem refused_of_known (hstyle : style.Standard) {j : Json} (hknown : j.Known)
    (h : ¬ j.Standard) : Refused style j := by
  have hreads := reads_of_known hstyle j hknown
  rwa [decide_eq_false h, reads_false_iff] at hreads

end

/-- A document whose fragile parts are known is read from its text if they are all of the standard,
and its text is refused otherwise. -/
theorem exists_read?_write_iff (hstyle : style.Standard) {j : Json} (hknown : j.Known) :
    (∃ k, read? (j.write style) = some k) ↔ j.Standard := by
  constructor
  · rintro ⟨k, hk⟩
    by_contra hstandard
    have hrefused := refused_of_known hstyle hknown hstandard 0 (2 * (j.write style).length + 2) []
      (by rw [write, String.length_ofList]; omega) endsNumber_nil
    rw [List.append_nil] at hrefused
    rw [read?, write, String.toList_ofList] at hk
    rw [write] at hrefused
    rw [hrefused] at hk
    cases hk
  · intro hstandard
    exact ⟨j, read?_write hstyle hstandard⟩

end Json

end CredentialWrites
