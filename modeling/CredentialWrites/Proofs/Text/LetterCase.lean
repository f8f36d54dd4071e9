import CredentialWrites.Text.Case
import Mathlib

/-!
# Letter case and the basic alphabet

The case forms of a text know the letters of every script. On the characters of the basic alphabet,
those below 128, they are `Char.toLower` and `Char.toUpper`, which know no other letters. Of the
characters outside of it, most have their forms outside too, and the tables are checked for the few
that have not: the Kelvin sign, of which the lower-case form is a `k`; the dotless i and the long s,
of which the upper-case forms are an `I` and an `S`; and the sharp s and the ligatures, of which the
upper-case forms are several letters.

So a text whose lower-case form is a word of the basic alphabet without a `k` is that word but for
the case of its letters. For upper-case forms there is the dotless i to be reckoned with, which
counts as an i there.

* `Text.SameLetters` : texts that differ in the case of basic letters alone.
* `Text.lower_eq_iff`, `Text.upper_eq_iff` : the texts with a given lower-case or upper-case form.
* `Text.find?_lower_eq_some_iff`, `Text.find?_upper_eq_some_iff` : the texts that find a member of a
  vocabulary.
-/

namespace CredentialWrites

namespace Text

variable {c d : Char} {cs ts : List Char}

/-- The texts differ at most in the case of letters of the basic alphabet. -/
def SameLetters (cs ts : List Char) : Prop :=
  List.Forall₂ (fun c d => c.toLower = d.toLower) cs ts

instance (cs ts : List Char) : Decidable (SameLetters cs ts) :=
  inferInstanceAs (Decidable (List.Forall₂ (fun c d => c.toLower = d.toLower) cs ts))

theorem toLower_of_outside (h : c.toNat < 65 ∨ 90 < c.toNat) : c.toLower = c := by
  refine Char.toLower_eq_of_not_isUpper fun hupper => ?_
  simp only [Char.isUpper, UInt32.le_iff_toNat_le, ge_iff_le, decide_eq_true_eq] at hupper
  obtain ⟨hle, hle'⟩ : 65 ≤ c.toNat ∧ c.toNat ≤ 90 := hupper
  omega

theorem toLower_of_not_ascii (h : 128 ≤ c.toNat) : c.toLower = c :=
  toLower_of_outside (by omega)

theorem toUpper_of_not_ascii (h : 128 ≤ c.toNat) : c.toUpper = c := by
  refine Char.toUpper_eq_of_not_isLower fun hlower => ?_
  simp only [Char.isLower, UInt32.le_iff_toNat_le, ge_iff_le, Bool.and_eq_true, decide_eq_true_eq]
    at hlower
  have hle : c.toNat ≤ 122 := hlower.2
  omega

/-- A property of all characters of the basic alphabet can be checked on their numbers. -/
theorem forall_ascii {p : Char → Prop} (h : ∀ n < 128, p (Char.ofNat n))
    (hc : c.toNat < 128) : p c := by
  have hp := h c.toNat hc
  rwa [Char.ofNat_toNat] at hp

/-- A letter of the basic alphabet is no other character in any case. -/
theorem ascii_of_toLower_eq (h : c.toLower = d.toLower) (hd : d.toNat < 128) : c.toNat < 128 := by
  by_contra hc
  rw [not_lt] at hc
  have hlower : d.toLower.toNat < 128 :=
    forall_ascii (p := fun d => d.toLower.toNat < 128) (by decide) hd
  rw [← h, toLower_of_not_ascii hc] at hlower
  omega

/-- What is true of all letters of a text in any case is true of all characters of the texts with
its letters. -/
theorem SameLetters.forall {p : Char → Prop} (h : SameLetters cs ts)
    (hts : ∀ d ∈ ts, ∀ c : Char, c.toLower = d.toLower → p c) : ∀ c ∈ cs, p c := by
  induction h with
  | nil => simp
  | cons hcd _ ih =>
    rw [List.forall_mem_cons] at hts ⊢
    exact ⟨hts.1 _ hcd, ih hts.2⟩

theorem SameLetters.ascii (h : SameLetters cs ts) (hts : ∀ d ∈ ts, d.toNat < 128) :
    ∀ c ∈ cs, c.toNat < 128 :=
  h.forall fun d hd _ hcd => ascii_of_toLower_eq hcd (hts d hd)

/-! ### The tables -/

/-- The run moves its characters to places outside the basic alphabet. -/
def CaseRun.IsForeign (r : CaseRun) : Prop :=
  128 ≤ r.first + r.shift ∧ (r.last + r.shift < 0xD800 ∨
    0xDFFF < r.first + r.shift ∧ r.last + r.shift < 0x110000)

instance (r : CaseRun) : Decidable r.IsForeign :=
  inferInstanceAs (Decidable (_ ∧ _))

theorem CaseRun.le_of_contains {r : CaseRun} (h : r.contains c = true) :
    r.first ≤ c.toNat ∧ c.toNat ≤ r.last := by
  simp only [contains, Bool.and_eq_true, decide_eq_true_eq] at h
  exact h.1

/-- A run of one code point is of one character. -/
theorem CaseRun.eq_of_contains {r : CaseRun} (h : r.contains c = true) (hr : r.first = d.toNat)
    (hr' : r.last = d.toNat) : c = d := by
  obtain ⟨hfirst, hlast⟩ := le_of_contains h
  exact Char.toNat_inj.1 (by omega)

theorem CaseRun.IsForeign.le_image {r : CaseRun} (h : r.IsForeign) (hc : r.contains c = true) :
    128 ≤ (r.image c).toNat := by
  obtain ⟨hfirst, hlast⟩ := le_of_contains hc
  obtain ⟨hlow, hvalid⟩ := h
  have hchar : (((c.toNat : Int) + r.shift).toNat).isValidChar := by
    unfold Nat.isValidChar
    omega
  rw [image, Char.toNat_ofNat, if_pos hchar]
  omega

section Images

variable {runs : List CaseRun} {expansions : List (Nat × List Nat)}

/-- The image of a character is found in one of the tables, or it is the character. -/
theorem caseImage_cases (runs : List CaseRun) (expansions : List (Nat × List Nat)) (c : Char) :
    (∃ e ∈ expansions, caseImage runs expansions c = e.2.map Char.ofNat) ∨
      (∃ r ∈ runs, r.contains c = true ∧ caseImage runs expansions c = [r.image c]) ∨
        caseImage runs expansions c = [c] := by
  unfold caseImage
  split
  · rename_i image hlookup
    obtain ⟨l, l', rfl, -⟩ := List.lookup_eq_some_iff.1 hlookup
    exact .inl ⟨_, List.mem_append_right _ List.mem_cons_self, rfl⟩
  · split
    · rename_i r hfind
      have hcontains := List.find?_some (p := fun r : CaseRun => r.contains c) hfind
      exact .inr (.inl ⟨r, List.mem_of_find?_eq_some hfind, hcontains, rfl⟩)
    · exact .inr (.inr rfl)

/-- Only the first run is of the basic alphabet. -/
theorem caseImage_of_ascii {r : CaseRun} (hexpansions : ∀ e ∈ expansions, 128 ≤ e.1)
    (hruns : ∀ r ∈ runs, 128 ≤ r.first) (hc : c.toNat < 128) :
    caseImage (r :: runs) expansions c = caseImage [r] [] c := by
  have hlookup : expansions.lookup c.toNat = none := by
    rw [List.lookup_eq_none_iff]
    intro e he
    have hle := hexpansions e he
    have hne : c.toNat ≠ e.1 := by omega
    simpa using hne
  have hfind : runs.find? (·.contains c) = none := by
    rw [List.find?_eq_none]
    intro r hr hcontains
    have hle := hruns r hr
    have hfirst := (CaseRun.le_of_contains hcontains).1
    omega
  unfold caseImage
  rw [hlookup, List.lookup_nil, List.find?_cons, List.find?_cons, hfind, List.find?_nil]

/-- Only a run brings a single character from outside the basic alphabet into it. -/
theorem exists_run_of_caseImage (hlength : ∀ e ∈ expansions, e.2.length ≠ 1)
    (h : caseImage runs expansions c = [d]) (hc : 128 ≤ c.toNat) (hd : d.toNat < 128) :
    ∃ r ∈ runs, r.contains c = true ∧ r.image c = d ∧ ¬ r.last < 128 ∧ ¬ r.IsForeign := by
  rcases caseImage_cases runs expansions c with
    ⟨e, he, himage⟩ | ⟨r, hr, hcontains, himage⟩ | himage
  · have hone := congrArg List.length (himage.symm.trans h)
    exact absurd (by simpa using hone) (hlength e he)
  · obtain rfl := List.singleton_inj.1 (himage.symm.trans h)
    have hlast := (CaseRun.le_of_contains hcontains).2
    refine ⟨r, hr, hcontains, rfl, by omega, fun hforeign => ?_⟩
    exact absurd (hforeign.le_image hcontains) (by omega)
  · obtain rfl := List.singleton_inj.1 (himage.symm.trans h)
    omega

end Images

theorem lowerRuns_foreign :
    ∀ r ∈ lowerRuns, r.last < 128 ∨ r = ⟨0x212A, 0x212A, 1, -8383⟩ ∨ r.IsForeign := by
  decide +kernel

theorem upperRuns_foreign :
    ∀ r ∈ upperRuns, r.last < 128 ∨ r = ⟨0x131, 0x131, 1, -232⟩ ∨ r = ⟨0x17F, 0x17F, 1, -300⟩ ∨
      r.IsForeign := by
  decide +kernel

theorem lowerChar_of_ascii (h : c.toNat < 128) : lowerChar c = [c.toLower] := by
  have htable : lowerChar c = caseImage (⟨0x41, 0x5A, 1, 32⟩ :: lowerRuns.tail) lowerExpansions c :=
    rfl
  rw [htable, caseImage_of_ascii (by decide) (by decide +kernel) h]
  exact forall_ascii (p := fun c => caseImage [⟨0x41, 0x5A, 1, 32⟩] [] c = [c.toLower])
    (by decide +kernel) h

theorem upperChar_of_ascii (h : c.toNat < 128) : upperChar c = [c.toUpper] := by
  have htable : upperChar c = caseImage (⟨0x61, 0x7A, 1, -32⟩ :: upperRuns.tail)
      upperExpansions c := rfl
  rw [htable, caseImage_of_ascii (by decide +kernel) (by decide +kernel) h]
  exact forall_ascii (p := fun c => caseImage [⟨0x61, 0x7A, 1, -32⟩] [] c = [c.toUpper])
    (by decide +kernel) h

/-- The characters of which the lower-case form is a given basic letter, unless that is a `k`. -/
theorem lowerChar_eq_singleton_iff (hd : d.toNat < 128) (hk : d ≠ 'k') :
    lowerChar c = [d] ↔ c.toLower = d := by
  by_cases hc : c.toNat < 128
  · simp [lowerChar_of_ascii hc]
  rw [not_lt] at hc
  constructor
  · intro h
    have hlength : ∀ e ∈ lowerExpansions, e.2.length ≠ 1 := by decide
    obtain ⟨r, hr, hcontains, rfl, hlast, hforeign⟩ := exists_run_of_caseImage hlength h hc hd
    rcases lowerRuns_foreign r hr with hbasic | rfl | hforeign'
    · exact absurd hbasic hlast
    · obtain rfl := CaseRun.eq_of_contains (d := '\u212a') hcontains rfl rfl
      exact absurd (by decide) hk
    · exact absurd hforeign' hforeign
  · intro h
    rw [toLower_of_not_ascii hc] at h
    exact absurd (h ▸ hd) (by omega)

/-- The letter with its dot, if it is a dotless i. -/
def withDot (c : Char) : Char :=
  if c = 'ı' then 'i' else c

theorem withDot_of_ne (h : c ≠ 'ı') : withDot c = c :=
  if_neg h

/-- The characters of which the upper-case form is a given basic letter, unless that is an `S`. -/
theorem upperChar_eq_singleton_iff (hd : d.toNat < 128) (hS : d ≠ 'S') :
    upperChar c = [d] ↔ (withDot c).toUpper = d := by
  by_cases hdotless : c = 'ı'
  · subst hdotless
    have hform : upperChar 'ı' = ['I'] := by decide +kernel
    rw [hform, List.singleton_inj]
    rfl
  rw [withDot_of_ne hdotless]
  by_cases hc : c.toNat < 128
  · simp [upperChar_of_ascii hc]
  rw [not_lt] at hc
  constructor
  · intro h
    have hlength : ∀ e ∈ upperExpansions, e.2.length ≠ 1 := by decide +kernel
    obtain ⟨r, hr, hcontains, rfl, hlast, hforeign⟩ := exists_run_of_caseImage hlength h hc hd
    rcases upperRuns_foreign r hr with hbasic | rfl | rfl | hforeign'
    · exact absurd hbasic hlast
    · exact absurd (CaseRun.eq_of_contains hcontains rfl rfl) hdotless
    · obtain rfl := CaseRun.eq_of_contains (d := 'ſ') hcontains rfl rfl
      exact absurd (by decide) hS
    · exact absurd hforeign' hforeign
  · intro h
    rw [toUpper_of_not_ascii hc] at h
    exact absurd (h ▸ hd) (by omega)

/-! ### Texts -/

/-- A text is made of the images of characters one by one, if no image that is a part of it is made
of several characters or of none. -/
theorem flatMap_eq_iff_forall₂ {f : Char → List Char} (h : ∀ c, f c <:+: ts → ∃ d, f c = [d]) :
    cs.flatMap f = ts ↔ List.Forall₂ (fun c d => f c = [d]) cs ts := by
  constructor
  · rintro rfl
    induction cs with
    | nil => exact .nil
    | cons c cs ih =>
      rw [List.flatMap_cons] at h ⊢
      obtain ⟨d, hd⟩ := h c (List.prefix_append _ _).isInfix
      rw [hd, List.singleton_append]
      exact .cons hd (ih fun c hc => h c (hc.trans (List.suffix_append _ _).isInfix))
  · intro hcs
    clear h
    induction hcs with
    | nil => rfl
    | cons hcd _ ih => rw [List.flatMap_cons, hcd, ih, List.singleton_append]

/-- The place in the word matters for the capital sigma only. -/
theorem lowerFrom_eq_flatMap {before : List Char} (h : 'Σ' ∉ cs) :
    lowerFrom before cs = cs.flatMap lowerChar := by
  induction cs generalizing before with
  | nil => rfl
  | cons c cs ih =>
    rw [List.mem_cons, not_or] at h
    rw [lowerFrom, if_neg (Ne.symm h.1), ih h.2, List.flatMap_cons]

/-- Both small sigmas lie outside the basic alphabet. -/
theorem exists_foreign_of_sigma (before : List Char) (h : 'Σ' ∈ cs) :
    ∃ d ∈ lowerFrom before cs, 128 ≤ d.toNat := by
  induction cs generalizing before with
  | nil => cases h
  | cons c cs ih =>
    rw [lowerFrom]
    by_cases hc : c = 'Σ'
    · rw [if_pos hc]
      refine ⟨_, List.mem_append_left _ List.mem_cons_self, ?_⟩
      split <;> decide
    · have hcs : 'Σ' ∈ cs := (List.mem_cons.1 h).resolve_left (Ne.symm hc)
      obtain ⟨d, hd, hforeign⟩ := ih (c :: before) hcs
      exact ⟨d, List.mem_append_right _ hd, hforeign⟩

/-- An image that lies in a text of the basic alphabet is a single character, unless it is one of
the longer images. -/
theorem exists_singleton_of_isInfix {runs : List CaseRun} {expansions : List (Nat × List Nat)}
    (h : ∀ e ∈ expansions, ¬ e.2.map Char.ofNat <:+: ts)
    (hc : caseImage runs expansions c <:+: ts) :
    ∃ d, caseImage runs expansions c = [d] := by
  rcases caseImage_cases runs expansions c with ⟨e, he, himage⟩ | ⟨r, -, -, himage⟩ | himage
  · exact absurd (himage ▸ hc) (h e he)
  · exact ⟨_, himage⟩
  · exact ⟨_, himage⟩

theorem forall₂_congr_of_mem {p q : Char → Char → Prop} (h : ∀ d ∈ ts, ∀ c, p c d ↔ q c d) :
    List.Forall₂ p cs ts ↔ List.Forall₂ q cs ts := by
  have himp {p q : Char → Char → Prop} (h : ∀ d ∈ ts, ∀ c, p c d → q c d)
      (hp : List.Forall₂ p cs ts) : List.Forall₂ q cs ts :=
    (((List.forall₂_and_left ts cs).2 ⟨h, hp.flip⟩).imp fun _ c hd => hd.1 c hd.2).flip
  exact ⟨himp fun d hd c => (h d hd c).1, himp fun d hd c => (h d hd c).2⟩

/-- A word of basic characters, none of them a capital letter, and none the lower-case form of a
character from outside the basic alphabet, as `k` is of the Kelvin sign. -/
def IsLowerWord (t : String) : Prop :=
  ∀ d ∈ t.toList, (d.toNat < 128 ∧ d ≠ 'k') ∧ d.toLower = d

instance (t : String) : Decidable (IsLowerWord t) :=
  decidable_of_iff (t.toList.all fun d => (d.toNat < 128 ∧ d ≠ 'k') ∧ d.toLower = d)
    (by simp [IsLowerWord])

/-- A word of basic characters, none of them a small letter, and none the upper-case form of a
character from outside the basic alphabet, a dotless i apart. No ligature is spelled out in it. -/
structure IsUpperWord (t : String) : Prop where
  basic : ∀ d ∈ t.toList, (d.toNat < 128 ∧ d ≠ 'S') ∧ d.toUpper = d
  unligated : ∀ e ∈ upperExpansions, ¬ e.2.map Char.ofNat <:+: t.toList

instance (t : String) : Decidable (IsUpperWord t) :=
  decidable_of_iff ((t.toList.all fun d => (d.toNat < 128 ∧ d ≠ 'S') ∧ d.toUpper = d) ∧
      ∀ e ∈ upperExpansions, ¬ e.2.map Char.ofNat <:+: t.toList)
    ⟨fun h => ⟨by simpa using h.1, h.2⟩, fun h => ⟨by simpa using h.basic, h.unligated⟩⟩

/-- **The texts with a given lower-case form** are that word but for the case of its letters. -/
theorem lower_eq_iff {s t : String} (ht : IsLowerWord t) :
    lower s = t ↔ SameLetters s.toList t.toList := by
  have hchars : List.Forall₂ (fun c d => lowerChar c = [d]) s.toList t.toList ↔
      SameLetters s.toList t.toList :=
    forall₂_congr_of_mem fun d hd c => by
      obtain ⟨⟨hascii, hk⟩, hlower⟩ := ht d hd
      rw [lowerChar_eq_singleton_iff hascii hk, hlower]
  rw [lower, ← String.toList_inj, String.toList_ofList, ← hchars]
  by_cases hsigma : 'Σ' ∈ s.toList
  · -- neither form of the sigma is in the word, and it is no letter of it in another case
    obtain ⟨d, hd, hforeign⟩ := exists_foreign_of_sigma [] hsigma
    refine iff_of_false (fun h => ?_) fun h => ?_
    · exact absurd (ht d (h ▸ hd)).1.1 (by omega)
    · exact absurd ((hchars.1 h).ascii (fun d hd => (ht d hd).1.1) 'Σ' hsigma) (by decide)
  · rw [lowerFrom_eq_flatMap hsigma]
    refine flatMap_eq_iff_forall₂ fun c => exists_singleton_of_isInfix fun e he hpart => ?_
    have hdot : ∀ e ∈ lowerExpansions, '\u0307' ∈ e.2.map Char.ofNat := by decide
    exact absurd (ht _ (hpart.subset (hdot e he))).1.1 (by decide)

/-- **The texts with a given upper-case form** are that word but for the case of its letters and for
the dots of its i's. -/
theorem upper_eq_iff {s t : String} (ht : IsUpperWord t) :
    upper s = t ↔ SameLetters (s.toList.map withDot) t.toList := by
  have hcase {c d : Char} (hd : d.toUpper = d) : c.toUpper = d ↔ c.toLower = d.toLower := by
    constructor
    · rintro rfl
      simp
    · intro h
      rw [← Char.toUpper_toLower_eq_toUpper, h, Char.toUpper_toLower_eq_toUpper, hd]
  have hchars : List.Forall₂ (fun c d => upperChar c = [d]) s.toList t.toList ↔
      SameLetters (s.toList.map withDot) t.toList := by
    rw [SameLetters, List.forall₂_map_left_iff]
    refine forall₂_congr_of_mem fun d hd c => ?_
    obtain ⟨⟨hascii, hS⟩, hupper⟩ := ht.basic d hd
    rw [upperChar_eq_singleton_iff hascii hS, hcase hupper]
  rw [upper, ← String.toList_inj, String.toList_ofList, ← hchars]
  exact flatMap_eq_iff_forall₂ fun c => exists_singleton_of_isInfix ht.unligated

/-! ### Vocabularies -/

section Vocabularies

variable {α : Type} {all : List α} {token : α → String} {a : α} {s : String}

/-- The member with a token is found by it, if no two members share one. -/
theorem find?_token_eq_some_iff (hnodup : (all.map token).Nodup) :
    all.find? (token · = s) = some a ↔ a ∈ all ∧ s = token a := by
  constructor
  · intro h
    have htoken : token a = s := by simpa using List.find?_some h
    exact ⟨List.mem_of_find?_eq_some h, htoken.symm⟩
  · rintro ⟨ha, rfl⟩
    obtain ⟨b, hb⟩ : ∃ b, all.find? (token · = token a) = some b :=
      Option.isSome_iff_exists.1 (List.find?_isSome.2 ⟨a, ha, by simp⟩)
    have htoken : token b = token a := by simpa using List.find?_some hb
    rw [hb, List.inj_on_of_nodup_map hnodup (List.mem_of_find?_eq_some hb) ha htoken]

theorem find?_lower_eq_some_iff (hnodup : (all.map token).Nodup)
    (htokens : ∀ a ∈ all, IsLowerWord (token a)) :
    all.find? (token · = lower s) = some a ↔ a ∈ all ∧ SameLetters s.toList (token a).toList := by
  rw [find?_token_eq_some_iff hnodup]
  exact and_congr_right fun ha => lower_eq_iff (htokens a ha)

theorem find?_upper_eq_some_iff (hnodup : (all.map token).Nodup)
    (htokens : ∀ a ∈ all, IsUpperWord (token a)) : all.find? (token · = upper s) = some a ↔
      a ∈ all ∧ SameLetters (s.toList.map withDot) (token a).toList := by
  rw [find?_token_eq_some_iff hnodup]
  exact and_congr_right fun ha => upper_eq_iff (htokens a ha)

end Vocabularies

end Text

end CredentialWrites
