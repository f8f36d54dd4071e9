import CredentialWrites.Proofs.Json.Decimal

/-!
# Documents of printable characters

A style that asks for it writes every text in the printable characters of the basic alphabet, with
an escape for every other character. A document on one line is then nothing but such characters, if
its numbers are; there is no line break in it, whatever its texts are.

* `Text.IsBasic` : printable characters of the basic alphabet only.
* `JsonStyle.isBasic_points` : what is written for a text.
* `Json.isBasic_write` : what is written for a document.
-/

namespace CredentialWrites

namespace Text

/-- The characters are printable ones of the basic alphabet. -/
def IsBasic (cs : List Char) : Prop :=
  ∀ c ∈ cs, 0x20 ≤ c.toNat ∧ c.toNat ≤ 0x7E

instance (cs : List Char) : Decidable (IsBasic cs) :=
  List.decidableBAll (fun c : Char => 0x20 ≤ c.toNat ∧ c.toNat ≤ 0x7E) cs

theorem isBasic_nil : IsBasic [] := by
  simp [IsBasic]

theorem isBasic_cons {c : Char} {cs : List Char} :
    IsBasic (c :: cs) ↔ (0x20 ≤ c.toNat ∧ c.toNat ≤ 0x7E) ∧ IsBasic cs :=
  List.forall_mem_cons

theorem isBasic_append {cs ds : List Char} : IsBasic (cs ++ ds) ↔ IsBasic cs ∧ IsBasic ds :=
  List.forall_mem_append

/-- Digits of a base up to sixteen. -/
theorem isBasic_toDigits {base : Nat} (hbase : 1 < base) (hle : base ≤ 16) (n : Nat) :
    IsBasic (Nat.toDigits base n) := by
  have hdigit : ∀ d < 16, 0x20 ≤ (Nat.digitChar d).toNat ∧ (Nat.digitChar d).toNat ≤ 0x7E := by
    decide
  -- the digits in front of the last one are those of a smaller number
  induction n using Nat.strongRecOn with
  | ind n ih =>
    by_cases hlt : n < base
    · rw [Nat.toDigits_of_lt_base hlt, isBasic_cons]
      exact ⟨hdigit n (by omega), isBasic_nil⟩
    · have hdiv : n / base < n := Nat.div_lt_self (by omega) hbase
      have hmod : n % base < base := Nat.mod_lt n (by omega)
      rw [Nat.toDigits_of_base_le hbase (Nat.le_of_not_lt hlt), isBasic_append, isBasic_cons]
      exact ⟨ih (n / base) hdiv, hdigit (n % base) (by omega), isBasic_nil⟩

theorem isBasic_hex (width n : Nat) : IsBasic (hex width n) := by
  rw [hex, digitsIn, isBasic_append]
  refine ⟨fun c hc => ?_, isBasic_toDigits (by decide) (by decide) n⟩
  rw [List.eq_of_mem_replicate hc]
  decide

end Text

namespace Json

open Text (IsBasic)

theorem Digits.isBasic {cs : List Char} (h : Digits cs) : IsBasic cs := by
  intro c hc
  have hdigit := h.2 c hc
  rw [Char.isDigit, Bool.and_eq_true, decide_eq_true_eq, decide_eq_true_eq] at hdigit
  obtain ⟨hlow, hhigh⟩ := hdigit
  have hlow : 48 ≤ c.toNat := UInt32.le_iff_toNat_le.1 hlow
  have hhigh : c.toNat ≤ 57 := UInt32.le_iff_toNat_le.1 hhigh
  omega

theorem NumberParts.isBasic {whole fraction exponent : List Char}
    (h : NumberParts whole fraction exponent) : IsBasic (whole ++ (fraction ++ exponent)) := by
  have hfraction : IsBasic fraction := by
    rcases h.point with rfl | ⟨ds, hds, rfl⟩
    · exact Text.isBasic_nil
    · exact Text.isBasic_cons.2 ⟨by decide, hds.isBasic⟩
  have hexponent : IsBasic exponent := by
    rcases h.mark with rfl | ⟨sign, ds, hsign, hds, rfl⟩
    · exact Text.isBasic_nil
    · refine Text.isBasic_cons.2 ⟨by decide, Text.isBasic_cons.2 ⟨?_, hds.isBasic⟩⟩
      rcases hsign with rfl | rfl <;> decide
  exact Text.isBasic_append.2 ⟨h.digits.isBasic, Text.isBasic_append.2 ⟨hfraction, hexponent⟩⟩

theorem isBasic_int (i : Int) : IsBasic (toString i).toList := by
  cases i with
  | ofNat n =>
    have hchars : (toString (Int.ofNat n)).toList = Nat.toDigits 10 n := Nat.toList_repr
    rw [hchars]
    exact Text.isBasic_toDigits (by decide) (by decide) n
  | negSucc n =>
    have hchars : (toString (Int.negSucc n)).toList = '-' :: Nat.toDigits 10 (n + 1) := by
      change ("-" ++ (n + 1).repr).toList = _
      rw [String.toList_append, Nat.toList_repr]
      rfl
    rw [hchars, Text.isBasic_cons]
    exact ⟨by decide, Text.isBasic_toDigits (by decide) (by decide) (n + 1)⟩

end Json

/-- A number is written in basic characters if the word for an infinity is. -/
theorem DecimalLayout.isBasic_write {l : DecimalLayout} (h : Text.IsBasic l.infinity.toList)
    (x : Double) : Text.IsBasic (l.write x).toList := by
  have hsign : Text.IsBasic (if x.negative then ['-'] else []) := by
    split
    · exact Text.isBasic_cons.2 ⟨by decide, Text.isBasic_nil⟩
    · exact Text.isBasic_nil
  cases hx : x.magnitude with
  | finite m e =>
    obtain ⟨whole, fraction, exponent, hparts, heq⟩ := numberParts_write l hx
    rw [heq]
    exact Text.isBasic_append.2 ⟨hsign, hparts.isBasic⟩
  | infinite =>
    rw [write, hx]
    simp only [String.toList_ofList]
    exact Text.isBasic_append.2 ⟨hsign, h⟩

namespace JsonStyle

open Text (IsBasic)

/-- The style writes documents on one line, in printable characters of the basic alphabet. -/
structure Basic (style : JsonStyle) : Prop where
  asciiOnly : style.asciiOnly = true
  separator : IsBasic style.separator
  colon : IsBasic style.colon
  indent : style.indent = none

theorem basic_log : log.Basic :=
  { asciiOnly := rfl, separator := by decide, colon := by decide, indent := rfl }

theorem isBasic_unitEscape (n : Nat) : IsBasic (unitEscape n) := by
  rw [unitEscape, Text.isBasic_cons, Text.isBasic_cons]
  exact ⟨by decide, by decide, Text.isBasic_hex 4 n⟩

theorem isBasic_numericEscape (c : Char) : IsBasic (numericEscape c) := by
  rw [numericEscape]
  split
  · exact isBasic_unitEscape _
  · exact Text.isBasic_append.2 ⟨isBasic_unitEscape _, isBasic_unitEscape _⟩

variable {style : JsonStyle} (hstyle : style.Basic)

include hstyle

/-- A code point that does not stand for itself has an escape. -/
theorem isBasic_pointChars (p : CodePoint) : IsBasic (style.pointChars p) := by
  cases p with
  | half h => exact isBasic_unitEscape h.number
  | char c =>
    have hspelling := style.spelling_textChar c
    rw [pointChars]
    generalize style.textChar c = es at hspelling ⊢
    cases hspelling with
    | letter hl =>
      exact Text.isBasic_cons.2 ⟨by decide, Text.isBasic_cons.2 ⟨hl.2, Text.isBasic_nil⟩⟩
    | number => exact isBasic_numericEscape c
    | itself _ _ hcontrol hbasic =>
      exact Text.isBasic_cons.2 ⟨⟨hcontrol, hbasic hstyle.asciiOnly⟩, Text.isBasic_nil⟩

/-- A text is written in basic characters, whatever its own are. -/
theorem isBasic_points (ps : List CodePoint) : IsBasic (style.points ps) := by
  have hchars : IsBasic (ps.flatMap style.pointChars) := by
    intro c hc
    obtain ⟨p, -, hp⟩ := List.mem_flatMap.1 hc
    exact isBasic_pointChars hstyle p c hp
  rw [points, List.cons_append, Text.isBasic_cons, Text.isBasic_append]
  exact ⟨by decide, hchars, by decide⟩

theorem isBasic_lineBreak (level : Nat) : IsBasic (style.lineBreak level) := by
  rw [lineBreak, hstyle.indent]
  exact Text.isBasic_nil

end JsonStyle

namespace Json

open Text (IsBasic isBasic_append isBasic_cons)

variable {style : JsonStyle} (hstyle : style.Basic)

include hstyle

mutual

/-- A document is written in basic characters if its numbers are. -/
theorem isBasic_chars : ∀ (level : Nat) (j : Json),
    (∀ written, number written ∈ j.fragile → IsBasic written.toList) → IsBasic (j.chars style level)
  | level, null, _ => by
    rw [chars]
    decide
  | level, bool b, _ => by
    rw [chars]
    cases b <;> decide
  | level, int i, _ => by
    rw [chars]
    exact isBasic_int i
  | level, number written, h => by
    rw [chars]
    exact h written (by simp [fragile])
  | level, text s, _ => by
    rw [chars]
    exact JsonStyle.isBasic_points hstyle (Text.points s)
  | level, broken ps, _ => by
    rw [chars]
    exact JsonStyle.isBasic_points hstyle ps
  | level, array [], _ => by
    rw [chars]
    decide
  | level, array (item :: rest), h => by
    rw [fragile, itemsFragile] at h
    have hitem := isBasic_chars (level + 1) item fun w hw => h w (List.mem_append_left _ hw)
    have hrest := isBasic_itemChars (level + 1) rest fun w hw => h w (List.mem_append_right _ hw)
    simp only [chars, isBasic_append, isBasic_cons]
    exact ⟨⟨⟨⟨⟨by decide, JsonStyle.isBasic_lineBreak hstyle _⟩, hitem⟩, hrest⟩,
      JsonStyle.isBasic_lineBreak hstyle _⟩, by decide, Text.isBasic_nil⟩
  | level, object [], _ => by
    rw [chars]
    decide
  | level, object ((name, value) :: rest), h => by
    rw [fragile, membersFragile] at h
    have hvalue := isBasic_chars (level + 1) value fun w hw => h w (List.mem_append_left _ hw)
    have hrest := isBasic_memberChars (level + 1) rest fun w hw => h w (List.mem_append_right _ hw)
    simp only [chars, isBasic_append, isBasic_cons]
    exact
      ⟨⟨⟨⟨⟨⟨⟨by decide, JsonStyle.isBasic_lineBreak hstyle _⟩, JsonStyle.isBasic_points hstyle _⟩,
      hstyle.colon⟩, hvalue⟩, hrest⟩, JsonStyle.isBasic_lineBreak hstyle _⟩,
      by decide, Text.isBasic_nil⟩

theorem isBasic_itemChars : ∀ (level : Nat) (items : List Json),
    (∀ written, number written ∈ itemsFragile items → IsBasic written.toList) →
      IsBasic (itemChars style level items)
  | level, [], _ => by
    rw [itemChars]
    exact Text.isBasic_nil
  | level, item :: rest, h => by
    rw [itemsFragile] at h
    have hitem := isBasic_chars level item fun w hw => h w (List.mem_append_left _ hw)
    have hrest := isBasic_itemChars level rest fun w hw => h w (List.mem_append_right _ hw)
    simp only [itemChars, isBasic_append]
    exact ⟨⟨⟨hstyle.separator, JsonStyle.isBasic_lineBreak hstyle _⟩, hitem⟩, hrest⟩

theorem isBasic_memberChars : ∀ (level : Nat) (members : List (String × Json)),
    (∀ written, number written ∈ membersFragile members → IsBasic written.toList) →
      IsBasic (memberChars style level members)
  | level, [], _ => by
    rw [memberChars]
    exact Text.isBasic_nil
  | level, (name, value) :: rest, h => by
    rw [membersFragile] at h
    have hvalue := isBasic_chars level value fun w hw => h w (List.mem_append_left _ hw)
    have hrest := isBasic_memberChars level rest fun w hw => h w (List.mem_append_right _ hw)
    simp only [memberChars, isBasic_append]
    exact ⟨⟨⟨⟨⟨hstyle.separator, JsonStyle.isBasic_lineBreak hstyle _⟩,
      JsonStyle.isBasic_points hstyle _⟩, hstyle.colon⟩, hvalue⟩, hrest⟩

end

/-- The text of a document is one line of basic characters if its numbers are. -/
theorem isBasic_write {j : Json}
    (h : ∀ written, number written ∈ j.fragile → IsBasic written.toList) :
    IsBasic (j.write style).toList := by
  rw [write, String.toList_ofList]
  exact isBasic_chars hstyle 0 j h

end Json

end CredentialWrites
