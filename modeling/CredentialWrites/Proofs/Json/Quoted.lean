import CredentialWrites.Json.Reader
import CredentialWrites.Json.Writer
import CredentialWrites.Proofs.Text.Halves

/-!
# Reading texts back

A text between quotes is read back code point by code point, whatever the style. Most characters
stand for themselves; the others have an escape, by a letter or by their number, and a character
beyond the basic plane has one for each of its halves where only basic characters may stand. Half of
a character that stands alone has one too, and so two halves that meet are written as the character
is.

* `Json.unit?_hex` : four hexadecimal digits are read back.
* `Json.Written` : what may stand for a code point between quotes.
* `Json.quoted?_points` : a text in which no two halves meet is read back, with what follows it.
* `JsonStyle.points_joined` : a text in which halves meet is written as the text with them joined.
-/

namespace CredentialWrites

namespace Text

/-- The last digit of a number, and the digits before it. -/
theorem digitsIn_succ {base width n : Nat} (hbase : 1 < base) :
    digitsIn base (width + 2) n =
      digitsIn base (width + 1) (n / base) ++ [Nat.digitChar (n % base)] := by
  simp only [digitsIn]
  by_cases h : n < base
  · -- a single digit has only zeros before it
    rw [Nat.toDigits_of_lt_base h, Nat.div_eq_of_lt h, Nat.mod_eq_of_lt h, Nat.toDigits_zero]
    simp [List.replicate_succ']
  · rw [Nat.toDigits_of_base_le hbase (Nat.le_of_not_lt h)]
    simp

theorem digitsIn_one {base n : Nat} (h : n < base) : digitsIn base 1 n = [Nat.digitChar n] := by
  simp [digitsIn, Nat.toDigits_of_lt_base h]

end Text

namespace Json

/-! ### Numeric escapes -/

theorem hexValue?_digitChar : ∀ d < 16, hexValue? (Nat.digitChar d) = some d := by
  decide

theorem unit?_hex {n : Nat} (h : n < 0x10000) (rest : List Char) :
    unit? (Text.hex 4 n ++ rest) = some (n, rest) := by
  have hdigits : Text.hex 4 n = [Nat.digitChar (n / 16 / 16 / 16), Nat.digitChar (n / 16 / 16 % 16),
      Nat.digitChar (n / 16 % 16), Nat.digitChar (n % 16)] := by
    simp only [Text.hex, Text.digitsIn_succ (by decide : 1 < 16)]
    rw [Text.digitsIn_one (by omega)]
    rfl
  rw [hdigits]
  simp only [List.cons_append, List.nil_append, unit?, Option.bind_eq_bind, Option.pure_def,
    hexValue?_digitChar _ (Nat.mod_lt _ (by decide)),
    hexValue?_digitChar (n / 16 / 16 / 16) (by omega), Option.bind_some, Option.some.injEq,
    Prod.mk.injEq, and_true]
  omega

/-- No character is half of another. -/
theorem not_surrogate (c : Char) : ¬ (0xD800 ≤ c.toNat ∧ c.toNat < 0xE000) := by
  have h : c.toNat < 0xD800 ∨ 0xDFFF < c.toNat ∧ c.toNat < 0x110000 := c.valid
  omega

theorem toNat_lt (c : Char) : c.toNat < 0x110000 := by
  have h : c.toNat < 0xD800 ∨ 0xDFFF < c.toNat ∧ c.toNat < 0x110000 := c.valid
  omega

theorem ofNat_toNat (c : Char) : CodePoint.ofNat c.toNat = .char c := by
  rw [CodePoint.ofNat, dif_neg (not_surrogate c), Char.ofNat_toNat]

theorem ofNat_number (h : Half) : CodePoint.ofNat h.number = .half h := by
  rw [CodePoint.ofNat, dif_pos ⟨h.low, h.high⟩]

/-- The escape of a number is that of a second half if the number is. -/
theorem second?_unitEscape {n : Nat} (h : n < 0x10000) (rest : List Char) :
    second? (JsonStyle.unitEscape n ++ rest) =
      if 0xDC00 ≤ n ∧ n < 0xE000 then some (n, rest) else none := by
  rw [JsonStyle.unitEscape, List.cons_append, List.cons_append, second?, unit?_hex h,
    Option.filter_some]
  simp only [Bool.and_eq_true, decide_eq_true_eq]

/-- What stands behind a code point is not the escape of a second half, if the code point is a first
one. -/
def Apart (p : CodePoint) (rest : List Char) : Prop :=
  ∀ h : Half, p = .half h → h.isFirst = true → second? rest = none

/-- A number that is no first half is that of a code point, and so is a first half that stands
alone. -/
theorem numeric?_hex {n : Nat} (h : n < 0x10000) {rest : List Char}
    (hapart : Apart (.ofNat n) rest) :
    numeric? (Text.hex 4 n ++ rest) = some (.ofNat n, rest) := by
  rw [numeric?, unit?_hex h]
  simp only [Option.bind_eq_bind, Option.bind_some, Bool.and_eq_true, decide_eq_true_eq]
  by_cases hfirst : 0xD800 ≤ n ∧ n < 0xDC00
  · have hhalf : 0xD800 ≤ n ∧ n < 0xE000 := by omega
    have halone : second? rest = none :=
      hapart ⟨n, hhalf.1, hhalf.2⟩ (dif_pos hhalf) (decide_eq_true hfirst.2)
    rw [if_pos hfirst, halone, Option.pure_def]
  · rw [if_neg hfirst, Option.pure_def]

/-- Two halves are one character. -/
theorem numeric?_pair {first second : Nat} (hfirst : 0xD800 ≤ first ∧ first < 0xDC00)
    (hsecond : 0xDC00 ≤ second ∧ second < 0xE000) (rest : List Char) :
    numeric? (Text.hex 4 first ++ (JsonStyle.unitEscape second ++ rest)) =
      some (.char (Text.charOfHalves first second), rest) := by
  rw [numeric?, unit?_hex (by omega)]
  simp only [Option.bind_eq_bind, Option.bind_some, Bool.and_eq_true, decide_eq_true_eq]
  rw [if_pos hfirst, second?_unitEscape (by omega), if_pos hsecond, Option.pure_def]

/-- The numbers of the halves of a character beyond the basic plane. -/
theorem bounds_halves {n : Nat} (h : n < 0x110000) :
    (0xD800 ≤ 0xD800 + (n - 0x10000) / 0x400 ∧ 0xD800 + (n - 0x10000) / 0x400 < 0xDC00) ∧
      0xDC00 ≤ 0xDC00 + (n - 0x10000) % 0x400 ∧ 0xDC00 + (n - 0x10000) % 0x400 < 0xE000 := by
  omega

/-- A character beyond the basic plane from its halves. -/
theorem charOfHalves_halves {c : Char} (h : 0x10000 ≤ c.toNat) :
    Text.charOfHalves (0xD800 + (c.toNat - 0x10000) / 0x400)
      (0xDC00 + (c.toNat - 0x10000) % 0x400) = c := by
  have hnumber : 0x10000 + (0xD800 + (c.toNat - 0x10000) / 0x400 - 0xD800) * 0x400 +
      (0xDC00 + (c.toNat - 0x10000) % 0x400 - 0xDC00) = c.toNat := by
    omega
  rw [Text.charOfHalves, hnumber, Char.ofNat_toNat]

end Json

/-! ### Characters between quotes -/

namespace JsonStyle

/-- How a character is written between quotes: by an escape with a letter or with its number, or as
itself. -/
inductive Spelling (style : JsonStyle) (c : Char) : List Char → Prop where
  | letter {l : Char} (hl : l ≠ 'u' ∧ 0x20 ≤ l.toNat ∧ l.toNat ≤ 0x7E) (hc : c.toNat ≤ 0x7E)
      (hread : ∀ rest, Json.escape? (l :: rest) = some (.char c, rest)) : Spelling style c ['\\', l]
  | number : Spelling style c (numericEscape c)
  | itself (hquote : c ≠ '"') (hbackslash : c ≠ '\\') (hcontrol : 0x20 ≤ c.toNat)
      (hbasic : style.asciiOnly = true → c.toNat ≤ 0x7E) : Spelling style c [c]

theorem spelling_textChar (style : JsonStyle) (c : Char) : Spelling style c (style.textChar c) := by
  unfold textChar
  split
  · subst c; exact .letter (by decide) (by decide) fun _ => rfl
  split
  · subst c; exact .letter (by decide) (by decide) fun _ => rfl
  split
  · subst c; exact .letter (by decide) (by decide) fun _ => rfl
  split
  · subst c; exact .letter (by decide) (by decide) fun _ => rfl
  split
  · subst c; exact .letter (by decide) (by decide) fun _ => rfl
  split
  · subst c; exact .letter (by decide) (by decide) fun _ => rfl
  split
  · subst c; exact .letter (by decide) (by decide) fun _ => rfl
  split
  · exact .number
  · rename_i hquote hbackslash _ _ _ _ _ hplain
    simp only [Bool.or_eq_true, Bool.and_eq_true, decide_eq_true_eq, not_or, not_and,
      Nat.not_lt] at hplain
    exact .itself hquote hbackslash hplain.1 hplain.2

end JsonStyle

namespace Json

/-- What may stand for a code point between quotes: a character itself, if it is neither a quote nor
a backslash nor a control character, or an escape that is read as the code point. -/
inductive Written : CodePoint → List Char → Prop where
  | itself {c : Char} (hquote : c ≠ '"') (hbackslash : c ≠ '\\') (hcontrol : 0x20 ≤ c.toNat) :
      Written (.char c) [c]
  | escaped {p : CodePoint} {es : List Char}
      (h : ∀ rest, Apart p rest → escape? (es ++ rest) = some (p, rest)) : Written p ('\\' :: es)

theorem written_unitEscape {n : Nat} (h : n < 0x10000) :
    Written (.ofNat n) (JsonStyle.unitEscape n) := by
  refine .escaped fun rest hapart => ?_
  rw [List.cons_append, escape?, numeric?_hex h hapart]

theorem written_halves {first second : Nat} (hfirst : 0xD800 ≤ first ∧ first < 0xDC00)
    (hsecond : 0xDC00 ≤ second ∧ second < 0xE000) :
    Written (.char (Text.charOfHalves first second))
      (JsonStyle.unitEscape first ++ JsonStyle.unitEscape second) := by
  refine .escaped fun rest _ => ?_
  change escape? ('u' :: (Text.hex 4 first ++ JsonStyle.unitEscape second ++ rest)) = _
  rw [List.append_assoc, escape?, numeric?_pair hfirst hsecond]

theorem written_numericEscape (c : Char) : Written (.char c) (JsonStyle.numericEscape c) := by
  by_cases h : c.toNat < 0x10000
  · rw [JsonStyle.numericEscape, if_pos h, ← ofNat_toNat]
    exact written_unitEscape h
  · obtain ⟨hfirst, hsecond⟩ := bounds_halves (toNat_lt c)
    have hwritten := written_halves hfirst hsecond
    rw [charOfHalves_halves (Nat.not_lt.1 h)] at hwritten
    rwa [JsonStyle.numericEscape, if_neg h]

/-- Every style writes a code point so that it can be read. -/
theorem written_pointChars (style : JsonStyle) (p : CodePoint) :
    Written p (style.pointChars p) := by
  cases p with
  | half h =>
    have hbasic : h.number < 0x10000 := Nat.lt_trans h.high (by decide)
    have hwritten := written_unitEscape hbasic
    rwa [ofNat_number] at hwritten
  | char c =>
    have hspelling := style.spelling_textChar c
    rw [JsonStyle.pointChars]
    generalize style.textChar c = es at hspelling ⊢
    cases hspelling with
    | letter _ _ hread => exact .escaped fun rest _ => hread rest
    | number => exact written_numericEscape c
    | itself hquote hbackslash hcontrol => exact .itself hquote hbackslash hcontrol

theorem Written.ne_nil {p : CodePoint} {cs : List Char} (h : Written p cs) : 0 < cs.length := by
  cases h <;> simp

/-- What is written for a code point is read as the code point, before anything that it is not
joined to. -/
theorem Written.quoted? {p : CodePoint} {cs : List Char} (h : Written p cs) (fuel : Nat)
    {rest : List Char} (hapart : Apart p rest) :
    quoted? (fuel + 1) (cs ++ rest) = (quoted? fuel rest).map fun r => (p :: r.1, r.2) := by
  cases h with
  | itself hquote hbackslash hcontrol =>
    rw [List.singleton_append, Json.quoted?, if_neg hquote, if_neg hbackslash,
      if_neg (Nat.not_lt.2 hcontrol)]
    cases Json.quoted? fuel rest <;> rfl
  | escaped h =>
    rw [List.cons_append, Json.quoted?, if_neg (by decide), if_pos rfl, h rest hapart]
    simp only [Option.bind_eq_bind, Option.bind_some]
    cases Json.quoted? fuel rest <;> rfl

/-- What is written for a code point starts with the escape of a second half only if it is one. -/
theorem second?_pointChars (style : JsonStyle) {p : CodePoint}
    (hp : ∀ h : Half, p = .half h → h.isFirst = true) (rest : List Char) :
    second? (style.pointChars p ++ rest) = none := by
  cases p with
  | half h =>
    have hfirst : h.number < 0xDC00 := of_decide_eq_true (hp h rfl)
    rw [JsonStyle.pointChars, second?_unitEscape (by omega), if_neg (by omega)]
  | char c =>
    have hspelling := style.spelling_textChar c
    rw [JsonStyle.pointChars]
    generalize style.textChar c = es at hspelling ⊢
    cases hspelling with
    | letter hl =>
      rw [List.cons_append, List.cons_append, second?]
      intro _ h
      exact hl.1 (List.cons.inj (List.cons.inj h).2).1
    | number =>
      have hnot := not_surrogate c
      rw [JsonStyle.numericEscape]
      split
      · rw [second?_unitEscape ‹_›, if_neg (by omega)]
      · obtain ⟨hfirst, -⟩ := bounds_halves (toNat_lt c)
        rw [List.append_assoc, second?_unitEscape (by omega), if_neg (by omega)]
    | itself _ hbackslash =>
      rw [List.cons_append, second?]
      intro _ h
      exact hbackslash (List.cons.inj h).1

/-- The code points of a text in which no two halves meet are read up to its closing quote. -/
theorem quoted?_flatMap (style : JsonStyle) {ps : List CodePoint} (hps : Text.Unpaired ps)
    (rest : List Char) {fuel : Nat} (hfuel : (ps.flatMap style.pointChars).length < fuel) :
    quoted? fuel (ps.flatMap style.pointChars ++ '"' :: rest) = some (ps, rest) := by
  induction ps generalizing fuel with
  | nil =>
    obtain ⟨fuel, rfl⟩ := Nat.exists_eq_succ_of_ne_zero (Nat.ne_of_gt hfuel)
    rw [List.flatMap_nil, List.nil_append, quoted?, if_pos rfl]
  | cons p ps ih =>
    obtain ⟨hhead, htail⟩ := List.isChain_cons.1 hps
    have hapart : Apart p (ps.flatMap style.pointChars ++ '"' :: rest) := by
      rintro h rfl hfirst
      cases ps with
      | nil => rfl
      | cons q ps =>
        rw [List.flatMap_cons, List.append_assoc]
        refine second?_pointChars style ?_ _
        rintro k rfl
        by_contra hsecond
        rw [Bool.not_eq_true] at hsecond
        have hpair := hhead _ rfl
        rw [CodePoint.pair?, hfirst, hsecond] at hpair
        cases hpair
    have hwritten := written_pointChars style p
    have hpos := hwritten.ne_nil
    rw [List.flatMap_cons, List.length_append] at hfuel
    obtain ⟨fuel, rfl⟩ := Nat.exists_eq_succ_of_ne_zero (Nat.ne_of_gt (Nat.zero_lt_of_lt hfuel))
    rw [List.flatMap_cons, List.append_assoc, hwritten.quoted? fuel hapart, ih htail (by omega)]
    rfl

/-- A text between quotes is read back, once the opening quote is passed. -/
theorem quoted?_points (style : JsonStyle) {ps : List CodePoint} (hps : Text.Unpaired ps)
    (rest : List Char) {fuel : Nat} (hfuel : (style.points ps).length ≤ fuel + 1) :
    ∃ cs, style.points ps = '"' :: cs ∧ quoted? fuel (cs ++ rest) = some (ps, rest) := by
  refine ⟨ps.flatMap style.pointChars ++ ['"'], rfl, ?_⟩
  rw [List.append_assoc, List.singleton_append]
  refine quoted?_flatMap style hps rest ?_
  simp only [JsonStyle.points, List.length_cons, List.length_append, List.length_nil] at hfuel
  omega

end Json

/-! ### Halves that meet -/

namespace JsonStyle

variable {style : JsonStyle} (hstyle : style.asciiOnly = true)

include hstyle

/-- Where only basic characters may stand, a character is written as its halves are. -/
theorem pointChars_of_pair {p q : CodePoint} {c : Char} (h : p.pair? q = some c) :
    style.pointChars (.char c) = style.pointChars p ++ style.pointChars q := by
  obtain ⟨⟨first, hlow, hhigh⟩, ⟨second, hlow', hhigh'⟩, rfl, rfl, hisFirst, hisSecond, rfl⟩ :=
    CodePoint.pair?_eq_some_iff.1 h
  have hfirst : 0xD800 ≤ first ∧ first < 0xDC00 := ⟨hlow, of_decide_eq_true hisFirst⟩
  have hsecond : 0xDC00 ≤ second ∧ second < 0xE000 :=
    ⟨Nat.not_lt.1 (of_decide_eq_false hisSecond), hhigh'⟩
  have hnumber := Text.toNat_charOfHalves hfirst hsecond
  have hspelling := style.spelling_textChar (Text.charOfHalves first second)
  dsimp only [pointChars]
  generalize style.textChar (Text.charOfHalves first second) = es at hspelling ⊢
  cases hspelling with
  | letter _ hc => omega
  | itself _ _ _ hbasic =>
    have hle := hbasic hstyle
    omega
  | number =>
    have hhalves : 0xD800 + ((Text.charOfHalves first second).toNat - 0x10000) / 0x400 = first ∧
        0xDC00 + ((Text.charOfHalves first second).toNat - 0x10000) % 0x400 = second := by
      omega
    rw [numericEscape, if_neg (by omega), hhalves.1, hhalves.2]

/-- A text in which halves meet is written as the text with them joined. -/
theorem points_joined (ps : List CodePoint) : style.points (Text.joined ps) = style.points ps := by
  suffices hchars : (Text.joined ps).flatMap style.pointChars = ps.flatMap style.pointChars by
    rw [points, points, hchars]
  induction ps with
  | nil => rfl
  | cons p ps ih =>
    rw [Text.joined_cons, List.flatMap_cons, ← ih]
    cases Text.joined ps with
    | nil => rfl
    | cons q qs =>
      cases hpair : p.pair? q with
      | none => simp only [Text.attach, hpair, List.flatMap_cons]
      | some c =>
        simp only [Text.attach, hpair, List.flatMap_cons]
        rw [pointChars_of_pair hstyle hpair, List.append_assoc]

end JsonStyle

end CredentialWrites
