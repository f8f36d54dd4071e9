import Mathlib.Data.List.TakeWhile
import CredentialWrites.Json.Reader
import CredentialWrites.Json.Writer

/-!
# Reading numbers back

A number ends where neither a digit nor a point nor an exponent can follow. What is a number on its
own is read as that number before anything that ends it; whole numbers of any size are.

* `Json.EndsNumber` : what can stand behind a number.
* `Json.number?_append` : a number is read before anything that ends it.
* `Json.number?_int` : a whole number is read back.
-/

namespace CredentialWrites

namespace Json

/-- What can stand behind a number: nothing that would go on with it. -/
def EndsNumber (rest : List Char) : Prop :=
  ∀ c ∈ rest.head?, c.isDigit = false ∧ c ≠ '.' ∧ c ≠ 'e' ∧ c ≠ 'E'

theorem endsNumber_nil : EndsNumber [] := by
  simp [EndsNumber]

theorem endsNumber_cons {c : Char} {rest : List Char} (hdigit : c.isDigit = false)
    (hmarks : c ≠ '.' ∧ c ≠ 'e' ∧ c ≠ 'E') : EndsNumber (c :: rest) := by
  simpa [EndsNumber, hdigit] using hmarks

variable {cs rest r : List Char}

/-! ### Parts of a number -/

theorem takeWhile_isDigit (h : EndsNumber rest) : rest.takeWhile Char.isDigit = [] := by
  cases rest with
  | nil => rfl
  | cons c rest => simp [(h c (by simp)).1]

theorem dropWhile_isDigit (h : EndsNumber rest) : rest.dropWhile Char.isDigit = rest := by
  cases rest with
  | nil => rfl
  | cons c rest => simp [(h c (by simp)).1]

/-- Digits do not go on behind a number. -/
theorem digits?_append {ds : List Char} (h : digits? cs = some (ds, r)) (hrest : EndsNumber rest) :
    digits? (cs ++ rest) = some (ds, r ++ rest) := by
  have htake : (cs ++ rest).takeWhile Char.isDigit = cs.takeWhile Char.isDigit := by
    rw [List.takeWhile_append, takeWhile_isDigit hrest, List.append_nil]
    split
    · rename_i hall
      exact ((List.takeWhile_prefix _).eq_of_length hall).symm
    · rfl
  have hdrop : (cs ++ rest).dropWhile Char.isDigit = cs.dropWhile Char.isDigit ++ rest := by
    rw [List.dropWhile_append, dropWhile_isDigit hrest]
    split <;> simp_all
  unfold digits? at h ⊢
  rw [htake, hdrop]
  split at h <;> simp_all

theorem whole?_append {ds : List Char} (h : whole? cs = some (ds, r)) (hrest : EndsNumber rest) :
    whole? (cs ++ rest) = some (ds, r ++ rest) := by
  unfold whole? at h
  split at h
  · cases h; rfl
  · rename_i hzero
    rw [whole?]
    · exact digits?_append h hrest
    · -- the first character is that of the number, which has one
      intro tail htail
      cases cs with
      | nil => cases h
      | cons c cs =>
        obtain ⟨rfl, -⟩ := List.cons.inj htail
        exact hzero cs rfl

theorem fraction?_append {fs : List Char} (h : fraction? cs = some (fs, r))
    (hrest : EndsNumber rest) : fraction? (cs ++ rest) = some (fs, r ++ rest) := by
  unfold fraction? at h
  split at h
  · rename_i tail
    obtain ⟨⟨ds, r'⟩, hdigits, heq⟩ := Option.map_eq_some_iff.1 h
    cases heq
    rw [List.cons_append, fraction?, digits?_append hdigits hrest]
    rfl
  · rename_i hpoint
    cases h
    rw [fraction?]
    intro tail htail
    cases cs with
    | nil =>
      rw [List.nil_append] at htail
      exact (hrest '.' (by simp [htail])).2.1 rfl
    | cons c cs =>
      obtain ⟨rfl, -⟩ := List.cons.inj htail
      exact hpoint cs rfl

/-- Nothing that ends a number is an exponent. -/
theorem exponent?_endsNumber (hrest : EndsNumber rest) : exponent? rest = some ([], rest) := by
  cases rest with
  | nil => rfl
  | cons c rest =>
    have hc := hrest c (by simp)
    unfold exponent?
    dsimp only
    rw [if_neg (by simp [hc.2.2.1, hc.2.2.2])]

theorem exponent?_append {es : List Char} (h : exponent? cs = some (es, r))
    (hrest : EndsNumber rest) : exponent? (cs ++ rest) = some (es, r ++ rest) := by
  cases cs with
  | nil =>
    cases h
    exact exponent?_endsNumber hrest
  | cons c cs =>
    rw [List.cons_append]
    unfold exponent? at h ⊢
    dsimp only at h ⊢
    split at h
    · rename_i hmark
      rw [if_pos hmark]
      split at h
      · obtain ⟨⟨ds, r'⟩, hdigits, heq⟩ := Option.map_eq_some_iff.1 h
        cases heq
        simp only [List.cons_append, digits?_append hdigits hrest, Option.map_some]
      · obtain ⟨⟨ds, r'⟩, hdigits, heq⟩ := Option.map_eq_some_iff.1 h
        cases heq
        simp only [List.cons_append, digits?_append hdigits hrest, Option.map_some]
      · rename_i hplus hminus
        obtain ⟨⟨ds, r'⟩, hdigits, heq⟩ := Option.map_eq_some_iff.1 h
        cases heq
        cases cs with
        | nil => cases hdigits
        | cons d cs =>
          have hplus : d ≠ '+' := fun hd => hplus cs (by rw [hd])
          have hminus : d ≠ '-' := fun hd => hminus cs (by rw [hd])
          have happend := digits?_append hdigits hrest
          rw [List.cons_append] at happend ⊢
          split
          · rename_i heq; exact absurd (List.cons.inj heq).1 hplus
          · rename_i heq; exact absurd (List.cons.inj heq).1 hminus
          · rw [happend]; rfl
    · rename_i hmark
      cases h
      rw [if_neg hmark]
      rfl

/-! ### Numbers -/

/-- A number behind its sign. -/
def unsigned? (negative : Bool) (cs : List Char) : Option (Json × List Char) := do
  let (whole, rest) ← whole? cs
  let (fraction, rest) ← fraction? rest
  let (exponent, rest) ← exponent? rest
  if fraction.isEmpty && exponent.isEmpty then
    return (int (if negative then -(natOf whole : Int) else natOf whole), rest)
  else
    let sign := if negative then ['-'] else []
    return (number (String.ofList (sign ++ whole ++ fraction ++ exponent)), rest)

theorem number?_minus (cs : List Char) : number? ('-' :: cs) = unsigned? true cs :=
  rfl

theorem number?_cons {c : Char} (hc : c ≠ '-') (cs : List Char) :
    number? (c :: cs) = unsigned? false (c :: cs) := by
  unfold number?
  split
  rename_i heq
  split at heq
  · rename_i hcons; exact absurd (List.cons.inj hcons).1 hc
  · cases heq; rfl

/-- Without a digit at the start there is no number. -/
theorem whole?_cons {c : Char} (hc : c.isDigit = false) (cs : List Char) :
    whole? (c :: cs) = none := by
  rw [whole?]
  · simp [digits?, hc]
  · rintro tail heq
    obtain ⟨rfl, -⟩ := List.cons.inj heq
    cases hc

/-- The first character of a number is a digit or a minus. -/
theorem head_of_number? {j : Json} (h : number? cs = some (j, r)) :
    ∃ c tail, cs = c :: tail ∧ (c.isDigit = true ∨ c = '-') := by
  cases cs with
  | nil => cases h
  | cons c tail =>
    refine ⟨c, tail, rfl, ?_⟩
    by_cases hminus : c = '-'
    · exact .inr hminus
    cases hdigit : c.isDigit with
    | true => exact .inl rfl
    | false =>
      rw [number?_cons hminus, unsigned?, whole?_cons hdigit] at h
      cases h

theorem unsigned?_append {negative : Bool} {j : Json} (h : unsigned? negative cs = some (j, r))
    (hrest : EndsNumber rest) : unsigned? negative (cs ++ rest) = some (j, r ++ rest) := by
  simp only [unsigned?, Option.bind_eq_bind, Option.bind_eq_some_iff, Prod.exists] at h ⊢
  obtain ⟨whole, r₁, hwhole, fraction, r₂, hfraction, exponent, r₃, hexponent, h⟩ := h
  refine ⟨whole, _, whole?_append hwhole hrest, fraction, _,
    fraction?_append hfraction hrest, exponent, _, exponent?_append hexponent hrest, ?_⟩
  split at h <;> (rename_i hplain; cases h; simp [hplain])

/-- A number is read before anything that ends it. -/
theorem number?_append {j : Json} (h : number? cs = some (j, r)) (hrest : EndsNumber rest) :
    number? (cs ++ rest) = some (j, r ++ rest) := by
  obtain ⟨c, tail, rfl, -⟩ := head_of_number? h
  by_cases hminus : c = '-'
  · subst hminus
    rw [number?_minus] at h
    rw [List.cons_append, number?_minus, unsigned?_append h hrest]
  · rw [number?_cons hminus] at h
    rw [List.cons_append, number?_cons hminus, ← List.cons_append, unsigned?_append h hrest]

/-! ### Whole numbers -/

theorem natOf_toDigits (n : Nat) : natOf (Nat.toDigits 10 n) = n := by
  have h := @Nat.ofDigitChars_ten_toDigits n
  rw [Nat.ofDigitChars_eq_foldl] at h
  simpa only [natOf, Nat.mul_comm] using h

/-- A number that is not zero has no zero in front. -/
theorem head_toDigits {n : Nat} (h : 0 < n) : ∀ tail, Nat.toDigits 10 n ≠ '0' :: tail := by
  induction n using Nat.strongRecOn with
  | ind n ih =>
    intro tail heq
    by_cases hlt : n < 10
    · rw [Nat.toDigits_of_lt_base hlt, List.cons.injEq, Nat.digitChar_eq_zero] at heq
      omega
    · rw [Nat.toDigits_of_base_le (by decide) (Nat.not_lt.1 hlt)] at heq
      -- the digits before the last are those of a smaller number
      cases hdigits : Nat.toDigits 10 (n / 10) with
      | nil => exact absurd hdigits Nat.toDigits_ne_nil
      | cons d ds =>
        rw [hdigits, List.cons_append, List.cons.injEq] at heq
        exact ih (n / 10) (by omega) (by omega) ds (heq.1 ▸ hdigits)

theorem whole?_toDigits (n : Nat) : whole? (Nat.toDigits 10 n) = some (Nat.toDigits 10 n, []) := by
  rcases Nat.eq_zero_or_pos n with rfl | hpos
  · rw [Nat.toDigits_zero]; rfl
  · have hall : ∀ c ∈ Nat.toDigits 10 n, c.isDigit = true := fun c hc =>
      Nat.isDigit_of_mem_toDigits (by decide) (by decide) hc
    rw [whole?]
    · rw [digits?, List.takeWhile_eq_self_iff.2 hall, List.dropWhile_eq_nil_iff.2 hall]
      cases h : Nat.toDigits 10 n with
      | nil => exact absurd h Nat.toDigits_ne_nil
      | cons d ds => rfl
    · exact head_toDigits hpos

theorem unsigned?_toDigits (negative : Bool) (n : Nat) :
    unsigned? negative (Nat.toDigits 10 n) =
      some (int (if negative then -(n : Int) else n), []) := by
  rw [unsigned?, whole?_toDigits]
  simp [fraction?, exponent?, natOf_toDigits]

/-- A whole number is read back. -/
theorem number?_int (i : Int) : number? (toString i).toList = some (int i, []) := by
  cases i with
  | ofNat n =>
    have hchars : (toString (Int.ofNat n)).toList = Nat.toDigits 10 n := Nat.toList_repr
    cases hdigits : Nat.toDigits 10 n with
    | nil => exact absurd hdigits Nat.toDigits_ne_nil
    | cons d ds =>
      have hd : d ≠ '-' := by
        rintro rfl
        have := Nat.isDigit_of_mem_toDigits (b := 10) (n := n) (c := '-') (by decide) (by decide)
          (by simp [hdigits])
        cases this
      rw [hchars, hdigits, number?_cons hd, ← hdigits, unsigned?_toDigits]
      rfl
  | negSucc n =>
    have hchars : (toString (Int.negSucc n)).toList = '-' :: Nat.toDigits 10 (n + 1) := by
      change ("-" ++ (n + 1).repr).toList = _
      rw [String.toList_append, Nat.toList_repr]
      rfl
    rw [hchars, number?_minus, unsigned?_toDigits]
    rfl

end Json

end CredentialWrites
