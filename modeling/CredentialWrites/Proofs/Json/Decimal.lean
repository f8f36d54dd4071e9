import CredentialWrites.Number.Shortest
import CredentialWrites.Proofs.Json.RoundTrip

/-!
# Numbers with a fraction

Every finite number is written as the standard has it, whatever the layout: its shortest decimal has
at least one digit that is not zero, and a layout puts a digit on either side of every point, a sign
and a digit behind every exponent mark, and no zero in front of other digits.

* `Json.NumberParts` : the parts of a number as the standard has them.
* `DecimalLayout.numberParts_decimal` : a decimal is laid out in such parts.
* `DecimalLayout.number?_write` : a finite number is read back as it is written.
* `Json.fragile` : the parts of a document whose reading depends on how they are written.
-/

namespace CredentialWrites

/-! ### The shortest decimal -/

namespace Decimal

theorem stripZeros_pos (fuel : Nat) {n : Nat} (h : 0 < n) : 0 < stripZeros fuel n := by
  induction fuel generalizing n with
  | zero => exact h
  | succ fuel ih =>
    rw [stripZeros]
    split
    · rename_i hzero
      rw [Bool.and_eq_true, decide_eq_true_eq, decide_eq_true_eq] at hzero
      exact ih (by omega)
    · exact h

/-- Zero is below every midpoint to a neighbour of a positive number, and so no candidate is
zero. -/
theorem digits_pos_of_candidate {mantissa : Nat} (hm : 0 < mantissa) {exponent : Int} {count : Nat}
    {leading : Int} {d : Decimal} (h : candidate mantissa exponent count leading = some d) :
    0 < d.digits := by
  unfold candidate at h
  extract_lets p q up down value low high even reads below above toBelow toAbove answer at h
  have hanswer : ∀ c : Nat, 0 < c → 0 < (answer c).digits := by
    intro c hc
    unfold answer
    split
    · exact stripZeros_pos 20 hc
    · exact stripZeros_pos 20 hc
  have hzero : reads 0 = false := by
    have hdown : 0 < down := Nat.mul_pos (Nat.pow_pos (by decide)) (Nat.pow_pos (by decide))
    have hlow : 0 < low := by
      unfold low value
      split <;> omega
    have hproduct : 0 < low * down := Nat.mul_pos hlow hdown
    unfold reads
    split
    · simp only [Nat.zero_mul, Bool.and_eq_false_iff, decide_eq_false_iff_not]
      exact .inl (by omega)
    · simp only [Nat.zero_mul, Bool.and_eq_false_iff, decide_eq_false_iff_not]
      exact .inl (by omega)
  split at h
  · rename_i hreads
    rw [← Option.some.inj h]
    refine hanswer below (Nat.pos_of_ne_zero fun hbelow => ?_)
    rw [hbelow, hzero] at hreads
    cases hreads
  · split at h
    · rw [← Option.some.inj h]
      exact hanswer above (Nat.succ_pos _)
    · cases h

theorem digits_pos_shortest {mantissa : Nat} (hm : 0 < mantissa) (exponent : Int) :
    0 < (shortest mantissa exponent).digits := by
  unfold shortest
  dsimp only
  generalize leadingExponent _ _ = leading
  cases hfind : (List.range 17).findSome? fun i => candidate mantissa exponent (i + 1) leading with
  | none => exact hm
  | some d =>
    obtain ⟨i, -, hi⟩ := List.exists_of_findSome?_eq_some hfind
    exact digits_pos_of_candidate hm hi

end Decimal

/-! ### Parts of a number -/

namespace Json

/-- Digits, at least one. -/
def Digits (cs : List Char) : Prop :=
  cs ≠ [] ∧ ∀ c ∈ cs, c.isDigit = true

theorem digits_toDigits (n : Nat) : Digits (Nat.toDigits 10 n) :=
  ⟨Nat.toDigits_ne_nil, fun _ hc => Nat.isDigit_of_mem_toDigits (by decide) (by decide) hc⟩

theorem Digits.append {ds es : List Char} (hd : Digits ds) (he : ∀ c ∈ es, c.isDigit = true) :
    Digits (ds ++ es) := by
  refine ⟨List.append_ne_nil_of_left_ne_nil hd.1 es, fun c hc => ?_⟩
  rcases List.mem_append.1 hc with hc | hc
  · exact hd.2 c hc
  · exact he c hc

theorem isDigit_replicate_zero (n : Nat) : ∀ c ∈ List.replicate n '0', c.isDigit = true := by
  intro c hc
  rw [List.eq_of_mem_replicate hc]
  rfl

/-- Zeros in front of digits. -/
theorem Digits.padded {ds : List Char} (hd : Digits ds) (n : Nat) :
    Digits (List.replicate n '0' ++ ds) := by
  refine ⟨List.append_ne_nil_of_right_ne_nil _ hd.1, fun c hc => ?_⟩
  rcases List.mem_append.1 hc with hc | hc
  · exact isDigit_replicate_zero n c hc
  · exact hd.2 c hc

theorem Digits.take {ds : List Char} (hd : Digits ds) (n : Nat) : Digits (ds.take (n + 1)) := by
  refine ⟨?_, fun c hc => hd.2 c (List.mem_of_mem_take hc)⟩
  simp [hd.1]

theorem Digits.drop {ds : List Char} {n : Nat} (hd : Digits ds) (hne : ds.drop n ≠ []) :
    Digits (ds.drop n) :=
  ⟨hne, fun c hc => hd.2 c (List.mem_of_mem_drop hc)⟩

/-- The digits before something else. -/
theorem digits?_digits {ds rest : List Char} (hd : Digits ds)
    (hrest : ∀ c ∈ rest.head?, c.isDigit = false) : digits? (ds ++ rest) = some (ds, rest) := by
  have htake : rest.takeWhile Char.isDigit = [] := by
    cases rest with
    | nil => rfl
    | cons c rest => simp [hrest c (by simp)]
  have hdrop : rest.dropWhile Char.isDigit = rest := by
    cases rest with
    | nil => rfl
    | cons c rest => simp [hrest c (by simp)]
  rw [digits?, List.takeWhile_append_of_pos hd.2, List.dropWhile_append_of_pos hd.2, htake, hdrop,
    List.append_nil]
  obtain ⟨hne, -⟩ := hd
  cases ds with
  | nil => exact absurd rfl hne
  | cons d ds => rfl

/-- The parts of a number without its sign, of which the fraction or the exponent is there: digits
without a zero in front of others, a point with digits, and an exponent mark with a sign and
digits. -/
structure NumberParts (whole fraction exponent : List Char) : Prop where
  digits : Digits whole
  leading : whole = ['0'] ∨ whole.head? ≠ some '0'
  point : fraction = [] ∨ ∃ ds, Digits ds ∧ fraction = '.' :: ds
  mark : exponent = [] ∨ ∃ sign ds, (sign = '+' ∨ sign = '-') ∧ Digits ds ∧
    exponent = 'e' :: sign :: ds
  notWhole : fraction ≠ [] ∨ exponent ≠ []

namespace NumberParts

variable {whole fraction exponent : List Char} (h : NumberParts whole fraction exponent)

include h

/-- Neither a fraction nor an exponent starts with a digit. -/
theorem head_behind : ∀ c ∈ (fraction ++ exponent).head?, c.isDigit = false := by
  intro c hc
  rcases h.point with rfl | ⟨ds, -, rfl⟩
  · rcases h.mark with rfl | ⟨sign, ds, -, -, rfl⟩
    · cases hc
    · rw [← Option.some.inj hc]
      rfl
  · rw [← Option.some.inj hc]
    rfl

theorem whole?_eq : whole? (whole ++ (fraction ++ exponent)) =
    some (whole, fraction ++ exponent) := by
  rcases h.leading with rfl | hzero
  · rfl
  · rw [whole?]
    · exact digits?_digits h.digits h.head_behind
    · intro tail htail
      have hne := h.digits.1
      cases whole with
      | nil => exact hne rfl
      | cons c cs =>
        obtain ⟨rfl, -⟩ := List.cons.inj htail
        exact hzero rfl

theorem fraction?_eq : fraction? (fraction ++ exponent) = some (fraction, exponent) := by
  have hexponent : ∀ c ∈ exponent.head?, c.isDigit = false ∧ c ≠ '.' := by
    intro c hc
    rcases h.mark with rfl | ⟨sign, ds, -, -, rfl⟩
    · cases hc
    · rw [← Option.some.inj hc]
      exact ⟨rfl, by decide⟩
  rcases h.point with rfl | ⟨ds, hds, rfl⟩
  · rw [List.nil_append, fraction?]
    rintro tail rfl
    exact (hexponent '.' rfl).2 rfl
  · rw [List.cons_append, fraction?, digits?_digits hds fun c hc => (hexponent c hc).1]
    rfl

theorem exponent?_eq : exponent? exponent = some (exponent, []) := by
  rcases h.mark with rfl | ⟨sign, ds, hsign, hds, rfl⟩
  · rfl
  · have hdigits : digits? (ds ++ []) = some (ds, []) := digits?_digits hds (by simp)
    rw [List.append_nil] at hdigits
    rcases hsign with rfl | rfl
    · simp [exponent?, hdigits]
    · simp [exponent?, hdigits]

/-- The parts together are read as the number that they are written as. -/
theorem unsigned?_eq (negative : Bool) :
    unsigned? negative (whole ++ (fraction ++ exponent)) =
      some (number (String.ofList
        ((if negative then ['-'] else []) ++ (whole ++ (fraction ++ exponent)))), []) := by
  have hsome : (fraction.isEmpty && exponent.isEmpty) = false := by
    rw [Bool.and_eq_false_iff]
    rcases h.notWhole with hne | hne
    · exact .inl (List.isEmpty_eq_false_iff.2 hne)
    · exact .inr (List.isEmpty_eq_false_iff.2 hne)
  rw [unsigned?, h.whole?_eq]
  simp only [Option.bind_eq_bind, Option.bind_some, h.fraction?_eq, h.exponent?_eq, hsome,
    List.append_assoc, Bool.false_eq_true, if_false]
  rfl

/-- The parts behind a sign, if there is one, are read as the number that they are written as. -/
theorem number?_eq (negative : Bool) :
    number? ((if negative then ['-'] else []) ++ (whole ++ (fraction ++ exponent))) =
      some (number (String.ofList
        ((if negative then ['-'] else []) ++ (whole ++ (fraction ++ exponent)))), []) := by
  cases negative with
  | true => exact h.unsigned?_eq true
  | false =>
    have hunsigned := h.unsigned?_eq false
    obtain ⟨hne, hdigits⟩ := h.digits
    cases whole with
    | nil => exact absurd rfl hne
    | cons c cs =>
      -- a digit is no minus
      have hminus : c ≠ '-' := by
        rintro rfl
        cases hdigits '-' List.mem_cons_self
      rw [← hunsigned]
      exact number?_cons hminus _

end NumberParts

end Json

/-! ### Layouts -/

namespace DecimalLayout

open Json (Digits NumberParts)

theorem digits_digitsOf (n : Nat) : Digits (digitsOf n) :=
  Json.digits_toDigits n

/-- The digits of a number that is not zero, and zeros, have no zero in front. -/
theorem head_digitsOf {n : Nat} (hn : 0 < n) : (digitsOf n).head? ≠ some '0' := by
  intro h
  cases hdigits : digitsOf n with
  | nil =>
    rw [hdigits] at h
    cases h
  | cons c tail =>
    rw [hdigits, List.head?_cons, Option.some.injEq] at h
    exact Json.head_toDigits hn tail (h ▸ hdigits)

theorem exponentText_eq (width : Nat) (e : Int) :
    ∃ sign ds, (sign = '+' ∨ sign = '-') ∧ Digits ds ∧ exponentText width e = sign :: ds := by
  refine ⟨_, _, ?_, (digits_digitsOf e.natAbs).padded _, rfl⟩
  by_cases he : e < 0
  · exact .inr (if_pos he)
  · exact .inl (if_neg he)

/-- A decimal is laid out in parts as the standard has them. -/
theorem numberParts_decimal (l : DecimalLayout) {x : Decimal} (hx : 0 < x.digits) :
    ∃ whole fraction exponent, NumberParts whole fraction exponent ∧
      l.decimal x = whole ++ (fraction ++ exponent) := by
  have hdigits := digits_digitsOf x.digits
  have hhead := head_digitsOf hx
  unfold decimal
  dsimp only
  generalize digitsOf x.digits = ds at hdigits hhead
  have hfirst (n : Nat) : (ds.take (n + 1)).head? ≠ some '0' := by
    rwa [List.head?_take, if_neg (Nat.succ_ne_zero n)]
  split
  · split
    · -- nothing in front of the point
      refine ⟨['0'], '.' :: (List.replicate ((-x.exponent).toNat - 1) '0' ++ ds), [], ?_, by simp⟩
      exact ⟨⟨by simp, by simp⟩, .inl rfl, .inr ⟨_, hdigits.padded _, rfl⟩, .inl rfl,
        .inl (by simp)⟩
    · split
      · -- nothing behind the point
        refine ⟨ds ++ List.replicate (x.exponent.toNat + 1 - ds.length) '0', ['.', '0'],
          [], ?_, by simp⟩
        refine ⟨hdigits.append (Json.isDigit_replicate_zero _), .inr ?_,
          .inr ⟨['0'], ?_, rfl⟩, .inl rfl, .inl (by simp)⟩
        · cases ds with
          | nil => exact absurd rfl hdigits.1
          | cons d ds => exact hhead
        · exact ⟨by simp, by simp⟩
      · -- the point is among the digits
        rename_i hlength
        have hdrop : ds.drop (x.exponent.toNat + 1) ≠ [] := by simpa using hlength
        refine ⟨ds.take (x.exponent.toNat + 1), '.' :: ds.drop (x.exponent.toNat + 1),
          [], ?_, by simp⟩
        exact ⟨hdigits.take _, .inr (hfirst _), .inr ⟨_, hdigits.drop hdrop, rfl⟩, .inl rfl,
          .inl (by simp)⟩
  · obtain ⟨sign, es, hsign, hes, heq⟩ := exponentText_eq l.exponentWidth x.exponent
    refine ⟨ds.take 1, if (ds.drop 1).isEmpty then [] else '.' :: ds.drop 1,
      'e' :: sign :: es, ?_, ?_⟩
    · refine ⟨hdigits.take 0, .inr (hfirst 0), ?_, .inr ⟨sign, es, hsign, hes, rfl⟩, .inr (by simp)⟩
      by_cases hempty : (ds.drop 1).isEmpty
      · exact .inl (if_pos hempty)
      · exact .inr ⟨ds.drop 1, hdigits.drop (by simpa using hempty), if_neg hempty⟩
    · rw [heq, List.append_assoc]

/-- A finite number is laid out in parts as the standard has them, behind a sign if it has one. -/
theorem numberParts_write (l : DecimalLayout) {x : Double} {m : Nat} {e : Int}
    (hx : x.magnitude = .finite m e) :
    ∃ whole fraction exponent, NumberParts whole fraction exponent ∧
      (l.write x).toList = (if x.negative then ['-'] else []) ++
        (whole ++ (fraction ++ exponent)) := by
  unfold write
  rw [hx]
  dsimp only
  by_cases hm : m = 0
  · refine ⟨['0'], ['.', '0'], [], ?_, by rw [if_pos hm, String.toList_ofList]; rfl⟩
    exact ⟨⟨by simp, by simp⟩, .inl rfl, .inr ⟨['0'], ⟨by simp, by simp⟩, rfl⟩, .inl rfl,
      .inl (by simp)⟩
  · have hpos := Decimal.digits_pos_shortest (Nat.pos_of_ne_zero hm) e
    obtain ⟨whole, fraction, exponent, hparts, heq⟩ := numberParts_decimal l hpos
    exact ⟨whole, fraction, exponent, hparts, by rw [if_neg hm, heq, String.toList_ofList]⟩

/-- A finite number is read back as it is written. -/
theorem number?_write (l : DecimalLayout) {x : Double} {m : Nat} {e : Int}
    (hx : x.magnitude = .finite m e) :
    Json.number? (l.write x).toList = some (.number (l.write x), []) := by
  obtain ⟨whole, fraction, exponent, hparts, heq⟩ := numberParts_write l hx
  have hread := hparts.number?_eq x.negative
  rw [← heq, String.ofList_toList] at hread
  exact hread

end DecimalLayout

/-! ### Fragile parts of a document -/

namespace Json

mutual

/-- The parts of a document whose reading depends on how they are written: the numbers that are not
whole and the texts with half of a character. -/
def fragile : Json → List Json
  | number written => [number written]
  | broken ps => [broken ps]
  | array items => itemsFragile items
  | object members => membersFragile members
  | _ => []

/-- `fragile` for every item. -/
def itemsFragile : List Json → List Json
  | [] => []
  | item :: rest => fragile item ++ itemsFragile rest

/-- `fragile` for the value of every member. -/
def membersFragile : List (String × Json) → List Json
  | [] => []
  | (_, value) :: rest => fragile value ++ membersFragile rest

end

mutual

/-- Whether a document can be read back is a matter of its fragile parts. -/
theorem standard_iff : ∀ j : Json, j.Standard ↔ ∀ part ∈ j.fragile, part.Standard
  | number written | broken ps => by simp [fragile]
  | array items => by
    rw [Standard, fragile]
    exact itemsStandard_iff_fragile items
  | object members => by
    rw [Standard, fragile]
    exact membersStandard_iff_fragile members
  | null | bool _ | int _ | text _ => by simp [Standard, fragile]

theorem itemsStandard_iff_fragile : ∀ items : List Json,
    ItemsStandard items ↔ ∀ part ∈ itemsFragile items, part.Standard
  | [] => by simp [ItemsStandard, itemsFragile]
  | item :: rest => by
    rw [ItemsStandard, itemsFragile, List.forall_mem_append, standard_iff item,
      itemsStandard_iff_fragile rest]

theorem membersStandard_iff_fragile : ∀ members : List (String × Json),
    MembersStandard members ↔ ∀ part ∈ membersFragile members, part.Standard
  | [] => by simp [MembersStandard, membersFragile]
  | (name, value) :: rest => by
    rw [MembersStandard, membersFragile, List.forall_mem_append, standard_iff value,
      membersStandard_iff_fragile rest]

end

theorem membersFragile_append (ms ns : List (String × Json)) :
    membersFragile (ms ++ ns) = membersFragile ms ++ membersFragile ns := by
  induction ms with
  | nil => rfl
  | cons m ms ih => rw [List.cons_append, membersFragile, membersFragile, ih, List.append_assoc]

/-- A text is no number, whatever its code points are. -/
theorem number_notMem_fragile_ofPoints (written : String) (ps : List CodePoint) :
    number written ∉ (ofPoints ps).fragile := by
  unfold ofPoints
  split <;> simp [fragile]

end Json

end CredentialWrites
