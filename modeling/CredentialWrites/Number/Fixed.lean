import CredentialWrites.Number.Shortest

/-!
# Decimals of a given length

A ratio rounded to a number of places after the point, or to a number of significant digits, a tie
going to the even digit; and the three layouts built on that: positional, with an exponent, and
whichever of the two is shorter.

* `Fixed.positional`, `Fixed.scientific`, `Fixed.general` : the layouts.
-/

namespace CredentialWrites

namespace Fixed

/-- The digits of a number, filled with zeros to a width. -/
def padded (width n : Nat) : List Char :=
  let ds := Nat.toDigits 10 n
  List.replicate (width - ds.length) '0' ++ ds

/-- A point with the digits behind it, which stands alone only if it is kept. -/
def fraction (keepPoint : Bool) (ds : List Char) : List Char :=
  if ds.isEmpty && !keepPoint then [] else '.' :: ds

/-- A ratio with a number of places after the point. -/
def positional (keepPoint : Bool) (places n d : Nat) : List Char :=
  let ds := padded (places + 1) (Double.roundQuotient (n * Nat.pow 10 places) d)
  let whole := ds.length - places
  ds.take whole ++ fraction keepPoint (ds.drop whole)

/-- A ratio rounded to a number of significant digits: the digits as one number, and the power of
ten of the first of them. -/
def significant (count n d : Nat) : Nat × Int :=
  if n = 0 then (0, 0)
  else
    let e := Decimal.leadingExponent n d
    let shift : Int := count - 1 - e
    let m := if 0 ≤ shift then Double.roundQuotient (n * Nat.pow 10 shift.toNat) d
      else Double.roundQuotient n (d * Nat.pow 10 (-shift).toNat)
    if m = Nat.pow 10 count then (Nat.pow 10 (count - 1), e + 1) else (m, e)

/-- Digits with an exponent of at least two digits. -/
def withExponent (keepPoint : Bool) (ds : List Char) (e : Int) : List Char :=
  ds.take 1 ++ fraction keepPoint (ds.drop 1) ++ 'e' :: DecimalLayout.exponentText 2 e

/-- A ratio with an exponent and a number of places after the point. -/
def scientific (keepPoint : Bool) (places n d : Nat) : List Char :=
  let (m, e) := significant (places + 1) n d
  withExponent keepPoint (padded (places + 1) m) e

/-- The digits without the zeros at their end. -/
def stripZeros (ds : List Char) : List Char :=
  (ds.reverse.dropWhile (· = '0')).reverse

/-- More significant digits than the exact decimal of a double has. -/
def enoughDigits : Nat := 1100

/-- A ratio with a number of significant digits, positional unless it is very small or has more
digits in front of the point. Zeros at the end are only kept with the point. -/
def general (keepPoint : Bool) (count n d : Nat) : List Char :=
  let count := if keepPoint then max count 1 else min (max count 1) enoughDigits
  let (m, e) := significant count n d
  let ds := padded count m
  let keep (cs : List Char) : List Char := if keepPoint then cs else stripZeros cs
  if -4 ≤ e && e < count then
    if e < 0 then
      '0' :: fraction keepPoint (List.replicate ((-e).toNat - 1) '0' ++ keep ds)
    else
      let whole := e.toNat + 1
      ds.take whole ++ fraction keepPoint (keep (ds.drop whole))
  else
    withExponent keepPoint (ds.take 1 ++ keep (ds.drop 1)) e

end Fixed

end CredentialWrites
