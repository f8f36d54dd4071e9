/-!
# Binary floating-point numbers of double precision

A number of 53 significant bits with an exponent between `-1074` and `971`, or an infinity, as exact
data: the value is the mantissa times a power of two. What is no number at all is not part of the
type.

* `Double.ofRatio` : the number nearest to a ratio of natural numbers, a tie going to the even
  mantissa.
* `Double.toInt?` : the whole number that a value is; both zeros are the same one.
-/

namespace CredentialWrites

/-- The size of a number without its sign. -/
inductive Magnitude where
  | finite (mantissa : Nat) (exponent : Int)
  | infinite
deriving Repr, DecidableEq

/-- A signed number: mantissa times two to the exponent. -/
structure Double where
  negative : Bool
  magnitude : Magnitude
deriving Repr, DecidableEq

namespace Double

/-- The smallest exponent. -/
def minExponent : Int := -1074

/-- The largest exponent. -/
def maxExponent : Int := 971

/-- The number of bits of a mantissa. -/
def precision : Nat := 53

/-- The quotient rounded to the nearest whole number, a tie going to the even one. -/
def roundQuotient (n d : Nat) : Nat :=
  let q := n / d
  let r := n % d
  if 2 * r < d then q else if d < 2 * r then q + 1 else if q % 2 = 0 then q else q + 1

/-- The ratio divided by two to the exponent, as numerator and denominator. -/
def scaleDown (n d : Nat) (exponent : Int) : Nat × Nat :=
  if 0 ≤ exponent then (n, d * Nat.pow 2 exponent.toNat) else (n * Nat.pow 2 (-exponent).toNat, d)

/-- The exponent at which the ratio has a mantissa of full precision, or the smallest exponent. -/
def exponentOf (n d : Nat) : Int :=
  let e : Int := (Nat.log2 n : Int) - Nat.log2 d - (precision : Int) + 1
  let (n', d') := scaleDown n d e
  let e := if n' / d' < Nat.pow 2 (precision - 1) then e - 1
    else if Nat.pow 2 precision ≤ n' / d' then e + 1 else e
  max e minExponent

/-- Mantissa and exponent with the mantissa in range, or an infinity. -/
def normalize (mantissa : Nat) (exponent : Int) : Magnitude :=
  let (m, e) := if mantissa = Nat.pow 2 precision then (Nat.pow 2 (precision - 1), exponent + 1)
    else (mantissa, exponent)
  if maxExponent < e then .infinite else .finite m e

/-- The size nearest to a ratio. -/
def magnitudeOfRatio (n d : Nat) : Magnitude :=
  if n = 0 then .finite 0 minExponent
  else
    let e := exponentOf n d
    let (n', d') := scaleDown n d e
    normalize (roundQuotient n' d') e

/-- The number nearest to a ratio with a sign. -/
def ofRatio (negative : Bool) (n d : Nat) : Double :=
  ⟨negative, magnitudeOfRatio n d⟩

/-- The number nearest to a decimal: digits times ten to the exponent. A decimal from `10 ^ 400` on
is beyond the largest number, and one below `2 ^ (-1080)` is nearest to zero, since `10` is above `2
^ 3`; so neither needs its power of ten. -/
def ofDecimal (negative : Bool) (digits : Nat) (exponent : Int) : Double :=
  if digits = 0 || (Nat.log2 digits : Int) + 1 + 3 * exponent < -1080 then
    ⟨negative, .finite 0 minExponent⟩
  else if 400 < exponent then ⟨negative, .infinite⟩
  else if 0 ≤ exponent then ofRatio negative (digits * Nat.pow 10 exponent.toNat) 1
  else ofRatio negative digits (Nat.pow 10 (-exponent).toNat)

/-- The value is zero. -/
def isZero (x : Double) : Bool :=
  match x.magnitude with
  | .finite m _ => m == 0
  | .infinite => false

/-- The whole number that the value is, if it is one. -/
def toInt? (x : Double) : Option Int :=
  match x.magnitude with
  | .infinite => none
  | .finite m e =>
    let sign (n : Nat) : Int := if x.negative then -(n : Int) else n
    if 0 ≤ e then some (sign (m * Nat.pow 2 e.toNat))
    else if m % Nat.pow 2 (-e).toNat = 0 then some (sign (m / Nat.pow 2 (-e).toNat))
    else none

/-- The value without its fraction, or nothing for an infinity. -/
def truncate? (x : Double) : Option Int :=
  match x.magnitude with
  | .infinite => none
  | .finite m e =>
    let sign (n : Nat) : Int := if x.negative then -(n : Int) else n
    if 0 ≤ e then some (sign (m * Nat.pow 2 e.toNat)) else some (sign (m / Nat.pow 2 (-e).toNat))

/-- Numerator and denominator of the size, or nothing for an infinity. -/
def ratio? (x : Double) : Option (Nat × Nat) :=
  match x.magnitude with
  | .infinite => none
  | .finite m e => some (if 0 ≤ e then (m * Nat.pow 2 e.toNat, 1) else (m, Nat.pow 2 (-e).toNat))

/-- The number nearest to a whole number. -/
def ofInt (i : Int) : Double :=
  ofRatio (i < 0) i.natAbs 1

end Double

end CredentialWrites
