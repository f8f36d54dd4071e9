import CredentialWrites.Number.Double

/-!
# The shortest decimal of a number

The fewest significant digits that read back as the number, and of those the nearest to it. A
decimal reads back if it lies between the midpoints to the neighbouring numbers, the midpoints
included iff the mantissa is even. For each count of digits only the two decimals on either side of
the value can be the answer, so the first count at which one of them reads back decides.

How the digits are laid out is a matter of the format, which a `DecimalLayout` states.
-/

namespace CredentialWrites

/-- Significant digits as a number, and the power of ten of the first of them. -/
structure Decimal where
  digits : Nat
  exponent : Int
deriving Repr, DecidableEq

namespace Decimal

/-- The digits without the zeros at their end. -/
def stripZeros : Nat → Nat → Nat
  | 0, n => n
  | fuel + 1, n => if n ≠ 0 && n % 10 = 0 then stripZeros fuel (n / 10) else n

/-- The power of ten of the first digit of a positive ratio, from a guess that is at most two
off. -/
def leadingExponent (n d : Nat) : Int :=
  let guess : Int := ((Nat.log2 n : Int) - Nat.log2 d) * 30103 / 100000
  let fits (k : Int) : Bool :=
    if 0 ≤ k then d * Nat.pow 10 k.toNat ≤ n else d ≤ n * Nat.pow 10 (-k).toNat
  if fits (guess + 2) then guess + 2
  else if fits (guess + 1) then guess + 1
  else if fits guess then guess
  else if fits (guess - 1) then guess - 1
  else guess - 2

/-- The decimal with the given number of significant digits on either side of a number, if one of
the two reads back as the number, the nearer if both do. -/
def candidate (mantissa : Nat) (exponent : Int) (count : Nat) (leading : Int) : Option Decimal :=
  let p : Int := leading - count + 1
  -- a quarter of the last binary place is the unit; a decimal `c` stands for `c * up / down` of it
  let q : Int := exponent - 2
  let up := Nat.pow 10 p.toNat * Nat.pow 2 (-q).toNat
  let down := Nat.pow 10 (-p).toNat * Nat.pow 2 q.toNat
  let value := 4 * mantissa
  let low := if mantissa = Nat.pow 2 52 && Double.minExponent < exponent then value - 1
    else value - 2
  let high := value + 2
  let even := mantissa % 2 = 0
  let reads (c : Nat) : Bool :=
    if even then low * down ≤ c * up && c * up ≤ high * down
    else low * down < c * up && c * up < high * down
  let below := value * down / up
  let above := below + 1
  let toBelow := value * down - below * up
  let toAbove := above * up - value * down
  let answer (c : Nat) : Decimal :=
    if Nat.pow 10 count ≤ c then ⟨stripZeros 20 c, leading + 1⟩ else ⟨stripZeros 20 c, leading⟩
  if reads below && (!reads above || toBelow <
    toAbove || (toBelow == toAbove && below % 2 == 0)) then
    some (answer below)
  else if reads above then some (answer above)
  else none

/-- The shortest decimal of a positive finite number. -/
def shortest (mantissa : Nat) (exponent : Int) : Decimal :=
  let (n, d) := if 0 ≤ exponent then (mantissa * Nat.pow 2 exponent.toNat, 1)
    else (mantissa, Nat.pow 2 (-exponent).toNat)
  let leading := leadingExponent n d
  ((List.range 17).findSome? fun i => candidate mantissa exponent (i + 1) leading).getD
    ⟨mantissa, leading⟩

end Decimal

/-- How the digits of a number are laid out. -/
structure DecimalLayout where
  /-- The smallest exponent that is written without an exponent. -/
  leastPositional : Int
  /-- The largest exponent that is written without an exponent. -/
  greatestPositional : Int
  /-- The least number of digits of an exponent. -/
  exponentWidth : Nat
  /-- The word for an infinity. -/
  infinity : String
deriving Repr

namespace DecimalLayout

/-- The digits of a natural number. -/
def digitsOf (n : Nat) : List Char :=
  Nat.toDigits 10 n

/-- An exponent with its sign, filled with zeros to a width. -/
def exponentText (width : Nat) (e : Int) : List Char :=
  let ds := digitsOf e.natAbs
  (if e < 0 then '-' else '+') :: (List.replicate (width - ds.length) '0' ++ ds)

/-- A decimal in the layout. A positional number shows a fraction always, a number with an exponent
only if there is one. -/
def decimal (l : DecimalLayout) (x : Decimal) : List Char :=
  let ds := digitsOf x.digits
  if l.leastPositional ≤ x.exponent && x.exponent ≤ l.greatestPositional then
    if x.exponent < 0 then
      '0' :: '.' :: (List.replicate ((-x.exponent).toNat - 1) '0' ++ ds)
    else
      let whole := x.exponent.toNat + 1
      if ds.length ≤ whole then ds ++ List.replicate (whole - ds.length) '0' ++ ['.', '0']
      else ds.take whole ++ '.' :: ds.drop whole
  else
    let fraction := ds.drop 1
    ds.take 1 ++ (if fraction.isEmpty then [] else '.' :: fraction)
      ++ 'e' :: exponentText l.exponentWidth x.exponent

/-- A number in the layout. -/
def write (l : DecimalLayout) (x : Double) : String :=
  let sign := if x.negative then ['-'] else []
  match x.magnitude with
  | .infinite => String.ofList (sign ++ l.infinity.toList)
  | .finite m e =>
    if m = 0 then String.ofList (sign ++ ['0', '.', '0'])
    else String.ofList (sign ++ l.decimal (Decimal.shortest m e))

/-- The layout of numbers in messages and in member names: positional from `1e-4` to below `1e16`,
and exponents of two digits. -/
def display : DecimalLayout := ⟨-4, 15, 2, "inf"⟩

/-- The layout of numbers in documents on the wire: positional from `1e-5` to below `1e16`. -/
def wire : DecimalLayout := ⟨-5, 15, 1, "null"⟩

/-- The layout of numbers in log lines, in which an infinity is a bare word. -/
def log : DecimalLayout := ⟨-4, 15, 2, "Infinity"⟩

end DecimalLayout

end CredentialWrites
