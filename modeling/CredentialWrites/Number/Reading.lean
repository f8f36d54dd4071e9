import CredentialWrites.Number.Double
import CredentialWrites.Text.Blank

/-!
# Reading a number from decimal text

A sign, digits with an optional point, and an optional exponent; or one of the words for an infinity
or for what is no number. Single underscores may stand between digits, and blanks around the whole.
-/

namespace CredentialWrites

namespace Number

/-- What a text can denote as a floating-point number. -/
inductive Reading where
  | number (x : Double)
  | notANumber
deriving Repr, DecidableEq

/-- The value of decimal digits that follow a value already read. -/
def digitsValue (before : Nat) (cs : List Char) : Nat :=
  cs.foldl (fun n c => n * 10 + (c.toNat - 48)) before

/-- The digits without single underscores between them, or nothing if an underscore stands
elsewhere. -/
def joinDigits? : List Char → Option (List Char)
  | [] => some []
  | [c] => if c.isDigit then some [c] else none
  | c :: '_' :: d :: rest =>
    if c.isDigit && d.isDigit then (c :: ·) <$> joinDigits? (d :: rest) else none
  | c :: rest => if c.isDigit then (c :: ·) <$> joinDigits? rest else none

/-- The text is split at the first character of a class. -/
def splitAt (p : Char → Bool) (cs : List Char) : List Char × Option (List Char) :=
  match cs.dropWhile (!p ·) with
  | [] => (cs, none)
  | _ :: rest => (cs.takeWhile (!p ·), some rest)

/-- A sign and what follows it. -/
def splitSign : List Char → Bool × List Char
  | '-' :: rest => (true, rest)
  | '+' :: rest => (false, rest)
  | cs => (false, cs)

/-- The exponent that a text denotes. -/
def exponent? (cs : List Char) : Option Int :=
  let (negative, digits) := splitSign cs
  match joinDigits? digits with
  | some (d :: ds) =>
    let n := digitsValue 0 (d :: ds)
    some (if negative then -(n : Int) else n)
  | _ => none

/-- The number that digits with a point and an exponent denote. -/
def decimal? (negative : Bool) (cs : List Char) : Option Double :=
  let (body, tail) := splitAt (fun c => c = 'e' || c = 'E') cs
  let (whole, fraction) := splitAt (· = '.') body
  match joinDigits? whole, joinDigits? (fraction.getD []), tail.elim (some 0) exponent? with
  | some w, some f, some e =>
    if w.isEmpty && f.isEmpty then none
    else some (Double.ofDecimal negative (digitsValue (digitsValue 0 w) f) (e - f.length))
  | _, _, _ => none

/-- The number that a text denotes. -/
def read? (s : String) : Option Reading :=
  let (negative, body) := splitSign (Text.trimChars Text.isBlank s.toList)
  let word := String.ofList (body.map Char.toLower)
  if word = "inf" || word = "infinity" then some (.number ⟨negative, .infinite⟩)
  else if word = "nan" then some .notANumber
  else .number <$> decimal? negative body

end Number

end CredentialWrites
