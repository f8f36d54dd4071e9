import CredentialWrites.Number.Fixed

/-!
# The time of a log line

A moment of universal time to the microsecond, and its two written forms: the full one, in which the
fraction is left out if it is zero, and the time of day to the millisecond.
-/

namespace CredentialWrites

/-- A moment of universal time. -/
structure Clock where
  year : Nat
  month : Nat
  day : Nat
  hour : Nat
  minute : Nat
  second : Nat
  microsecond : Nat
deriving Repr, DecidableEq

namespace Clock

/-- The digits of a part, filled with zeros to a width. -/
def part (width n : Nat) : String :=
  String.ofList (Fixed.padded width n)

/-- The time of day to the second. -/
def time (c : Clock) : String :=
  part 2 c.hour ++ ":" ++ part 2 c.minute ++ ":" ++ part 2 c.second

/-- The full form with the offset from universal time. -/
def timestamp (c : Clock) : String :=
  part 4 c.year ++ "-" ++ part 2 c.month ++ "-" ++ part 2 c.day ++ "T" ++ c.time
    ++ (if c.microsecond = 0 then "" else "." ++ part 6 c.microsecond) ++ "+00:00"

/-- The time of day to the millisecond. -/
def timeOfDay (c : Clock) : String :=
  c.time ++ "." ++ part 3 (c.microsecond / 1000)

end Clock

end CredentialWrites
