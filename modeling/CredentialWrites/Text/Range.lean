/-!
# Classes of characters as ranges of code points

A class of characters is a list of ranges; a character belongs to it if its code point lies in one
of them.

* `Text.Range.mem_iff` : membership in a class, said without the list's order.
-/

namespace CredentialWrites

namespace Text

/-- The code points from `first` to `last`, both included. -/
structure Range where
  first : Nat
  last : Nat
deriving Repr, DecidableEq

namespace Range

/-- The character lies in the range. -/
def contains (r : Range) (c : Char) : Bool :=
  r.first ≤ c.toNat && c.toNat ≤ r.last

/-- The character lies in one of the ranges. -/
def mem (rs : List Range) (c : Char) : Bool :=
  rs.any (·.contains c)

theorem mem_iff {rs : List Range} {c : Char} :
    mem rs c = true ↔ ∃ r ∈ rs, r.first ≤ c.toNat ∧ c.toNat ≤ r.last := by
  simp [mem, contains]

end Range

end Text

end CredentialWrites
