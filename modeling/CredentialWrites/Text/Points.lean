/-!
# Code points

A text is a sequence of code points. A code point is a character, or half of a character beyond the
basic plane. Halves come from numbers that are written as characters; a text that is given is one of
characters.

* `CodePoint` : a character, or half of one that stands alone.
* `Text.points` : the code points of a text of characters.
* `Text.ofPoints?` : the text that code points are, unless a half is among them.
-/

namespace CredentialWrites

/-- Half of a character beyond the basic plane, by its number. -/
structure Half where
  number : Nat
  low : 0xD800 ≤ number
  high : number < 0xE000
deriving Repr, DecidableEq

namespace Half

/-- The half is a first one, behind which a second one is to stand. -/
def isFirst (h : Half) : Bool :=
  h.number < 0xDC00

end Half

/-- A character, or half of one that stands alone. -/
inductive CodePoint where
  | char (c : Char)
  | half (h : Half)
deriving Repr, DecidableEq

namespace CodePoint

/-- The code point with a number. -/
def ofNat (n : Nat) : CodePoint :=
  if h : 0xD800 ≤ n ∧ n < 0xE000 then half ⟨n, h.1, h.2⟩ else char (Char.ofNat n)

/-- The number of a code point. -/
def number : CodePoint → Nat
  | char c => c.toNat
  | half h => h.number

end CodePoint

namespace Text

/-- The character with two halves, by their numbers. -/
def charOfHalves (first second : Nat) : Char :=
  Char.ofNat (0x10000 + (first - 0xD800) * 0x400 + (second - 0xDC00))

/-- The code points of a text of characters. -/
def points (s : String) : List CodePoint :=
  s.toList.map .char

/-- The characters that code points are, unless a half is among them. -/
def chars? : List CodePoint → Option (List Char)
  | [] => some []
  | .char c :: ps => (chars? ps).map (c :: ·)
  | .half _ :: _ => none

/-- The text that code points are, unless a half is among them. -/
def ofPoints? (ps : List CodePoint) : Option String :=
  (chars? ps).map String.ofList

theorem chars?_eq_some_iff {ps : List CodePoint} {cs : List Char} :
    chars? ps = some cs ↔ cs.map .char = ps := by
  induction ps generalizing cs with
  | nil => simp [chars?, eq_comm]
  | cons p ps ih =>
    cases p with
    | char c =>
      cases cs with
      | nil => simp [chars?]
      | cons d ds =>
        simp only [chars?, Option.map_eq_some_iff, List.map_cons, List.cons.injEq,
          CodePoint.char.injEq, ← ih]
        exact ⟨fun ⟨_, hps, hc, hds⟩ => ⟨hc.symm, hds ▸ hps⟩,
          fun ⟨hc, hps⟩ => ⟨ds, hps, hc.symm, rfl⟩⟩
    | half h => cases cs <;> simp [chars?]

theorem ofPoints?_eq_some_iff {ps : List CodePoint} {s : String} :
    ofPoints? ps = some s ↔ points s = ps := by
  rw [ofPoints?, points, Option.map_eq_some_iff]
  constructor
  · rintro ⟨cs, hcs, rfl⟩
    rw [String.toList_ofList, chars?_eq_some_iff.1 hcs]
  · intro h
    exact ⟨s.toList, chars?_eq_some_iff.2 h, String.ofList_toList⟩

theorem ofPoints?_points (s : String) : ofPoints? (points s) = some s :=
  ofPoints?_eq_some_iff.2 rfl

theorem eq_of_points_eq {s t : String} (h : points s = points t) : s = t :=
  Option.some.inj ((ofPoints?_points s).symm.trans (h ▸ ofPoints?_points t))

end Text

end CredentialWrites
