import CredentialWrites.Text.Points
import Mathlib.Data.List.Chain

/-!
# Halves next to each other

A first half and a second half right behind it are the halves of one character. A text is joined by
putting that character in the place of both, wherever two halves meet. Of two neighbours one at most
is joined to another code point, so that one pass is enough.

* `CodePoint.pair?` : the character that two neighbours are the halves of.
* `Text.Unpaired` : no two neighbours are the halves of a character.
* `Text.joined` : the text with every two such halves joined.
* `Text.joined_eq_self_iff` : joining changes the texts in which two halves meet, and no others.
-/

namespace CredentialWrites

namespace CodePoint

/-- The character that two neighbours are the halves of. -/
def pair? : CodePoint → CodePoint → Option Char
  | half h, half k =>
    if h.isFirst && !k.isFirst then some (Text.charOfHalves h.number k.number) else none
  | _, _ => none

theorem pair?_eq_some_iff {p q : CodePoint} {c : Char} :
    p.pair? q = some c ↔ ∃ h k : Half, p = half h ∧ q = half k ∧ h.isFirst = true ∧
      k.isFirst = false ∧ Text.charOfHalves h.number k.number = c := by
  cases p with
  | char d => simp [pair?]
  | half h =>
    cases q with
    | char d => simp [pair?]
    | half k => simp [pair?, and_assoc]

end CodePoint

namespace Text

open CodePoint

variable {p : CodePoint} {ps : List CodePoint}

/-- Two halves are those of a character with the number that they have together. -/
theorem toNat_charOfHalves {first second : Nat} (hfirst : 0xD800 ≤ first ∧ first < 0xDC00)
    (hsecond : 0xDC00 ≤ second ∧ second < 0xE000) :
    (charOfHalves first second).toNat =
      0x10000 + (first - 0xD800) * 0x400 + (second - 0xDC00) := by
  have hvalid : (0x10000 + (first - 0xD800) * 0x400 + (second - 0xDC00)).isValidChar := by
    refine .inr ?_
    omega
  rw [charOfHalves, Char.ofNat, dif_pos hvalid]
  rfl

/-- No two neighbours are the halves of a character. -/
def Unpaired (ps : List CodePoint) : Prop :=
  ps.IsChain fun p q => p.pair? q = none

instance (ps : List CodePoint) : Decidable (Unpaired ps) :=
  inferInstanceAs (Decidable (ps.IsChain fun p q => p.pair? q = none))

/-- A code point in front of a text, joined to the first one of the text if both are the halves of a
character. -/
def attach (p : CodePoint) : List CodePoint → List CodePoint
  | [] => [p]
  | q :: ps => match p.pair? q with
    | some c => .char c :: ps
    | none => p :: q :: ps

/-- The text with every two halves of a character joined. -/
def joined (ps : List CodePoint) : List CodePoint :=
  ps.foldr attach []

@[simp] theorem joined_cons (p : CodePoint) (ps : List CodePoint) :
    joined (p :: ps) = attach p (joined ps) :=
  rfl

theorem unpaired_points (s : String) : Unpaired (points s) := by
  rw [Unpaired, points, List.isChain_map]
  exact List.Pairwise.isChain (List.pairwise_of_forall fun _ _ => rfl)

/-- What is put in front is paired with nothing, since a character never is. -/
theorem unpaired_attach (h : Unpaired ps) : Unpaired (attach p ps) := by
  cases ps with
  | nil => exact List.isChain_singleton p
  | cons q ps =>
    cases hpair : p.pair? q with
    | none =>
      simp only [attach, hpair]
      exact List.isChain_cons_cons.2 ⟨hpair, h⟩
    | some c =>
      simp only [attach, hpair]
      exact List.isChain_cons.2 ⟨fun _ _ => rfl, (List.isChain_cons.1 h).2⟩

theorem unpaired_joined (ps : List CodePoint) : Unpaired (joined ps) := by
  induction ps with
  | nil => exact List.isChain_nil
  | cons p ps ih => exact unpaired_attach ih

theorem joined_eq_self (h : Unpaired ps) : joined ps = ps := by
  induction ps with
  | nil => rfl
  | cons p ps ih =>
    obtain ⟨hhead, htail⟩ := List.isChain_cons.1 h
    rw [joined_cons, ih htail]
    cases ps with
    | nil => rfl
    | cons q ps =>
      have hpair : p.pair? q = none := hhead q rfl
      simp only [attach, hpair]

/-- Joining changes the texts in which the halves of a character meet, and no others. -/
theorem joined_eq_self_iff : joined ps = ps ↔ Unpaired ps :=
  ⟨fun h => h ▸ unpaired_joined ps, joined_eq_self⟩

end Text

end CredentialWrites
