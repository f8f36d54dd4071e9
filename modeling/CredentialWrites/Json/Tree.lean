import CredentialWrites.Text.Points

/-!
# JSON documents

A document as a tree. The members of an object stand in an order, and nothing keeps two of them from
having one name. A whole number is exact; any other number is the text that it is written with. A
text is one of characters, or has half of a character in it.
-/

namespace CredentialWrites

/-- A document. -/
inductive Json where
  | null
  | bool (b : Bool)
  | int (i : Int)
  /-- A number that is not a whole one, as it is written. -/
  | number (written : String)
  | text (s : String)
  /-- A text with half of a character in it. -/
  | broken (points : List CodePoint)
  | array (items : List Json)
  | object (members : List (String × Json))
deriving Repr, Inhabited

/-- The text with some code points. -/
def Json.ofPoints (ps : List CodePoint) : Json :=
  match Text.ofPoints? ps with
  | some s => text s
  | none => broken ps

theorem Json.ofPoints_points (s : String) : ofPoints (Text.points s) = text s := by
  rw [ofPoints, Text.ofPoints?_points]

theorem Json.ofPoints_eq_broken {ps : List CodePoint} (h : Text.ofPoints? ps = none) :
    ofPoints ps = broken ps := by
  rw [ofPoints, h]

/-- Texts with other code points are other documents. -/
theorem Json.ofPoints_inj {ps qs : List CodePoint} : ofPoints ps = ofPoints qs ↔ ps = qs := by
  refine ⟨fun h => ?_, congrArg ofPoints⟩
  unfold ofPoints at h
  split at h <;> split at h <;> cases h
  · exact (Text.ofPoints?_eq_some_iff.1 ‹_›).symm.trans (Text.ofPoints?_eq_some_iff.1 ‹_›)
  · rfl

end CredentialWrites
