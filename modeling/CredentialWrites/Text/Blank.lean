import CredentialWrites.Text.Range

/-!
# Blank characters

White space of every script, the four information separators included, and the removal of it from
both ends of a text.

* `Text.isBlank` : the characters that are blank.
* `Text.trim` : a text without the members of a class at either end.
-/

namespace CredentialWrites

namespace Text

/-- The ranges of blank characters. -/
def blankRanges : List Range :=
  [⟨0x9, 0xD⟩, ⟨0x1C, 0x20⟩, ⟨0x85, 0x85⟩, ⟨0xA0, 0xA0⟩, ⟨0x1680, 0x1680⟩, ⟨0x2000, 0x200A⟩,
   ⟨0x2028, 0x2029⟩, ⟨0x202F, 0x202F⟩, ⟨0x205F, 0x205F⟩, ⟨0x3000, 0x3000⟩]

/-- The character is blank. -/
def isBlank (c : Char) : Bool :=
  Range.mem blankRanges c

/-- The characters without the members of a class at either end. -/
def trimChars (p : Char → Bool) (cs : List Char) : List Char :=
  ((cs.dropWhile p).reverse.dropWhile p).reverse

/-- The text without the members of a class at either end. -/
def trim (p : Char → Bool) (s : String) : String :=
  String.ofList (trimChars p s.toList)

end Text

end CredentialWrites
