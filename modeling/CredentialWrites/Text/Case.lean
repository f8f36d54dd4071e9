import CredentialWrites.Text.CaseTable

/-!
# Letter case

The lower-case and upper-case forms of a text, for every script. A form may be longer than its
letter, and a capital sigma becomes the final small sigma at the end of a word.
-/

namespace CredentialWrites

namespace Text

/-- The image of a character under a table of runs and a table of longer images. -/
def caseImage (runs : List CaseRun) (expansions : List (Nat × List Nat)) (c : Char) : List Char :=
  match expansions.lookup c.toNat with
  | some image => image.map Char.ofNat
  | none =>
    match runs.find? (·.contains c) with
    | some r => [r.image c]
    | none => [c]

/-- The lower-case form of a character, its place in the word apart. -/
def lowerChar (c : Char) : List Char :=
  caseImage lowerRuns lowerExpansions c

/-- The upper-case form of a character. -/
def upperChar (c : Char) : List Char :=
  caseImage upperRuns upperExpansions c

/-- The nearest character that is not skipped in words is cased. -/
def meetsCased (cs : List Char) : Bool :=
  match cs.dropWhile (Range.mem caseIgnorableRanges) with
  | c :: _ => Range.mem casedRanges c
  | [] => false

/-- The lower-case form of the characters that follow `before`, which stands in reverse order. -/
def lowerFrom (before : List Char) : List Char → List Char
  | [] => []
  | c :: rest =>
    (if c = 'Σ' then [if meetsCased before && !meetsCased rest then 'ς' else 'σ'] else lowerChar c)
      ++ lowerFrom (c :: before) rest

/-- The lower-case form of a text. -/
def lower (s : String) : String :=
  String.ofList (lowerFrom [] s.toList)

/-- The upper-case form of a text. -/
def upper (s : String) : String :=
  String.ofList (s.toList.flatMap upperChar)

end Text

end CredentialWrites
