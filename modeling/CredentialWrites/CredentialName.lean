import CredentialWrites.Argument

/-!
# Names of credentials

A name is a path such as `/my-app/db-password`. A name can be given as a whole, or by its segments,
each of which may have separators around it.

* `CredentialName.ofValue` : a name given as a whole.
* `CredentialName.ofSegments` : a name from its segments.
-/

namespace CredentialWrites

/-- The name of a credential. -/
structure CredentialName where
  word : Word
deriving Repr, DecidableEq

namespace CredentialName

/-- What stands in front of every segment. -/
def separator : Char := '/'

/-- The name that a text is. -/
def ofValue (v : Value) : Except Fault CredentialName := do
  return ⟨← Argument.word "name" v⟩

/-- The characters of a segment without separators around them. -/
def stripSegment (cs : List Char) : List Char :=
  Text.trimChars (· = separator) cs

/-- A segment without separators around it, of which something has to be left. -/
def segment (v : Value) : Except Fault (List Char) := do
  let w ← Argument.word "segment" v
  let stripped := stripSegment w.text.toList
  if stripped.isEmpty then .error (.argument (.emptySegment w.text)) else return stripped

/-- The path of some segments. -/
def path (segments : List (List Char)) : List Char :=
  segments.flatMap (separator :: ·)

/-- The name with the given segments. -/
def ofSegments (vs : List Value) : Except Fault CredentialName :=
  if vs.isEmpty then .error (.argument .noSegments)
  else do
    let segments ← vs.mapM segment
    return ⟨.plain (String.ofList (path segments))⟩

/-- The value that a name is. -/
def toValue (n : CredentialName) : Value :=
  .record .name [.ofWord n.word]

end CredentialName

end CredentialWrites
