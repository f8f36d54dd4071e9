import CredentialWrites.Vocabulary
import CredentialWrites.Text.Quoted

/-!
# Words

The texts that callers give for identifiers, zones, names and passwords. The members of the logging
vocabularies are texts too, equal to their tokens, and a message shows them by their names.

* `Word.text` : the characters of a word.
* `Word.shown` : the word as part of a message.
-/

namespace CredentialWrites

/-- A text as callers give it. -/
inductive Word where
  | plain (s : String)
  | level (m : LogLevel)
  | format (m : LogFormat)
deriving Repr, DecidableEq

namespace Word

/-- The characters of a word. -/
def text : Word → String
  | plain s => s
  | level m => m.token
  | format m => m.token

/-- A word as part of a message. -/
def shown : Word → String
  | plain s => s
  | level m => (Member.logLevel m).fullName
  | format m => (Member.logFormat m).fullName

/-- A word in its quoted form. -/
def quoted : Word → String
  | plain s => Text.quoted s
  | level m => (Member.logLevel m).display
  | format m => (Member.logFormat m).display

end Word

end CredentialWrites
