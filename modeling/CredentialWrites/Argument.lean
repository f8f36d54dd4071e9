import CredentialWrites.Text.Blank
import CredentialWrites.Text.Case
import CredentialWrites.Value.Display

/-!
# Checks of arguments

Every argument of the builders is checked before anything is changed, so that a refused call leaves
its builder as it was. A missing argument is told from one of the wrong kind, and the fault names
the parameter.

An operation may be given by its token, in any letter case and with blanks around it.

* `Argument.word`, `Argument.mapping`, `Argument.operation` : the checks.
* `Argument.named` : a check for a parameter with any name.
-/

namespace CredentialWrites

namespace Operation

/-- The operation with a token, which may be spelled in any letter case and with blanks around
it. -/
def ofSpelling? (s : String) : Option Operation :=
  ofToken? (Text.lower (Text.trim Text.isBlank s))

end Operation

namespace Argument

/-- An argument that has to be there. -/
def present (field : String) (v : Value) : Except Fault Value :=
  match v with
  | .null => .error (.argument (.null field))
  | v => .ok v

/-- An argument that has to be a text. -/
def word (field : String) (v : Value) : Except Fault Word :=
  match v with
  | .null => .error (.argument (.null field))
  | v => match v.word? with
    | some w => .ok w
    | none => .error (.argument (.notText field v.kindName))

/-- An argument that has to be a mapping. -/
def mapping (field : String) (v : Value) : Except Fault (List (Value × Value)) :=
  match v with
  | .null => .error (.argument (.null field))
  | v => match v.entries? with
    | some es => .ok es
    | none => .error (.argument (.notMapping field v.kindName))

/-- A check of an argument whose parameter the caller names by a value of any kind. A refusal names
that value, and its wording has the plain form of it. -/
def named {α : Type} (name : Value) (check : String → Except Fault α) : Except Fault α :=
  match check "" with
  | .ok a => .ok a
  | .error _ => do
    match check (← name.plain).text with
    | .error (.argument cause) => .error (.argumentNamed name cause)
    | r => r

/-- A state that may be set once has not been set. -/
def unset {α : Type} (message : String) (current : Option α) : Except Fault Unit :=
  match current with
  | none => .ok ()
  | some _ => .error (.state message)

/-- The operation that a token names. -/
def operationOfToken (v : Value) : Except Fault Operation :=
  match v.word? with
  | none => .error (.tokenNotText v.kindName)
  | some w => match Operation.ofSpelling? w.text with
    | some op => .ok op
    | none =>
      .error (.notMember (Text.quoted (Text.lower (Text.trim Text.isBlank w.text))) "Operation")

/-- An argument that has to be an operation or the token of one. -/
def operation (v : Value) : Except Fault Operation :=
  match v with
  | .null => .error (.argument (.null "operation"))
  | .member (.operation op) => .ok op
  | v => match operationOfToken v with
    | .ok op => .ok op
    | .error _ => do .error (.argument (.unknownOperation (← v.display)))

/-- Arguments that all have to be operations; the first that is none decides the fault. -/
def operations (vs : List Value) : Except Fault (List Operation) :=
  vs.mapM operation

end Argument

end CredentialWrites
