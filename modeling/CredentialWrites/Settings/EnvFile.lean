import CredentialWrites.Text.Blank

/-!
# Files of assignments

A file of lines `NAME=value`. A line may start with the word `export`, a name may be in single
quotes, and a value in single or double quotes, in which it may have escapes and run over several
lines. A hash sign starts a comment, in a value only after a blank. A line that is no assignment is
skipped.

* `EnvFile.read` : the assignments of a file in their order.
* `EnvFile.unreadableLines` : where the lines are that are skipped.
-/

namespace CredentialWrites

namespace EnvFile

/-- The end of a line. -/
def isBreak (c : Char) : Bool :=
  c = '\n' || c = '\r'

/-- Blanks within a line. -/
def isInlineBlank (c : Char) : Bool :=
  Text.isBlank c && !isBreak c

/-- What follows the blanks within a line. -/
def skipInline (cs : List Char) : List Char :=
  cs.dropWhile isInlineBlank

/-- What follows the word that may stand in front of a name. -/
def skipExport (cs : List Char) : List Char :=
  match cs with
  | 'e' :: 'x' :: 'p' :: 'o' :: 'r' :: 't' :: c :: rest =>
    if isInlineBlank c then skipInline rest else cs
  | cs => cs

/-- A character of a name without quotes. -/
def isNameChar (c : Char) : Bool :=
  c ≠ '=' && c ≠ '#' && !Text.isBlank c

/-- A name, and what follows it. A comment in place of a name counts as no name. -/
def name? (cs : List Char) : Option (Option (List Char) × List Char) :=
  match cs with
  | '#' :: _ => some (none, cs)
  | '\'' :: rest =>
    match rest.takeWhile (· ≠ '\''), rest.dropWhile (· ≠ '\'') with
    | name, _ :: rest => if name.isEmpty then none else some (some name, rest)
    | _, [] => none
  | cs =>
    match cs.takeWhile isNameChar with
    | [] => none
    | name => some (some name, cs.dropWhile isNameChar)

/-- The characters up to a closing quote, and what follows it. A backslash and the character behind
it belong together, so that a quote behind a backslash closes nothing. -/
def closed? (quote : Char) : List Char → Option (List Char × List Char)
  | [] => none
  | '\\' :: c :: rest => (closed? quote rest).map fun p => ('\\' :: c :: p.1, p.2)
  | c :: rest =>
    if c = quote then some ([], rest)
    else if c = '\\' then none
    else (closed? quote rest).map fun p => (c :: p.1, p.2)

/-- The character that an escape in single quotes stands for. -/
def singleEscape : Char → Option Char
  | '\\' => some '\\'
  | '\'' => some '\''
  | _ => none

/-- The character that an escape in double quotes stands for. -/
def doubleEscape : Char → Option Char
  | '\\' => some '\\'
  | '\'' => some '\''
  | '"' => some '"'
  | 'a' => some '\x07'
  | 'b' => some '\x08'
  | 'f' => some '\x0c'
  | 'n' => some '\n'
  | 'r' => some '\r'
  | 't' => some '\t'
  | 'v' => some '\x0b'
  | _ => none

/-- The characters with their escapes resolved. -/
def unescape (escape : Char → Option Char) : List Char → List Char
  | '\\' :: c :: rest => match escape c with
    | some d => d :: unescape escape rest
    | none => '\\' :: unescape escape (c :: rest)
  | c :: rest => c :: unescape escape rest
  | [] => []

/-- The characters of a value in quotes, and what follows it. -/
def quoted? (quote : Char) (escape : Char → Option Char) (cs : List Char) :
    Option (List Char × List Char) :=
  (closed? quote cs).map fun p => (unescape escape p.1, p.2)

/-- The characters up to a hash sign that follows a blank, without that blank; `blanks` are the
blanks just passed. -/
def beforeComment (blanks : List Char) : List Char → List Char
  | [] => blanks.reverse
  | c :: rest =>
    if Text.isBlank c then beforeComment (c :: blanks) rest
    else if c = '#' && !blanks.isEmpty then []
    else blanks.reverse ++ c :: beforeComment [] rest

/-- A value, which may have blanks around it, and what follows it. A comment in place of a value
makes an empty one if a blank precedes it. -/
def value? (cs : List Char) : Option (List Char × List Char) :=
  match skipInline cs with
  | '\'' :: rest => quoted? '\'' singleEscape rest
  | '"' :: rest => quoted? '"' doubleEscape rest
  | _ =>
    some (Text.trimChars Text.isBlank (beforeComment [] (cs.takeWhile (!isBreak ·))),
      cs.dropWhile (!isBreak ·))

/-- What follows the end of a line, with a comment in front of it. -/
def lineEnd? (cs : List Char) : Option (List Char) :=
  let cs := match skipInline cs with
    | '#' :: rest => rest.dropWhile (!isBreak ·)
    | rest => rest
  match cs with
  | [] => some []
  | '\r' :: '\n' :: rest => some rest
  | c :: rest => if isBreak c then some rest else none

/-- What follows the rest of a line. -/
def skipLine (cs : List Char) : List Char :=
  (cs.dropWhile (!isBreak ·)).drop 1

/-- An assignment, whose value is missing if there is no equals sign. -/
abbrev Assignment := String × Option String

/-- What a line says. -/
inductive Statement where
  | assignment (a : Assignment)
  /-- The line has nothing but a comment. -/
  | nothing
  | unreadable
deriving Repr, DecidableEq

/-- The line of a statement that was read up to its end, and what follows it. -/
def finish (name : Option (List Char)) (value : Option (List Char)) (cs : List Char) :
    Statement × List Char :=
  match lineEnd? cs, name with
  | some rest, some name => (.assignment (String.ofList name, value.map String.ofList), rest)
  | some rest, none => (.nothing, rest)
  | none, _ => (.unreadable, skipLine cs)

/-- The statement at the start of a text, and what follows its line. -/
def line (cs : List Char) : Statement × List Char :=
  let cs := skipExport cs
  match name? cs with
  | none => (.unreadable, skipLine cs)
  | some (name, cs) => match skipInline cs with
    | '=' :: rest => match value? rest with
      | none => (.unreadable, skipLine rest)
      | some (value, rest) => finish name (some value) rest
    | rest => finish name none rest

/-- The statements of a text, each behind what the text has from it on with the blanks in front of
it. -/
def statements : Nat → List Char → List (List Char × Statement)
  | 0, _ => []
  | fuel + 1, cs => match cs.dropWhile Text.isBlank with
    | [] => []
    | start =>
      let (statement, rest) := line start
      (cs, statement) :: statements fuel rest

/-- The assignments with one more. A name that is there already keeps its place. -/
def assign (a : Assignment) : List Assignment → List Assignment
  | [] => [a]
  | b :: bs => if b.1 = a.1 then a :: bs else b :: assign a bs

/-- The characters of a file, in which all ends of lines are the same. -/
def unifyBreaks : List Char → List Char
  | '\r' :: rest => match rest with
    | '\n' :: rest => '\n' :: unifyBreaks rest
    | rest => '\n' :: unifyBreaks rest
  | c :: rest => c :: unifyBreaks rest
  | [] => []

/-- The characters without a byte order mark in front of them. -/
def dropMark : List Char → List Char
  | '\ufeff' :: rest => rest
  | cs => cs

/-- The characters of a file as they are read. -/
def content (s : String) : List Char :=
  unifyBreaks (dropMark s.toList)

/-- The statements of a file. -/
def statementsOf (s : String) : List (List Char × Statement) :=
  statements ((content s).length + 1) (content s)

/-- The assignment that a statement is, if it is one. -/
def Statement.assignment? : Statement → Option Assignment
  | assignment a => some a
  | _ => none

/-- The assignments of a file. Of several with one name the last one holds. -/
def read (s : String) : List Assignment :=
  ((statementsOf s).filterMap fun p => p.2.assignment?).foldl (fun as a => assign a as) []

/-- The numbers of the lines at which statements begin that cannot be read. Blank lines in front of
a statement belong to it. -/
def unreadableLines (s : String) : List Nat :=
  ((statementsOf s).filter fun p => p.2 = .unreadable).map fun p =>
    (content s).count '\n' - p.1.count '\n' + 1

end EnvFile

end CredentialWrites
