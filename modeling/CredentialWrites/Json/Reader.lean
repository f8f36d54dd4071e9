import CredentialWrites.Json.Tree

/-!
# Reading documents

The strict reading of the standard: no comments, no trailing commas, no control characters inside
quotes, no numbers with a leading zero or without digits on either side of a point, and nothing
behind the document but blanks. Escapes for both halves of a character, one right behind the other,
are the character. A half may stand alone in a text, but not in the name of a member.

* `Json.read?` : the document that a text is.
-/

namespace CredentialWrites

namespace Json

/-- Blank characters between the parts of a document. -/
def isBlank (c : Char) : Bool :=
  c = ' ' || c = '\n' || c = '\r' || c = '\t'

/-- The text without blanks at its start. -/
def skipBlanks (cs : List Char) : List Char :=
  cs.dropWhile isBlank

/-- The value of a hexadecimal digit. -/
def hexValue? (c : Char) : Option Nat :=
  if '0' ≤ c && c ≤ '9' then some (c.toNat - '0'.toNat)
  else if 'a' ≤ c && c ≤ 'f' then some (c.toNat - 'a'.toNat + 10)
  else if 'A' ≤ c && c ≤ 'F' then some (c.toNat - 'A'.toNat + 10)
  else none

/-- The unit that four hexadecimal digits denote, and what follows them. -/
def unit? : List Char → Option (Nat × List Char)
  | a :: b :: c :: d :: rest => do
    return (((← hexValue? a) * 0x1000 + (← hexValue? b) * 0x100 + (← hexValue? c) * 0x10
      + (← hexValue? d)), rest)
  | _ => none

/-- The number of the second half of a character that an escape denotes, and what follows it. -/
def second? : List Char → Option (Nat × List Char)
  | '\\' :: 'u' :: rest => (unit? rest).filter fun p => 0xDC00 ≤ p.1 && p.1 < 0xE000
  | _ => none

/-- The code point that an escape with digits denotes, and what follows it. -/
def numeric? (cs : List Char) : Option (CodePoint × List Char) := do
  let (unit, rest) ← unit? cs
  if 0xD800 ≤ unit && unit < 0xDC00 then
    match second? rest with
    | some (second, rest) => return (.char (Text.charOfHalves unit second), rest)
    | none => return (.ofNat unit, rest)
  else return (.ofNat unit, rest)

/-- The code point that an escape denotes, without its backslash, and what follows it. -/
def escape? : List Char → Option (CodePoint × List Char)
  | '"' :: rest => some (.char '"', rest)
  | '\\' :: rest => some (.char '\\', rest)
  | '/' :: rest => some (.char '/', rest)
  | 'b' :: rest => some (.char '\x08', rest)
  | 'f' :: rest => some (.char '\x0c', rest)
  | 'n' :: rest => some (.char '\n', rest)
  | 'r' :: rest => some (.char '\r', rest)
  | 't' :: rest => some (.char '\t', rest)
  | 'u' :: rest => numeric? rest
  | _ => none

/-- The code points up to a closing quote, and what follows it. -/
def quoted? : Nat → List Char → Option (List CodePoint × List Char)
  | 0, _ => none
  | _ + 1, [] => none
  | fuel + 1, c :: cs =>
    if c = '"' then some ([], cs)
    else if c = '\\' then do
      let (p, rest) ← escape? cs
      let (ps, rest) ← quoted? fuel rest
      return (p :: ps, rest)
    else if c.toNat < 0x20 then none
    else do
      let (ps, rest) ← quoted? fuel cs
      return (.char c :: ps, rest)

/-- At least one digit, and what follows the digits. -/
def digits? (cs : List Char) : Option (List Char × List Char) :=
  match cs.takeWhile Char.isDigit with
  | [] => none
  | ds => some (ds, cs.dropWhile Char.isDigit)

/-- The digits of a whole number, and what follows them. -/
def whole? (cs : List Char) : Option (List Char × List Char) :=
  match cs with
  | '0' :: rest => some (['0'], rest)
  | cs => digits? cs

/-- A fraction with its point, if there is one, and what follows it. -/
def fraction? (cs : List Char) : Option (List Char × List Char) :=
  match cs with
  | '.' :: rest => (digits? rest).map fun p => ('.' :: p.1, p.2)
  | cs => some ([], cs)

/-- An exponent with its mark, if there is one, and what follows it. -/
def exponent? (cs : List Char) : Option (List Char × List Char) :=
  match cs with
  | c :: rest =>
    if c = 'e' || c = 'E' then
      match rest with
      | '+' :: rest => (digits? rest).map fun p => (c :: '+' :: p.1, p.2)
      | '-' :: rest => (digits? rest).map fun p => (c :: '-' :: p.1, p.2)
      | rest => (digits? rest).map fun p => (c :: p.1, p.2)
    else some ([], cs)
  | [] => some ([], [])

/-- The natural number that digits denote. -/
def natOf (ds : List Char) : Nat :=
  ds.foldl (fun n c => n * 10 + (c.toNat - '0'.toNat)) 0

/-- A number, and what follows it. -/
def number? (cs : List Char) : Option (Json × List Char) := do
  let (negative, cs) := match cs with
    | '-' :: rest => (true, rest)
    | cs => (false, cs)
  let (whole, rest) ← whole? cs
  let (fraction, rest) ← fraction? rest
  let (exponent, rest) ← exponent? rest
  if fraction.isEmpty && exponent.isEmpty then
    return (int (if negative then -(natOf whole : Int) else natOf whole), rest)
  else
    let sign := if negative then ['-'] else []
    return (number (String.ofList (sign ++ whole ++ fraction ++ exponent)), rest)

/-- What follows a word at the start of a text. -/
def afterWord? : List Char → List Char → Option (List Char)
  | [], cs => some cs
  | w :: ws, c :: cs => if w = c then afterWord? ws cs else none
  | _ :: _, [] => none

mutual

/-- A document after blanks, and what follows it. -/
def value? : Nat → List Char → Option (Json × List Char)
  | 0, _ => none
  | fuel + 1, cs =>
    match skipBlanks cs with
    | '"' :: rest => (quoted? fuel rest).map fun p => (ofPoints p.1, p.2)
    | '[' :: rest => match skipBlanks rest with
      | ']' :: rest => some (array [], rest)
      | rest => (items? fuel rest).map fun p => (array p.1, p.2)
    | '\x7b' :: rest => match skipBlanks rest with
      | '\x7d' :: rest => some (object [], rest)
      | rest => (members? fuel rest).map fun p => (object p.1, p.2)
    | 'n' :: rest => (afterWord? "ull".toList rest).map fun r => (null, r)
    | 't' :: rest => (afterWord? "rue".toList rest).map fun r => (bool true, r)
    | 'f' :: rest => (afterWord? "alse".toList rest).map fun r => (bool false, r)
    | cs => number? cs

/-- The items of an array up to its closing bracket, and what follows that. -/
def items? : Nat → List Char → Option (List Json × List Char)
  | 0, _ => none
  | fuel + 1, cs => do
    let (item, rest) ← value? fuel cs
    match skipBlanks rest with
    | ',' :: rest => do
      let (items, rest) ← items? fuel rest
      return (item :: items, rest)
    | ']' :: rest => return ([item], rest)
    | _ => none

/-- The members of an object up to its closing bracket, and what follows that. -/
def members? : Nat → List Char → Option (List (String × Json) × List Char)
  | 0, _ => none
  | fuel + 1, cs =>
    match skipBlanks cs with
    | '"' :: rest => do
      let (points, rest) ← quoted? fuel rest
      let name ← Text.ofPoints? points
      match skipBlanks rest with
      | ':' :: rest => do
        let (value, rest) ← value? fuel rest
        match skipBlanks rest with
        | ',' :: rest => do
          let (members, rest) ← members? fuel rest
          return ((name, value) :: members, rest)
        | '\x7d' :: rest => return ([(name, value)], rest)
        | _ => none
      | _ => none
    | _ => none

end

/-- The document that a text is. -/
def read? (s : String) : Option Json :=
  match value? (2 * s.length + 2) s.toList with
  | some (j, rest) => if (skipBlanks rest).isEmpty then some j else none
  | none => none

end Json

end CredentialWrites
