import CredentialWrites.Json.Tree
import CredentialWrites.Text.Quoted

/-!
# Writing documents

A document is written in a style: which characters are escaped, what stands between items and behind
the name of a member, and whether items stand on lines of their own, indented by their depth. Empty
arrays and objects are written without anything between the brackets. Half of a character is written
by its number in every style, as its characters are where only printable ones of the basic alphabet
may stand.

* `JsonStyle.compact`, `JsonStyle.indented` : the styles of documents on the wire.
* `JsonStyle.log` : the style of log lines, which are plain printable characters only.
* `Json.write` : a document in a style.
-/

namespace CredentialWrites

/-- How a document is written. -/
structure JsonStyle where
  /-- Only printable characters of the basic alphabet stand for themselves. -/
  asciiOnly : Bool
  /-- What stands between items. -/
  separator : List Char
  /-- What stands behind the name of a member. -/
  colon : List Char
  /-- The number of blanks for each level, if items stand on lines of their own. -/
  indent : Option Nat
deriving Repr

namespace JsonStyle

/-- Documents on the wire, on one line without blanks. -/
def compact : JsonStyle := ⟨false, [','], [':'], none⟩

/-- Documents on the wire, with an item to a line. -/
def indented (n : Nat) : JsonStyle := ⟨false, [','], [':', ' '], some n⟩

/-- Log lines. -/
def log : JsonStyle := ⟨true, [',', ' '], [':', ' '], none⟩

/-- What stands in front of an item at a level: a new line and its indentation. -/
def lineBreak (style : JsonStyle) (level : Nat) : List Char :=
  match style.indent with
  | none => []
  | some n => '\n' :: List.replicate (n * level) ' '

/-- The number in four hexadecimal digits, as an escape. -/
def unitEscape (n : Nat) : List Char :=
  '\\' :: 'u' :: Text.hex 4 n

/-- The escape of a character by its number. A character beyond the basic plane takes two units. -/
def numericEscape (c : Char) : List Char :=
  if c.toNat < 0x10000 then unitEscape c.toNat
  else
    unitEscape (0xD800 + (c.toNat - 0x10000) / 0x400)
      ++ unitEscape (0xDC00 + (c.toNat - 0x10000) % 0x400)

/-- A character inside quotes. -/
def textChar (style : JsonStyle) (c : Char) : List Char :=
  if c = '"' then ['\\', '"']
  else if c = '\\' then ['\\', '\\']
  else if c = '\n' then ['\\', 'n']
  else if c = '\r' then ['\\', 'r']
  else if c = '\t' then ['\\', 't']
  else if c = '\x08' then ['\\', 'b']
  else if c = '\x0c' then ['\\', 'f']
  else if c.toNat < 0x20 || (style.asciiOnly && 0x7E < c.toNat) then numericEscape c
  else [c]

/-- A code point inside quotes. -/
def pointChars (style : JsonStyle) : CodePoint → List Char
  | .char c => style.textChar c
  | .half h => unitEscape h.number

/-- Code points between quotes. -/
def points (style : JsonStyle) (ps : List CodePoint) : List Char :=
  '"' :: ps.flatMap style.pointChars ++ ['"']

/-- A text between quotes. -/
def text (style : JsonStyle) (s : String) : List Char :=
  style.points (Text.points s)

end JsonStyle

namespace Json

mutual

/-- The characters of a document at a level. -/
def chars (style : JsonStyle) (level : Nat) : Json → List Char
  | null => "null".toList
  | bool b => (if b then "true" else "false").toList
  | int i => (toString i).toList
  | number written => written.toList
  | text s => style.text s
  | broken ps => style.points ps
  | array items => match items with
    | [] => ['[', ']']
    | item :: rest =>
      '[' :: style.lineBreak (level + 1) ++ chars style (level + 1) item
        ++ itemChars style (level + 1) rest ++ style.lineBreak level ++ [']']
  | object members => match members with
    | [] => ['\x7b', '\x7d']
    | (name, value) :: rest =>
      '\x7b' :: style.lineBreak (level + 1) ++ style.text name ++ style.colon
        ++ chars style (level + 1) value ++ memberChars style (level + 1) rest
        ++ style.lineBreak level ++ ['\x7d']

/-- The characters of further items of an array. -/
def itemChars (style : JsonStyle) (level : Nat) : List Json → List Char
  | [] => []
  | item :: rest =>
    style.separator ++ style.lineBreak level ++ chars style level item ++ itemChars style level rest

/-- The characters of further members of an object. -/
def memberChars (style : JsonStyle) (level : Nat) : List (String × Json) → List Char
  | [] => []
  | (name, value) :: rest =>
    style.separator ++ style.lineBreak level ++ style.text name ++ style.colon
      ++ chars style level value ++ memberChars style level rest

end

/-- A text is written code point by code point. -/
theorem chars_ofPoints (style : JsonStyle) (level : Nat) (ps : List CodePoint) :
    (ofPoints ps).chars style level = style.points ps := by
  cases hps : Text.ofPoints? ps with
  | none => rw [ofPoints_eq_broken hps, chars]
  | some s => rw [← Text.ofPoints?_eq_some_iff.1 hps, ofPoints_points, chars, JsonStyle.text]

/-- A document in a style. -/
def write (style : JsonStyle) (j : Json) : String :=
  String.ofList (j.chars style 0)

end Json

end CredentialWrites
