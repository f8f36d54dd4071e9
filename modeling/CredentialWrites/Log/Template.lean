import CredentialWrites.Number.Fixed
import CredentialWrites.Text.Points
import CredentialWrites.Value.Access

/-!
# Filling in templates

A template is a text with conversions, each of which starts with a percent sign: an optional key in
parentheses, flags, a width, a precision, and a letter that says how the argument is written. Two
percent signs stand for one. Arguments are taken one after the other, or by their keys from a
mapping. All arguments have to be used, unless they come from a mapping. A template that comes to
one argument and nothing else is the word that stands for the argument. A number that is written as
the character with that number may be the number of half of a character; the message is then no text
of characters.

* `Message` : what a template comes to.
* `Template.fill` : a template with some arguments filled in.
-/

namespace CredentialWrites

/-- What is said in a log record: a word, or code points with half of a character among them. -/
inductive Message where
  | word (w : Word)
  | broken (points : List CodePoint)
deriving Repr

namespace Message

/-- The message with some code points. -/
def ofPoints (ps : List CodePoint) : Message :=
  match Text.ofPoints? ps with
  | some s => word (.plain s)
  | none => broken ps

/-- The code points of a message. -/
def points : Message → List CodePoint
  | word w => Text.points w.text
  | broken ps => ps

/-- The code points of a message as part of a line for people. -/
def shown : Message → List CodePoint
  | word w => Text.points w.shown
  | broken ps => ps

end Message

namespace Template

/-- The arguments that are left. -/
inductive Arguments where
  | list (rest : List Value)
  /-- Arguments by key, and the one that a conversion without a key would take. -/
  | keyed (mapping : Value) (current : Option Value)
deriving Repr

/-- How an argument is written. -/
structure Conversion where
  left : Bool
  sign : Bool
  blank : Bool
  alternate : Bool
  zero : Bool
  width : Option Nat
  precision : Option Nat
  letter : Char
deriving Repr

/-- A fault of a template. -/
def fail {α : Type} (cause : TemplateFault) : Except Fault α :=
  .error (.template cause)

/-- The next argument, and those that are left. -/
def next : Arguments → Except Fault (Value × Arguments)
  | .list (v :: rest) => .ok (v, .list rest)
  | .list [] => fail .notEnoughArguments
  | .keyed mapping (some v) => .ok (v, .keyed mapping none)
  | .keyed _ none => fail .notEnoughArguments

/-- A key up to its closing parenthesis, with the number of parentheses still open, and what
follows. -/
def closeKey (depth : Nat) : List Char → Option (List Char × List Char)
  | [] => none
  | ')' :: rest => match depth with
    | 0 => some ([], rest)
    | depth + 1 => (closeKey depth rest).map fun p => (')' :: p.1, p.2)
  | '(' :: rest => (closeKey (depth + 1) rest).map fun p => ('(' :: p.1, p.2)
  | c :: rest => (closeKey depth rest).map fun p => (c :: p.1, p.2)

/-- The arguments after an optional key, and what follows it. -/
def key (args : Arguments) : List Char → Except Fault (Arguments × List Char)
  | '(' :: rest => match args with
    | .list _ => fail .needsMapping
    | .keyed mapping _ => match closeKey 0 rest with
      | none => fail .incompleteKey
      | some (k, rest) => do
        let v ← mapping.item (.text (String.ofList k))
        return (.keyed mapping (some v), rest)
  | cs => .ok (args, cs)

/-- A conversion of which nothing is known but the flags. -/
def flagged (cs : List Char) : Conversion :=
  ⟨cs.contains '-', cs.contains '+', cs.contains ' ', cs.contains '#', cs.contains '0',
    none, none, ' '⟩

/-- The flags, and what follows them. -/
def flags (cs : List Char) : Conversion × List Char :=
  let isFlag (c : Char) : Bool := "-+ #0".toList.contains c
  (flagged (cs.takeWhile isFlag), cs.dropWhile isFlag)

/-- The number that digits at the start of a text denote, if there are any, and what follows
them. -/
def size (tooBig : TemplateFault) (limit : Nat) (cs : List Char) :
    Except Fault (Option Nat × List Char) :=
  match cs.takeWhile Char.isDigit with
  | [] => .ok (none, cs)
  | ds =>
    let n := ds.foldl (fun n c => n * 10 + (c.toNat - 48)) 0
    if limit ≤ n then fail tooBig else .ok (some n, cs.dropWhile Char.isDigit)

/-- A number given as an argument. -/
def star (name : String) (limit : Nat) (args : Arguments) : Except Fault (Int × Arguments) := do
  let (v, args) ← next args
  match v.index? with
  | none => fail .widthNotInt
  | some i => if i < -(limit : Int) || limit ≤ i then fail (.starTooBig name) else return (i, args)

/-- The width that a given number means. The least number that there can be means none. -/
def widthOf (i : Int) : Option Nat :=
  if i = -Nat.pow 2 63 then none else some i.natAbs

/-- The width, and what follows it. -/
def width (c : Conversion) (args : Arguments) :
    List Char → Except Fault (Conversion × Arguments × List Char)
  | '*' :: rest => do
    let (i, args) ← star "ssize_t" (Nat.pow 2 63) args
    return ({ c with left := c.left || i < 0, width := widthOf i }, args, rest)
  | cs => do
    let (n, rest) ← size .widthTooBig (Nat.pow 2 63) cs
    return ({ c with width := n }, args, rest)

/-- The precision, and what follows it. A point without a number means none at all. -/
def precision (c : Conversion) (args : Arguments) :
    List Char → Except Fault (Conversion × Arguments × List Char)
  | '.' :: '*' :: rest => do
    let (i, args) ← star "int" (Nat.pow 2 31) args
    return ({ c with precision := some i.toNat }, args, rest)
  | '.' :: cs => do
    let (n, rest) ← size .precisionTooBig (Nat.pow 2 31) cs
    return ({ c with precision := some (n.getD 0) }, args, rest)
  | cs => .ok (c, args, cs)

/-- What follows one of the letters that once told sizes apart. -/
def dropSize : List Char → List Char
  | 'h' :: rest => rest
  | 'l' :: rest => rest
  | 'L' :: rest => rest
  | cs => cs

/-- A text cut to the precision. -/
def cut (c : Conversion) (cs : List Char) : List Char :=
  match c.precision with
  | some n => cs.take n
  | none => cs

/-- Blanks on one side of a text up to the width. -/
def pad {α : Type} (blank : α) (c : Conversion) (cs : List α) : List α :=
  let blanks := List.replicate (c.width.getD 0 - cs.length) blank
  if c.left then cs ++ blanks else blanks ++ cs

/-- A number with its sign and the mark of its base, filled up to the width. -/
def padNumber (c : Conversion) (negative : Bool) (mark body : List Char) : List Char :=
  let sign := if negative then ['-'] else if c.sign then ['+'] else if c.blank then [' '] else []
  if c.zero && !c.left then
    sign ++ mark ++ List.replicate (c.width.getD 0 - (sign ++ mark ++ body).length) '0' ++ body
  else pad ' ' c (sign ++ mark ++ body)

/-- The most digits that can be asked for of a whole number. -/
def mostDigits : Nat := Nat.pow 2 31 - 4

/-- A whole number in the base of the letter. -/
def intText (c : Conversion) (i : Int) : List Char :=
  let (base, mark) := match c.letter with
    | 'o' => (8, ['0', 'o'])
    | 'x' => (16, ['0', 'x'])
    | 'X' => (16, ['0', 'X'])
    | _ => (10, [])
  let ds := Text.digitsIn base (c.precision.getD 0) i.natAbs
  padNumber c (i < 0) (if c.alternate then mark else [])
    (if c.letter = 'X' then ds.map Char.toUpper else ds)

/-- The whole number that an argument is for a letter of whole numbers. -/
def wholeNumber (c : Conversion) (v : Value) : Except Fault Int :=
  let exact := c.letter = 'o' || c.letter = 'x' || c.letter = 'X'
  match v with
  | .int i => .ok i
  | .bool b => .ok (if b then 1 else 0)
  | .float x =>
    if exact then fail (.needsInteger c.letter v.kindName)
    else match x.truncate? with
      | some i => .ok i
      | none => fail .infinityToInteger
  | .nan _ => if exact then fail (.needsInteger c.letter v.kindName) else fail .nanToInteger
  | v =>
    if exact then fail (.needsInteger c.letter v.kindName)
    else fail (.needsNumber c.letter v.kindName)

/-- The number that an argument is for a letter of numbers with fractions, or nothing if it is no
number. -/
def realNumber (v : Value) : Except Fault (Option Double) :=
  match v with
  | .float x => .ok (some x)
  | .nan _ => .ok none
  | v => match v.index? with
    | none => fail (.needsReal v.kindName)
    | some i => match (Double.ofInt i).magnitude with
      | .infinite => fail .intTooLarge
      | _ => .ok (some (Double.ofInt i))

/-- A number with a fraction in the layout of the letter. -/
def realText (c : Conversion) (x : Option Double) : List Char :=
  let places := c.precision.getD 6
  let body := match x with
    | none => "nan".toList
    | some x => match x.ratio? with
      | none => "inf".toList
      | some (n, d) => match c.letter.toLower with
        | 'f' => Fixed.positional c.alternate places n d
        | 'e' => Fixed.scientific c.alternate places n d
        | _ => Fixed.general c.alternate places n d
  padNumber c ((x.map Double.negative).getD false) []
    (if c.letter.isUpper then body.map Char.toUpper else body)

/-- The code point that an argument is, by its number or as a text. -/
def character (v : Value) : Except Fault CodePoint :=
  match v.index? with
  | some i =>
    if 0 ≤ i && i < 0x110000 then .ok (.ofNat i.toNat) else fail .characterOutOfRange
  | none => match v.text?.map String.toList with
    | some [ch] => .ok (.char ch)
    | _ => fail .needsCharacter

/-- A character of a written form that has only basic characters. -/
def asciiChar (c : Char) : List Char :=
  if c.toNat < 0x80 then [c]
  else if c.toNat ≤ 0xFF then '\\' :: 'x' :: Text.hex 2 c.toNat
  else if c.toNat ≤ 0xFFFF then '\\' :: 'u' :: Text.hex 4 c.toNat
  else '\\' :: 'U' :: Text.hex 8 c.toNat

/-- A word as the conversion has it. It stays a word if that changes nothing about it. -/
def padWord (c : Conversion) (w : Word) : Word :=
  let cs := w.text.toList
  let written := pad ' ' c (cut c cs)
  if written = cs && !c.sign && !c.blank then w else .plain (String.ofList written)

/-- Characters as a message. -/
def plain (cs : List Char) : Message :=
  .word (.plain (String.ofList cs))

/-- An argument as the conversion has it. The letter stands at the given index of the template. -/
def convert (c : Conversion) (index : Nat) (v : Value) : Except Fault Message :=
  if c.letter = 's' then (fun w => .word (padWord c w)) <$> v.plain
  else if c.letter = 'r' then (fun s => plain (pad ' ' c (cut c s.toList))) <$> v.display
  else if c.letter = 'a' then
    (fun s => plain (pad ' ' c (cut c (s.toList.flatMap asciiChar)))) <$> v.display
  else if "diuoxX".toList.contains c.letter then do
    let i ← wholeNumber c v
    if mostDigits < c.precision.getD 0 then fail .precisionTooLarge
    return plain (intText c i)
  else if "eEfFgG".toList.contains c.letter then (fun x => plain (realText c x)) <$> realNumber v
  else if c.letter = 'c' then (fun p => .ofPoints (pad (.char ' ') c [p])) <$> character v
  else fail (.unsupported c.letter index)

/-- The width is beyond what a text can have. -/
def isTooWide (c : Conversion) : Bool :=
  Nat.pow 10 9 ≤ c.width.getD 0

/-- An argument as the conversion has it, if that can be held. -/
def write (c : Conversion) (index : Nat) (v : Value) : Except Fault Message :=
  if isTooWide c then do
    let _ ← convert { c with width := none } index v
    fail .outOfMemory
  else convert c index v

/-- A conversion without its percent sign, written with its argument, and what follows. -/
def conversion (total : Nat) (args : Arguments) (cs : List Char) :
    Except Fault (Message × Arguments × List Char) := do
  let (args, cs) ← key args cs
  let (c, cs) := flags cs
  let (c, args, cs) ← width c args cs
  let (c, args, cs) ← precision c args cs
  match dropSize cs with
  | [] => fail .incomplete
  | letter :: rest =>
    let (v, args) ← next args
    let written ← write { c with letter := letter } (total - (rest.length + 1)) v
    return (written, args, rest)

/-- All arguments have been used. -/
def finish : Arguments → Except Fault Unit
  | .list (_ :: _) => fail .unusedArguments
  | _ => .ok ()

/-- The parts of what is left of a template of a given length. -/
def fillFrom (total : Nat) : Nat → Arguments → List Char → Except Fault (List Message)
  | 0, _, _ => .ok []
  | _ + 1, args, [] => do
    finish args
    return []
  | fuel + 1, args, '%' :: '%' :: cs => do return plain ['%'] :: (← fillFrom total fuel args cs)
  | fuel + 1, args, '%' :: cs => do
    let (written, args, rest) ← conversion total args cs
    return written :: (← fillFrom total fuel args rest)
  | fuel + 1, args, c :: cs => do return plain [c] :: (← fillFrom total fuel args cs)

/-- Parts one after the other. A single one behind nothing but empty ones stays what it is. -/
def join (ms : List Message) : Message :=
  match ms.dropWhile (·.points.isEmpty) with
  | [m] => m
  | ms => .ofPoints (ms.flatMap Message.points)

/-- The arguments of a template. A single mapping that is not empty gives them by key. -/
def argumentsOf : List Value → Arguments
  | [v] => match v.entries? with
    | some (_ :: _) => .keyed v (some v)
    | _ => .list [v]
  | vs => .list vs

/-- A template with some arguments filled in. Without arguments it is the template itself. -/
def fill (template : Word) (args : List Value) : Except Fault Message :=
  if args.isEmpty then .ok (.word template)
  else do
    let cs := template.text.toList
    return join (← fillFrom cs.length (cs.length + 1) (argumentsOf args) cs)

end Template

end CredentialWrites
