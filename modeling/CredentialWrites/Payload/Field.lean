import CredentialWrites.Text.Blank
import CredentialWrites.Text.Utf8
import CredentialWrites.Value.Access

/-!
# Reading the fields of a model

The fields of payloads and settings are read leniently: a text may come as bytes or as a member of a
vocabulary, a truth value as one of a few words or as the number one or zero, a whole number as its
decimal digits or as a number without a fraction, and a list as any collection that is no mapping.
Whatever else is given is refused.

* `Field.text`, `Field.bool`, `Field.int`, `Field.items` : the readings.
-/

namespace CredentialWrites

namespace Field

/-- A text. -/
def text (v : Value) : Except FieldFault String :=
  match v with
  | .text s => .ok s
  | .member m => .ok m.token
  | v => match v.bytes? with
    | some bs => match Text.Utf8.decode bs with
      | .ok s => .ok s
      | .error _ => .error .notTextBytes
    | none => .error .notText

/-- The words for true. -/
def trueWords : List String := ["1", "t", "y", "on", "yes", "true"]

/-- The words for false. -/
def falseWords : List String := ["0", "f", "n", "no", "off", "false"]

/-- The truth value that a word stands for, in any case of its basic letters. -/
def boolOfWord (s : String) : Except FieldFault Bool :=
  let word := String.ofList (s.toList.map Char.toLower)
  if trueWords.contains word then .ok true
  else if falseWords.contains word then .ok false
  else .error .unreadableBool

/-- The truth value that a number stands for. -/
def boolOfInt (i : Int) : Except FieldFault Bool :=
  if i = 1 then .ok true else if i = 0 then .ok false else .error .unreadableBool

/-- The bytes or the text that a value is, as text. -/
def words (v : Value) : Option (Except Text.Utf8.Fault String) :=
  match v with
  | .bytes bs => some (Text.Utf8.decode bs)
  | v => v.text?.map .ok

/-- A number is a word of 64 bits. -/
def isWord (i : Int) : Bool :=
  -Nat.pow 2 63 ≤ i && i < Nat.pow 2 63

/-- A number is within the range of words of 64 bits, the least of which is not told from what lies
beyond it. -/
def isWithinWords (i : Int) : Bool :=
  -Nat.pow 2 63 < i && i < Nat.pow 2 63

/-- A truth value. -/
def bool (v : Value) : Except FieldFault Bool :=
  match v with
  | .bool b => .ok b
  | .int i => if isWord i then boolOfInt i else .error .notBool
  | .float x => match x.toInt? with
    | some i => if isWithinWords i then boolOfInt i else .error .notBool
    | none => .error .notBool
  | v => match words v with
    | some (.ok s) => boolOfWord s
    | some (.error _) => .error .unreadableBool
    | none => .error .notBool

/-- White space around a number. The information separators are none. -/
def isSpace (c : Char) : Bool :=
  Text.isBlank c && !(0x1C ≤ c.toNat && c.toNat ≤ 0x1F)

/-- What follows the zeros at the start of a number, which may have underscores among them. The last
of them stays if no digit follows; `last` is the one just passed. A minus may follow them as
well. -/
def afterZeros (last : Char) : List Char → Option (List Char)
  | [] => some [last]
  | c :: rest =>
    if c = '0' || c = '_' then afterZeros c rest
    else if c.isDigit || c = '-' then some (c :: rest)
    else if c = '.' then some (last :: c :: rest)
    else none

/-- The characters of a number, which starts with a digit, without needless zeros. -/
def dropZeros : List Char → Option (List Char)
  | [] => none
  | c :: rest =>
    if c = '0' then afterZeros c rest else if c.isDigit then some (c :: rest) else none

/-- The characters without a point that only zeros follow, at least one. -/
def dropZeroFraction (cs : List Char) : List Char :=
  match cs.dropWhile (· ≠ '.') with
  | '.' :: zeros =>
    if !zeros.isEmpty && zeros.all (· = '0') then cs.takeWhile (· ≠ '.') else cs
  | _ => cs

/-- Two underscores stand side by side. -/
def hasDoubleUnderscore : List Char → Bool
  | '_' :: '_' :: _ => true
  | _ :: rest => hasDoubleUnderscore rest
  | [] => false

/-- The digits without underscores between them. -/
def dropUnderscores (cs : List Char) : List Char :=
  if cs.head? = some '_' || cs.getLast? = some '_' || hasDoubleUnderscore cs then cs
  else cs.filter (· ≠ '_')

/-- The most digits that a number may have. -/
def maxDigits : Nat := 4300

/-- The natural number of some digits, the first of which is no needless zero. -/
def natOfDigits (cs : List Char) : Except FieldFault Nat :=
  if maxDigits < (cs.takeWhile Char.isDigit).length then .error .oversizedInt
  else if cs.isEmpty || !cs.all Char.isDigit || (cs.head? = some '0' && 1 < cs.length) then
    .error .unreadableInt
  else .ok (cs.foldl (fun n c => n * 10 + (c.toNat - 48)) 0)

/-- The whole number that digits with an optional minus denote. -/
def intOfDigits (cs : List Char) : Except FieldFault Int :=
  match cs with
  | '-' :: rest => (fun n : Nat => -(n : Int)) <$> natOfDigits rest
  | cs => Int.ofNat <$> natOfDigits cs

/-- A sign at the start of a number, and what follows it. A plus is dropped. -/
def splitSign : List Char → List Char × List Char
  | '-' :: rest => (['-'], rest)
  | '+' :: rest => ([], rest)
  | cs => ([], cs)

/-- The whole number that a text denotes. -/
def intOfText (s : String) : Except FieldFault Int :=
  let (sign, digits) := splitSign (Text.trimChars isSpace s.toList)
  match dropZeros digits with
  | none => .error .unreadableInt
  | some digits => intOfDigits (sign ++ dropUnderscores (dropZeroFraction digits))

/-- What is read as a whole number: a number, or the token of a member of a vocabulary, which nobody
looks at. -/
inductive Numeral where
  | int (i : Int)
  | token (s : String)
deriving Repr, DecidableEq

/-- The value that was read as a whole number. -/
def Numeral.toValue : Numeral → Value
  | int i => .int i
  | token s => .text s

/-- A whole number. -/
def int (v : Value) : Except FieldFault Numeral :=
  match v with
  | .bool b => .ok (.int (if b then 1 else 0))
  | .int i => .ok (.int i)
  | .nan _ => .error .infiniteInt
  | .float x => match x.magnitude, x.toInt? with
    | .infinite, _ => .error .infiniteInt
    | _, none => .error .fractionalInt
    | _, some i => if isWithinWords i then .ok (.int i) else .error .oversizedInt
  | v => match words v, v with
    | some (.ok s), _ => .int <$> intOfText s
    | some (.error _), _ => .error .unreadableInt
    | none, .member m => .ok (.token m.token)
    | none, _ => .error .notInt

/-- The items of a list: those of anything that yields items, but of no text, bytes or mapping. -/
def items (v : Value) : Except FieldFault (List Value) :=
  if v.text?.isSome || v.bytes?.isSome || v.entries?.isSome then .error .notList
  else match v.items with
    | .ok vs => .ok vs
    | .error _ => .error .notList

/-- A value that may be missing. -/
def optional {α : Type} (read : Value → Except FieldFault α) (v : Value) :
    Except FieldFault (Option α) :=
  match v with
  | .null => .ok none
  | v => some <$> read v

/-- The reading of a field at the end of a path. -/
def along {α : Type} (path : List Step) (r : Except FieldFault α) : Except (List FieldError) α :=
  match r with
  | .ok a => .ok a
  | .error f => .error [⟨path, f⟩]

/-- Two readings one after the other, with the errors of both. -/
def both {α β : Type} (a : Except (List FieldError) α) (b : Except (List FieldError) β) :
    Except (List FieldError) (α × β) :=
  match a, b with
  | .ok a, .ok b => .ok (a, b)
  | .error e, .ok _ => .error e
  | .ok _, .error e => .error e
  | .error e, .error e' => .error (e ++ e')

/-- The readings of all items, with the errors of all, the first of which stands at the given
place. -/
def each {α : Type} (read : Nat → Value → Except (List FieldError) α) :
    Nat → List Value → Except (List FieldError) (List α)
  | _, [] => .ok []
  | i, v :: vs => (fun p => p.1 :: p.2) <$> both (read i v) (each read (i + 1) vs)

end Field

end CredentialWrites
