import CredentialWrites.Text.Printable

/-!
# Quoted text

The written form of a text or of a sequence of bytes inside messages: between quotes, with escapes
for the quote, the backslash and everything that is not printable. Single quotes are used unless the
text holds one and no double quote.
-/

namespace CredentialWrites

namespace Text

/-- The digits of a number in a base up to sixteen, filled with zeros to a width. -/
def digitsIn (base width n : Nat) : List Char :=
  let ds := Nat.toDigits base n
  List.replicate (width - ds.length) '0' ++ ds

/-- The number in lower-case hexadecimal digits of at least the given width. -/
def hex (width n : Nat) : List Char :=
  digitsIn 16 width n

/-- The quote around a text with these characters. -/
def quoteFor (cs : List Char) : Char :=
  if cs.contains '\'' && !cs.contains '"' then '"' else '\''

/-- A character inside the given quotes. -/
def quotedChar (quote c : Char) : List Char :=
  if c = quote || c = '\\' then ['\\', c]
  else if c = '\n' then ['\\', 'n']
  else if c = '\r' then ['\\', 'r']
  else if c = '\t' then ['\\', 't']
  else if isPrintable c then [c]
  else if c.toNat ≤ 0xFF then '\\' :: 'x' :: hex 2 c.toNat
  else if c.toNat ≤ 0xFFFF then '\\' :: 'u' :: hex 4 c.toNat
  else '\\' :: 'U' :: hex 8 c.toNat

/-- The text between quotes. -/
def quoted (s : String) : String :=
  let cs := s.toList
  let q := quoteFor cs
  String.ofList (q :: cs.flatMap (quotedChar q) ++ [q])

/-- A byte inside the given quotes. -/
def quotedByte (quote : Char) (b : UInt8) : List Char :=
  let c := Char.ofNat b.toNat
  if c = quote || c = '\\' then ['\\', c]
  else if c = '\n' then ['\\', 'n']
  else if c = '\r' then ['\\', 'r']
  else if c = '\t' then ['\\', 't']
  else if 0x20 ≤ b && b < 0x7F then [c]
  else '\\' :: 'x' :: hex 2 b.toNat

/-- The bytes between quotes, after a mark that tells them from a text. -/
def quotedBytes (bs : List UInt8) : String :=
  let q := quoteFor (bs.map fun b => Char.ofNat b.toNat)
  String.ofList ('b' :: q :: bs.flatMap (quotedByte q) ++ [q])

end Text

end CredentialWrites
