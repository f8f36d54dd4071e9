/-!
# Bytes as text

The strict reading of a sequence of bytes as text in the eight-bit encoding of the character
standard. A sequence that is no text is refused at its first ill-formed byte.
-/

namespace CredentialWrites

namespace Text

namespace Utf8

/-- Where and how a sequence of bytes stops being text: the index of the first byte of the
ill-formed part, and the length of that part, which is absent if the sequence ends within a
character. -/
structure Fault where
  index : Nat
  length : Option Nat
deriving Repr, DecidableEq

/-- A continuation byte. -/
def isTail (b : Nat) : Bool :=
  0x80 ≤ b && b ≤ 0xBF

/-- The second byte of a character of three or four bytes may follow its first. -/
def fitsSecond (first second : Nat) : Bool :=
  if first = 0xE0 then 0xA0 ≤ second && second ≤ 0xBF
  else if first = 0xED then 0x80 ≤ second && second ≤ 0x9F
  else if first = 0xF0 then 0x90 ≤ second && second ≤ 0xBF
  else if first = 0xF4 then 0x80 ≤ second && second ≤ 0x8F
  else isTail second

/-- The characters of the bytes, the first of which has the given index. -/
def decodeFrom (index : Nat) : List Nat → Except Fault (List Char)
  | [] => .ok []
  | a :: rest =>
    if a < 0x80 then (Char.ofNat a :: ·) <$> decodeFrom (index + 1) rest
    else if 0xC2 ≤ a && a ≤ 0xDF then
      match rest with
      | [] => .error ⟨index, none⟩
      | b :: rest =>
        if !isTail b then .error ⟨index, some 1⟩
        else (Char.ofNat ((a - 0xC0) * 0x40 + (b - 0x80)) :: ·) <$> decodeFrom (index + 2) rest
    else if 0xE0 ≤ a && a ≤ 0xEF then
      match rest with
      | [] => .error ⟨index, none⟩
      | b :: rest =>
        if !fitsSecond a b then .error ⟨index, some 1⟩
        else match rest with
          | [] => .error ⟨index, none⟩
          | c :: rest =>
            if !isTail c then .error ⟨index, some 2⟩
            else (Char.ofNat ((a - 0xE0) * 0x1000 + (b - 0x80) * 0x40 + (c - 0x80)) :: ·) <$>
              decodeFrom (index + 3) rest
    else if 0xF0 ≤ a && a ≤ 0xF4 then
      match rest with
      | [] => .error ⟨index, none⟩
      | b :: rest =>
        if !fitsSecond a b then .error ⟨index, some 1⟩
        else match rest with
          | [] => .error ⟨index, none⟩
          | c :: rest =>
            if !isTail c then .error ⟨index, some 2⟩
            else match rest with
              | [] => .error ⟨index, none⟩
              | d :: rest =>
                if !isTail d then .error ⟨index, some 3⟩
                else (Char.ofNat ((a - 0xF0) * 0x40000 + (b - 0x80) * 0x1000 + (c - 0x80) * 0x40
                    + (d - 0x80)) :: ·) <$> decodeFrom (index + 4) rest
    else .error ⟨index, some 1⟩

/-- The text that the bytes spell. -/
def decode (bytes : List UInt8) : Except Fault String :=
  String.ofList <$> decodeFrom 0 (bytes.map UInt8.toNat)

end Utf8

end Text

end CredentialWrites
