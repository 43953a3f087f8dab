/-
  Lines reach the calculator as raw bytes, and the language is defined on characters.  This module
  reads bytes as UTF-8 in the forgiving way: whatever is not the lawful encoding of a character
  (a stray continuation byte, an overlong form, a surrogate, a value past U+10FFFF, a sequence cut
  short) costs exactly one byte and counts as one replacement character.

  `pieces` keeps the bytes next to the character they were read as, so that a text can be cut
  between characters and put together again without touching bytes that are not lawful;
  `decode` forgets the bytes, `encode` writes lawful ones.
-/
namespace PrefixCalc

/-- A raw text: the bytes of a line, of a file or of an input stream. -/
abbrev Bytes := List UInt8

namespace Utf8

/-- The character that stands for a byte which belongs to no lawful sequence. -/
def replacement : Char := '\uFFFD'

/-- A continuation byte, the second and later bytes of a sequence. -/
def isTail (b : UInt8) : Bool := 0x80 ≤ b && b ≤ 0xBF

/-- The six bits that a continuation byte carries. -/
def tailBits (b : UInt8) : Nat := b.toNat - 0x80

/-- The lawful bytes after a leading byte of a three byte sequence: `0xE0` would be overlong below
    `0xA0`, `0xED` would be a surrogate above `0x9F`. -/
def isSecondOfThree (lead b : UInt8) : Bool :=
  isTail b && (lead != 0xE0 || 0xA0 ≤ b) && (lead != 0xED || b ≤ 0x9F)

/-- The lawful bytes after a leading byte of a four byte sequence: `0xF0` would be overlong below
    `0x90`, `0xF4` would pass U+10FFFF above `0x8F`. -/
def isSecondOfFour (lead b : UInt8) : Bool :=
  isTail b && (lead != 0xF0 || 0x90 ≤ b) && (lead != 0xF4 || b ≤ 0x8F)

/-- The character whose encoding starts with `lead` and goes on in `rest`, with the number of bytes
    of `rest` that belong to it; `none` when no lawful sequence stands there. -/
def sequence? (lead : UInt8) (rest : Bytes) : Option (Char × Nat) :=
  if lead < 0x80 then some (Char.ofNat lead.toNat, 0)
  else if 0xC2 ≤ lead && lead ≤ 0xDF then
    match rest with
    | b₁ :: _ =>
      if isTail b₁ then some (Char.ofNat ((lead.toNat - 0xC0) * 64 + tailBits b₁), 1) else none
    | [] => none
  else if 0xE0 ≤ lead && lead ≤ 0xEF then
    match rest with
    | b₁ :: b₂ :: _ =>
      if isSecondOfThree lead b₁ && isTail b₂ then
        some (Char.ofNat ((lead.toNat - 0xE0) * 4096 + tailBits b₁ * 64 + tailBits b₂), 2)
      else none
    | _ => none
  else if 0xF0 ≤ lead && lead ≤ 0xF4 then
    match rest with
    | b₁ :: b₂ :: b₃ :: _ =>
      if isSecondOfFour lead b₁ && isTail b₂ && isTail b₃ then
        some (Char.ofNat ((lead.toNat - 0xF0) * 262144 + tailBits b₁ * 4096 + tailBits b₂ * 64
          + tailBits b₃), 3)
      else none
    | _ => none
  else none

/-- One character of a raw text and the bytes it was read from. -/
structure Piece where
  char : Char
  bytes : Bytes
deriving Repr, DecidableEq

/-- The pieces of a raw text when its first `skip` bytes belong to a character already read. -/
def piecesAfter : Nat → Bytes → List Piece
  | _, [] => []
  | skip + 1, _ :: rest => piecesAfter skip rest
  | 0, b :: rest =>
    match sequence? b rest with
    | some (c, n) => ⟨c, b :: rest.take n⟩ :: piecesAfter n rest
    | none => ⟨replacement, [b]⟩ :: piecesAfter 0 rest

/-- Cuts a raw text into its characters. -/
def pieces (bs : Bytes) : List Piece := piecesAfter 0 bs

/-- The characters of a raw text. -/
def decode (bs : Bytes) : List Char := (pieces bs).map (·.char)

/-- Every byte belongs to a lawful sequence. -/
def isLawful (bs : Bytes) : Bool :=
  (pieces bs).all fun p => p.bytes.length != 1 || p.bytes.all (· < 0x80)

/-- The raw text that a list of pieces was cut from. -/
def join (ps : List Piece) : Bytes := ps.flatMap (·.bytes)

/-- The lawful encoding of a list of characters. -/
def encode (cs : List Char) : Bytes := cs.flatMap String.utf8EncodeChar

/-- The raw text of a string. -/
def ofString (s : String) : Bytes := encode s.toList

/-- The string that a raw text reads as. -/
def toString (bs : Bytes) : String := String.ofList (decode bs)

@[simp] theorem decode_nil : decode [] = [] := rfl

@[simp] theorem join_nil : join [] = [] := rfl

@[simp] theorem join_cons (p : Piece) (ps : List Piece) : join (p :: ps) = p.bytes ++ join ps := rfl

end Utf8

end PrefixCalc
