/-
  White space.  Between the words of a line any amount of white space counts the same, and white
  space around a line does not belong to it.  The characters are those of the Unicode property
  White_Space.
-/
import PrefixCalc.Text.Utf8

namespace PrefixCalc

/-- White space, by code point. -/
def isBlankCode (n : Nat) : Bool :=
  (0x09 ≤ n && n ≤ 0x0D) || n == 0x20 || n == 0x85 || n == 0xA0 || n == 0x1680
    || (0x2000 ≤ n && n ≤ 0x200A) || n == 0x2028 || n == 0x2029 || n == 0x202F || n == 0x205F
    || n == 0x3000

/-- White space. -/
def isBlank (c : Char) : Bool := isBlankCode c.toNat

namespace Utf8

/-- Drops white space at the front of a text that is cut into characters. -/
def dropBlank (ps : List Piece) : List Piece := ps.dropWhile fun p => isBlank p.char

/-- A raw text without the white space around it.  Bytes that are not lawful are kept: they read as
    replacement characters, which are not white space. -/
def trim (bs : Bytes) : Bytes :=
  join (dropBlank (dropBlank (pieces bs)).reverse).reverse

/-- A raw text of white space only. -/
def isAllBlank (bs : Bytes) : Bool := (trim bs).isEmpty

end Utf8

end PrefixCalc
