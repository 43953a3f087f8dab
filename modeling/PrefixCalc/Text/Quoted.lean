/-
  Quoted text, as the log shows a line: between quotation marks, with printable characters as they
  are and an escape for everything else, so that a quoted text is always one line of printable
  characters.  A byte that belongs to no character is shown by its value.
-/
import PrefixCalc.Text.Utf8
import PrefixCalc.Text.Printable

namespace PrefixCalc.Quoted

/-- A hexadecimal number in lower case, filled up with zeros to `width` digits. -/
def hex (width n : Nat) : List Char :=
  let ds := Nat.toDigits 16 n
  List.replicate (width - ds.length) '0' ++ ds

/-- The letter after the backslash, for the characters that have a short escape. -/
def letter? (c : Char) : Option Char :=
  match c.toNat with
  | 0x07 => some 'a'
  | 0x08 => some 'b'
  | 0x09 => some 't'
  | 0x0A => some 'n'
  | 0x0B => some 'v'
  | 0x0C => some 'f'
  | 0x0D => some 'r'
  | _ => none

/-- How a character is shown. -/
def char (c : Char) : List Char :=
  if c = '"' ∨ c = '\\' then ['\\', c]
  else if isPrintable c then [c]
  else
    match letter? c with
    | some l => ['\\', l]
    | none =>
      let n := c.toNat
      if n < 0x80 then '\\' :: 'x' :: hex 2 n
      else if n < 0x10000 then '\\' :: 'u' :: hex 4 n
      else '\\' :: 'U' :: hex 8 n

/-- How a piece of a raw text is shown. -/
def piece (p : Utf8.Piece) : List Char :=
  match p.bytes with
  | [b] => if b < 0x80 then char p.char else '\\' :: 'x' :: hex 2 b.toNat
  | _ => char p.char

/-- A raw text between quotation marks. -/
def bytes (bs : Bytes) : String :=
  String.ofList ('"' :: (Utf8.pieces bs).flatMap piece ++ ['"'])

/-- A text between quotation marks. -/
def string (s : String) : String := bytes (Utf8.ofString s)

end PrefixCalc.Quoted
