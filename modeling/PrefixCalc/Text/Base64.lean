/-
  Raw bytes written with 64 characters.  Four characters stand for three bytes; at the end of a text
  one or two equals signs fill up the last four, and what does not make up a byte is not looked at.
  Line breaks may stand anywhere.
-/
import PrefixCalc.Text.Utf8

namespace PrefixCalc.Base64

/-- The six bits that a character stands for. -/
def bits? (c : Char) : Option Nat :=
  if 'A' ≤ c ∧ c ≤ 'Z' then some (c.toNat - 'A'.toNat)
  else if 'a' ≤ c ∧ c ≤ 'z' then some (c.toNat - 'a'.toNat + 26)
  else if '0' ≤ c ∧ c ≤ '9' then some (c.toNat - '0'.toNat + 52)
  else if c == '+' then some 62
  else if c == '/' then some 63
  else none

/-- The three bytes of 24 bits. -/
def bytesOf (n : Nat) : Bytes := [(n / 65536).toUInt8, (n / 256).toUInt8, n.toUInt8]

/-- The bytes of four characters, the second half of which may be missing. -/
def quantum? (a b : Char) (c d : Option Char) : Option Bytes := do
  let third ← c.elim (some 0) bits?
  let fourth ← d.elim (some 0) bits?
  return bytesOf (((64 * (← bits? a) + (← bits? b)) * 64 + third) * 64 + fourth)

/-- Reads characters four at a time. -/
def quanta? : List Char → Option Bytes
  | [] => some []
  | [a, b, '=', '='] => (quantum? a b none none).map (·.take 1)
  | [a, b, c, '='] => (quantum? a b c none).map (·.take 2)
  | a :: b :: c :: d :: rest => do return (← quantum? a b c d) ++ (← quanta? rest)
  | _ => none

/-- The bytes that a text stands for. -/
def decode? (cs : List Char) : Option Bytes := quanta? (cs.filter fun c => c != '\n' && c != '\r')

example : decode? "cHJvbXB0".toList = some (Utf8.ofString "prompt") := by decide

example : decode? "eWU=".toList = some (Utf8.ofString "ye") := by decide

example : decode? "eQ=\n=".toList = some (Utf8.ofString "y") := by decide

example : decode? "==".toList = none := by decide

end PrefixCalc.Base64
