/-
  Raw texts in units of sixteen bits.  A character past U+FFFF is written as two units, a high
  surrogate and a low one; a surrogate that stands alone is not lawful.
-/
import PrefixCalc.Text.Utf8

namespace PrefixCalc.Utf16

/-- The units of a raw text, unless half a unit is left over.  `isBig` tells that the higher byte of a
    unit stands first. -/
def units? (isBig : Bool) : Bytes → Option (List Nat)
  | [] => some []
  | a :: b :: rest => do
    let unit := if isBig then 256 * a.toNat + b.toNat else 256 * b.toNat + a.toNat
    return unit :: (← units? isBig rest)
  | [_] => none

/-- The first unit of a pair. -/
def isHigh (u : Nat) : Bool := 0xD800 ≤ u && u < 0xDC00

/-- The second unit of a pair. -/
def isLow (u : Nat) : Bool := 0xDC00 ≤ u && u < 0xE000

/-- The characters of a list of units, if it is lawful. -/
def characters? : List Nat → Option (List Char)
  | [] => some []
  | [u] => if isHigh u || isLow u then none else some [Char.ofNat u]
  | u :: v :: rest =>
    if isHigh u then
      if isLow v then
        return Char.ofNat (0x10000 + 1024 * (u - 0xD800) + (v - 0xDC00)) :: (← characters? rest)
      else none
    else if isLow u then none
    else return Char.ofNat u :: (← characters? (v :: rest))

/-- The characters of a raw text, if it is lawful. -/
def decode? (isBig : Bool) (bs : Bytes) : Option (List Char) := do characters? (← units? isBig bs)

example : decode? true [0x00, 0x61, 0xD8, 0x3D, 0xDE, 0x00] = some ['a', '😀'] := by decide

example : decode? false [0x61, 0x00, 0x3D, 0xD8] = none := by decide

end PrefixCalc.Utf16
