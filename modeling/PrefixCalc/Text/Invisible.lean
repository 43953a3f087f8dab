/-
  Characters that a prompt must not have, since they would confuse the count of its columns: control
  and format characters, those for private use, and code points without a character.  What may stand
  in a prompt is what shows, and white space that only separates.
-/
import PrefixCalc.Text.Printable

namespace PrefixCalc

/-- The characters of the Unicode general categories Zs, Zl and Zp. -/
def separatorRanges : List CodeRange :=
  [
    (0x20, 0x20), (0xA0, 0xA0), (0x1680, 0x1680), (0x2000, 0x200A), (0x2028, 0x2029),
    (0x202F, 0x202F), (0x205F, 0x205F), (0x3000, 0x3000)
  ]

/-- A space or a separator of lines or paragraphs. -/
def isSeparator (c : Char) : Bool := separatorRanges.any (·.contains c.toNat)

/-- A character that neither shows nor separates. -/
def isInvisible (c : Char) : Bool := !isPrintable c && !isSeparator c

end PrefixCalc
