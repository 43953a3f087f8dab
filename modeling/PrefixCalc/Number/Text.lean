/-
  How numbers are written: the shortest decimal that reads back, positionally unless the number is
  very large or very small, and then with one digit before the point and an exponent of at least two
  digits.
-/
import PrefixCalc.Number.Shortest

namespace PrefixCalc

namespace Decimal

/-- The digits of the coefficient. -/
def digits (d : Decimal) : List Char := Nat.toDigits 10 d.coefficient

/-- Written with a point where the fraction begins, and without one if there is none. -/
def positional (d : Decimal) : List Char :=
  match d.exponent with
  | .ofNat k => d.digits ++ List.replicate k '0'
  | .negSucc k =>
    let padded := List.replicate (k + 2 - d.digits.length) '0' ++ d.digits
    let whole := padded.length - (k + 1)
    padded.take whole ++ '.' :: padded.drop whole

/-- An exponent with its sign, in at least two digits. -/
def exponentText (e : Int) : List Char :=
  let ds := Nat.toDigits 10 e.natAbs
  (if e < 0 then '-' else '+') :: (List.replicate (2 - ds.length) '0' ++ ds)

/-- Written as one digit, the further digits after a point, and an exponent. -/
def scientific (d : Decimal) : List Char :=
  let e := exponentText (d.exponent + d.digits.length - 1)
  match d.digits with
  | [] => []
  | [c] => c :: 'e' :: e
  | c :: cs => c :: '.' :: cs ++ 'e' :: e

end Decimal

namespace NumberText

/-- The pattern of one millionth, the least positive number written positionally. -/
def leastPositional : Nat := 0x3EB0C6F7A0B5ED8D

/-- The pattern of `10^21`, the least number too large to be written positionally. -/
def pastPositional : Nat := 0x444B1AE4D6E2EF50

/-- Numbers of this unsigned pattern are written without an exponent. -/
def isPositional (pattern : Nat) : Bool :=
  pattern == 0 || (leastPositional ≤ pattern && pattern < pastPositional)

/-- The text of a finite number without its sign. -/
def unsigned (pattern : Nat) : List Char :=
  if pattern = 0 then ['0']
  else if isPositional pattern then (Shortest.decimal pattern).positional
  else (Shortest.decimal pattern).scientific

end NumberText

/-- The characters a number is written with. -/
def numberChars (x : Float) : List Char :=
  let pattern := Binary64.unsignedPattern x
  let negative := Binary64.isNegative x
  if Binary64.infinityPattern < pattern then ['N', 'a', 'N']
  else if pattern = Binary64.infinityPattern then
    (if negative then '-' else '+') :: ['I', 'n', 'f']
  else if negative then '-' :: NumberText.unsigned pattern
  else NumberText.unsigned pattern

/-- The text of a number. -/
def numberText (x : Float) : String := String.ofList (numberChars x)

end PrefixCalc
