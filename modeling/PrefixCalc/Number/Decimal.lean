/-
  Decimal numerals.  A number is written as an optional minus sign, digits with at most one point
  among them, and an optional exponent; it means the floating point number nearest to the ratio
  that is written, a half going to the even neighbour.  A numeral too large for that has no meaning,
  one too small means a zero of its sign.
-/
import PrefixCalc.Number.Binary64

namespace PrefixCalc

/-- A decimal magnitude: `coefficient · 10^exponent`. -/
structure Decimal where
  coefficient : Nat
  exponent : Int
deriving Repr, DecidableEq

namespace Decimal

/-- The number nearest to `± coefficient · 10^exponent`, if it is not too large. -/
def toFloat? (negative : Bool) (d : Decimal) : Option Float :=
  match d.exponent with
  | .ofNat k => Binary64.nearest? negative (d.coefficient * Nat.pow 10 k) 1
  | .negSucc k => Binary64.nearest? negative d.coefficient (Nat.pow 10 (k + 1))

/-- The natural that a list of digits writes. -/
def digitsValue (ds : List Char) : Nat := Nat.ofDigitChars 10 ds 0

/-- An exponent stops growing once it has passed this bound: by then the number is a zero or too
    large, unless a numeral of thousands of digits stands before it. -/
def exponentBound : Nat := 10000

/-- The exponent that a list of digits writes. -/
def exponentValue (ds : List Char) : Nat :=
  ds.foldl (fun e d => if e < exponentBound then 10 * e + (d.toNat - '0'.toNat) else e) 0

/-- The exponent part of a numeral, mark included; nothing stands for exponent zero. -/
def readExponent : List Char → Option Int
  | [] => some 0
  | mark :: rest =>
    if mark = 'e' ∨ mark = 'E' then
      let (negative, ds) : Bool × List Char :=
        match rest with
        | '-' :: ds => (true, ds)
        | '+' :: ds => (false, ds)
        | ds => (false, ds)
      if ds.isEmpty || !ds.all Char.isDigit then none
      else if negative then some (-(exponentValue ds : Int))
      else some (exponentValue ds)
    else none

/-- An unsigned numeral: digits, at most one point, at least one digit, an optional exponent. -/
def read (w : List Char) : Option Decimal :=
  let whole := w.takeWhile Char.isDigit
  let rest := w.dropWhile Char.isDigit
  let (fraction, rest) : List Char × List Char :=
    match rest with
    | '.' :: r => (r.takeWhile Char.isDigit, r.dropWhile Char.isDigit)
    | r => ([], r)
  if whole.isEmpty && fraction.isEmpty then none
  else
    (readExponent rest).map fun e =>
      ⟨digitsValue (whole ++ fraction), e - fraction.length⟩

end Decimal

/-- Infinity spelled out, in letters of either case. -/
def isInfinityWord (w : List Char) : Bool :=
  let low := w.map Char.toLower
  low == ['i', 'n', 'f'] || low == ['i', 'n', 'f', 'i', 'n', 'i', 't', 'y']

/-- The number that a word writes.  Infinity has a written form only with its sign. -/
def readNumber (w : List Char) : Option Float :=
  match w with
  | '-' :: rest =>
    if isInfinityWord rest then some (Binary64.ofPattern true Binary64.infinityPattern)
    else (Decimal.read rest).bind (Decimal.toFloat? true)
  | _ => (Decimal.read w).bind (Decimal.toFloat? false)

end PrefixCalc
