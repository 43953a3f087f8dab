/-
  Powers.  A whole exponent is taken bit by bit: the base is split into a fraction in `[1/2, 1)` and a
  power of two, the fraction is squared again and again and multiplied in where the exponent has a
  one, and the powers of two are added up apart.  Each multiplication rounds, so that the result may
  differ from the nearest number in its last digits: `10^308` comes out as `1.0000000000000006e+308`.

  Of the exponents with a fraction, `1/2` and `-1/2` go by square roots, and every other is left to
  the platform (`Float.pow`).  There the last digits may differ from those of an exponential for the
  fraction times a product for the whole part, as in `1e250^0.49`.
-/
import PrefixCalc.Number.Binary64

namespace PrefixCalc.Power

open Binary64

/-- The whole part of a magnitude. -/
def wholePart (m : Magnitude) : Nat :=
  match m.exponent with
  | .ofNat k => m.significand * Nat.pow 2 k
  | .negSucc k => m.significand / Nat.pow 2 (k + 1)

/-- Nothing stands behind the point. -/
def isWhole (m : Magnitude) : Bool :=
  match m.exponent with
  | .ofNat _ => true
  | .negSucc k => m.significand % Nat.pow 2 (k + 1) == 0

/-- The magnitude of a number that is known to be finite. -/
def magnitude (x : Float) : Magnitude := .ofPattern (unsignedPattern x)

/-- An odd whole number. -/
def isOdd (y : Float) : Bool := isWhole (magnitude y) && wholePart (magnitude y) % 2 == 1

/-- The number with its power of two changed by `k`. -/
def scale (x : Float) (k : Int) : Float :=
  if x == 0 || !x.isFinite then x
  else
    let m := magnitude x
    ofMagnitude (isNegative x) { m with exponent := m.exponent + k }

/-- A finite number other than zero as a fraction in `[1/2, 1)` and a power of two. -/
def split (x : Float) : Float × Int :=
  let m := magnitude x
  let width : Nat := m.significand.log2 + 1
  (ofMagnitude (isNegative x) ⟨m.significand, -(width : Int)⟩, m.exponent + width)

/-- Past this power of two a product can only overflow or vanish. -/
def farExponent : Int := 4096

/-- Multiplies `a · 2^ae` by the `i`-th power of `x · 2^xe`, one bit of `i` at a time. -/
def multiply (i : Nat) (x : Float) (xe : Int) (a : Float) (ae : Int) : Float × Int :=
  if i = 0 then (a, ae)
  else if xe < -farExponent ∨ farExponent < xe then (a, ae + xe)
  else
    let a' := if i % 2 = 1 then a * x else a
    let ae' := if i % 2 = 1 then ae + xe else ae
    let square := x * x
    if square < 0.5 then multiply (i / 2) (square + square) (2 * xe - 1) a' ae'
    else multiply (i / 2) square (2 * xe) a' ae'
termination_by i

/-- A finite number other than zero to the power `± n`. -/
def toWhole (x : Float) (n : Nat) (negative : Bool) : Float :=
  let (fraction, e) := split x
  let (a, ae) := multiply n fraction e 1 0
  if negative then scale (1 / a) (-ae) else scale a ae

/-- Zero of either sign to a power other than zero. -/
def ofZero (negative : Bool) (y : Float) : Float :=
  if y < 0 then ofPattern (negative && isOdd y) infinityPattern
  else ofPattern (negative && isOdd y) 0

/-- A base to an exponent that is infinite, or so large that the result is one, zero or infinite. -/
def toHuge (x y : Float) : Float :=
  if x == -1 then 1
  else if (x.abs < 1) == (0 < y) then 0
  else infinity

/-- Whole exponents from here on are all even and huge. -/
def hugeExponent : Nat := Nat.pow 2 63

/-- `x` to the power `y`.  The last digits of a power with a fraction in its exponent, other than
    `1/2` and `-1/2`, are those of the platform. -/
def power (x y : Float) : Float :=
  if y == 0 || x == 1 then 1
  else if y == 1 then x
  else if x.isNaN || y.isNaN then nan
  else if x == 0 then ofZero (isNegative x) y
  else if y.isInf then toHuge x y
  else if x.isInf then
    if isNegative x then ofZero true (-y)
    else if y < 0 then 0
    else infinity
  else if y == 0.5 then x.sqrt
  else if y == -0.5 then 1 / x.sqrt
  else if !isWhole (magnitude y) then
    if x < 0 then nan else Float.pow x y
  else if hugeExponent ≤ wholePart (magnitude y) then toHuge x y
  else toWhole x (wholePart (magnitude y)) (y < 0)

end PrefixCalc.Power
