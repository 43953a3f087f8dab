/-
  The shortest decimal of a number: of all decimals that read back as the number it takes one with
  the fewest digits, of those the nearest, and of two equally near the even one.

  On the grid of decimals with `n` digits the only candidates are the two neighbours of the number,
  so the search goes up from one digit and tries two decimals at each step (the upper one may be a
  power of ten, whose zeros are then dropped).  Whether a decimal reads back is asked of the reader
  itself.  Seventeen digits always suffice; should no candidate read
  back, the exact expansion of the number stands in, which reads back by itself.
-/
import PrefixCalc.Number.Decimal

namespace PrefixCalc

namespace Binary64.Magnitude

/-- The magnitude as a ratio of naturals. -/
def ratio (m : Magnitude) : Nat × Nat :=
  match m.exponent with
  | .ofNat k => (m.significand * Nat.pow 2 k, 1)
  | .negSucc k => (m.significand, Nat.pow 2 (k + 1))

/-- The exact decimal expansion: `m / 2^k = m · 5^k / 10^k`. -/
def toDecimal (m : Magnitude) : Decimal :=
  match m.exponent with
  | .ofNat k => ⟨m.significand * Nat.pow 2 k, 0⟩
  | .negSucc k => ⟨m.significand * Nat.pow 5 (k + 1), .negSucc k⟩

end Binary64.Magnitude

namespace Decimal

/-- The same decimal without zeros at the end of its coefficient. -/
def reduced (d : Decimal) : Decimal :=
  if 0 < d.coefficient ∧ d.coefficient % 10 = 0 then
    reduced ⟨d.coefficient / 10, d.exponent + 1⟩
  else d
termination_by d.coefficient
decreasing_by omega

end Decimal

namespace Shortest

/-- How many decimal digits a natural has. -/
def decimalLength (n : Nat) : Nat := (Nat.toDigits 10 n).length

/-- The `k` with `10^(k-1) ≤ num / den < 10^k`, for positive `num` and `den`. -/
def pointPosition (num den : Nat) : Int :=
  if den ≤ num then decimalLength (num / den)
  else 1 - (decimalLength ((den + num - 1) / num - 1) : Int)

/-- The grid point at or below `num / den` among the multiples of `10^e`, with the remainder and the
    divisor that tell how far away it is. -/
def below (num den : Nat) (e : Int) : Nat × Nat × Nat :=
  match e with
  | .ofNat k => (num / (den * Nat.pow 10 k), num % (den * Nat.pow 10 k), den * Nat.pow 10 k)
  | .negSucc k => (num * Nat.pow 10 (k + 1) / den, num * Nat.pow 10 (k + 1) % den, den)

/-- The better of two neighbours that both read back: the nearer, and of equals the even one. -/
def better (low remainder divisor : Nat) : Nat :=
  if 2 * remainder < divisor then low
  else if divisor < 2 * remainder then low + 1
  else if low % 2 = 0 then low
  else low + 1

/-- The decimal with the grid step `10^e` that reads back, if one does. -/
def onGrid? (readsBack : Decimal → Bool) (num den : Nat) (e : Int) : Option Decimal :=
  let (low, remainder, divisor) := below num den e
  let lower : Decimal := ⟨low, e⟩
  let upper : Decimal := ⟨low + 1, e⟩
  match readsBack lower, readsBack upper with
  | true, true => some ⟨better low remainder divisor, e⟩
  | true, false => some lower
  | false, true => some upper
  | false, false => none

/-- A finite number of this sign and pattern is written with at most this many digits. -/
def mostDigits : Nat := 17

/-- The decimal reads back as the number with this unsigned pattern. -/
def readsBackAs (pattern : Nat) (d : Decimal) : Bool :=
  match d.toFloat? false with
  | some y => y.toBits.toNat == pattern
  | none => false

/-- The shortest decimal of a positive finite number, given by its unsigned pattern. -/
def decimal (pattern : Nat) : Decimal :=
  let m := Binary64.Magnitude.ofPattern pattern
  let (num, den) := m.ratio
  let k := pointPosition num den
  let found := (List.range mostDigits).findSome? fun i =>
    ((onGrid? (readsBackAs pattern) num den (k - (i + 1 : Nat))).map Decimal.reduced).filter
      (readsBackAs pattern)
  found.getD m.toDecimal

end Shortest

end PrefixCalc
