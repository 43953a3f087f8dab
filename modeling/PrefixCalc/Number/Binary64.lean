/-
  The calculator's numbers are binary floating point numbers of 64 bits.  This module ties them to
  exact arithmetic, in both directions:

    * `magnitude?` reads a number as `m · 2^q` with naturals `m` and integers `q`;
    * `nearest` gives the number nearest to a ratio of naturals, a half going to the even neighbour.

  Both work on the bit pattern.  The patterns of the non-negative numbers, read as naturals, are
  in the order of the numbers and without gaps, so that `(q + 1074) · 2^52 + m` is the pattern of
  `m · 2^q` for small and for normal numbers alike, also when rounding carries `m` up to `2^53`.
-/
namespace PrefixCalc.Binary64

/-- The least exponent: every finite number is a multiple of `2^leastExponent`. -/
def leastExponent : Int := -1074

/-- Digits of the significand behind its leading one. -/
def fractionBits : Nat := 52

/-- The pattern of positive infinity.  Patterns below it are finite. -/
def infinityPattern : Nat := 0x7FF0000000000000

/-- The pattern's sign bit. -/
def signPattern : Nat := 0x8000000000000000

/-- The pattern without its sign. -/
def unsignedPattern (x : Float) : Nat := x.toBits.toNat % signPattern

/-- The sign bit is set. -/
def isNegative (x : Float) : Bool := signPattern ≤ x.toBits.toNat

/-- The number with this sign and this unsigned pattern. -/
def ofPattern (negative : Bool) (pattern : Nat) : Float :=
  Float.ofBits (UInt64.ofNat (if negative then signPattern + pattern else pattern))

/-- Positive infinity. -/
def infinity : Float := ofPattern false infinityPattern

/-- Not a number. -/
def nan : Float := Float.ofBits 0x7FF8000000000000

/-- A dyadic magnitude: `significand · 2^exponent`. -/
structure Magnitude where
  significand : Nat
  exponent : Int
deriving Repr, DecidableEq

/-- The magnitude of a pattern below infinity. -/
def Magnitude.ofPattern (pattern : Nat) : Magnitude :=
  if pattern / Nat.pow 2 fractionBits = 0 then ⟨pattern, leastExponent⟩
  else ⟨Nat.pow 2 fractionBits + pattern % Nat.pow 2 fractionBits,
    leastExponent + (pattern / Nat.pow 2 fractionBits : Nat) - 1⟩

/-- The magnitude of a finite number. -/
def magnitude? (x : Float) : Option Magnitude :=
  if unsignedPattern x < infinityPattern then some (.ofPattern (unsignedPattern x)) else none

/-! ## Rounding a ratio -/

/-- The natural nearest to `num / den`, a half going to the even neighbour. -/
def roundDiv (num den : Nat) : Nat :=
  let q := num / den
  let twice := 2 * (num % den)
  if twice < den then q
  else if den < twice then q + 1
  else if q % 2 = 0 then q
  else q + 1

/-- The natural nearest to `num / den / 2^q`. -/
def roundScaled (num den : Nat) (q : Int) : Nat :=
  match q with
  | .ofNat k => roundDiv num (den * Nat.pow 2 k)
  | .negSucc k => roundDiv (num * Nat.pow 2 (k + 1)) den

/-- `2^k ≤ num / den`. -/
def isAtLeastPower (num den : Nat) (k : Int) : Bool :=
  match k with
  | .ofNat k => den * Nat.pow 2 k ≤ num
  | .negSucc k => den ≤ num * Nat.pow 2 (k + 1)

/-- The greatest `k` with `2^k ≤ num / den`, for positive `num` and `den`. -/
def floorLog (num den : Nat) : Int :=
  let k : Int := (num.log2 : Int) - den.log2
  if isAtLeastPower num den k then k else k - 1

/-- The unsigned pattern nearest to `num / den`; it is not below `infinityPattern` when the ratio is
    too large. -/
def nearestPattern (num den : Nat) : Nat :=
  if num = 0 then 0
  else
    let q := max leastExponent (floorLog num den - fractionBits)
    (q - leastExponent).toNat * Nat.pow 2 fractionBits + roundScaled num den q

/-- The number nearest to `± num / den`, if the ratio is not too large. -/
def nearest? (negative : Bool) (num den : Nat) : Option Float :=
  let pattern := nearestPattern num den
  if pattern < infinityPattern then some (ofPattern negative pattern) else none

/-- The number nearest to `± num / den`, an infinity if the ratio is too large. -/
def nearest (negative : Bool) (num den : Nat) : Float :=
  (nearest? negative num den).getD (ofPattern negative infinityPattern)

/-- The number nearest to `± m · 2^q`. -/
def ofMagnitude (negative : Bool) (m : Magnitude) : Float :=
  match m.exponent with
  | .ofNat k => nearest negative (m.significand * Nat.pow 2 k) 1
  | .negSucc k => nearest negative m.significand (Nat.pow 2 (k + 1))

end PrefixCalc.Binary64
