/-
  Numbers compare as their patterns do.

  1. **Parts** — the vector of a finite number is taken apart into a zero, or into a significand and
     an exponent, and these make up the pattern again (`Unpacks`, `unpacks_unpack`).  A vector with
     the sign taken away is taken apart into the absolute value (`unpack_unsigned`).

  2. **Comparison** — two numbers without a sign are compared by exponent first and by significand
     then.  A pattern has the exponent in front of the significand, so this is the order of the
     patterns as naturals (`ofPattern_lt_iff`, `ofPattern_le_iff`), across small and normal numbers.

  3. **Thresholds** (`isPositional_iff`) — hence the two patterns between which numbers are written
     without an exponent are those of the two limits, one millionth and `10^21`.
-/
import PrefixCalc.Number.Text
import PrefixCalc.Proofs.Number.Pattern

namespace PrefixCalc

namespace Binary64

open Float.Model (Format UnpackedFloat)
open Float.Model.UnpackedFloat

/-! ## Taking a number apart -/

/-- What the pattern of a finite number is taken apart into: a zero, or a significand and an exponent
    that make up the pattern.  Only a number with the least exponent has a small significand. -/
inductive Unpacks (s : Sign) (pattern : Nat) : UnpackedFloat → Prop
  | zero : pattern = 0 → Unpacks s pattern (.zero s)
  | finite {k n : Nat} {e : Int} {hn : 0 < n} : e = leastExponent + k →
      pattern = k * 2 ^ fractionBits + n → n < 2 ^ (fractionBits + 1) →
      k = 0 ∨ 2 ^ fractionBits ≤ n → Unpacks s pattern (.finite s n e hn)

theorem unpacks_unpack {v : BitVec 64} (h : v.toNat % signPattern < infinityPattern) :
    Unpacks (Sign.ofBitVec (@unpackSign Format.binary64 v)) (v.toNat % signPattern)
      (unpack Format.binary64 v) := by
  have hlt : v.toNat < 2 ^ 64 := v.isLt
  have hm := toNat_unpackMantissa v
  have he := toNat_unpackExponent v
  simp only [signPattern, infinityPattern] at h ⊢
  simp only [unpack]
  split
  · next hones =>
    -- all ones is the exponent of infinity
    have hmost : (-1#11 : BitVec 11).toNat = 2047 := rfl
    rw [hones, hmost] at he
    omega
  · split
    · next hexp =>
      have hzero : (0#11 : BitVec 11).toNat = 0 := rfl
      rw [hexp, hzero] at he
      split
      · next hfraction =>
        have hnone : (0#52 : BitVec 52).toNat = 0 := rfl
        rw [hfraction, hnone] at hm
        exact .zero (by omega)
      · -- a small number: its significand is the whole pattern
        refine .finite (k := 0) ?_ ?_ ?_ (Or.inl rfl)
        · rw [hexp]
          rfl
        · omega
        · simp only [fractionBits]
          omega
    · next hexp =>
      -- a normal number: the leading one of its significand counts as one more exponent
      have hpos : (@unpackExponent Format.binary64 v).toNat ≠ 0 := fun hzero =>
        hexp (BitVec.eq_of_toNat_eq hzero)
      have hn : (1#1 ++ @unpackMantissa Format.binary64 v).toNat =
          2 ^ 52 + (@unpackMantissa Format.binary64 v).toNat := by
        rw [toNat_append]
        rfl
      refine .finite (k := (@unpackExponent Format.binary64 v).toNat - 1) ?_ ?_ ?_ (Or.inr ?_)
      · show _ - (1023 + 52 : Int) = -1074 + _
        omega
      · rw [hn]
        simp only [fractionBits]
        omega
      · rw [hn]
        simp only [fractionBits]
        omega
      · rw [hn]
        simp only [fractionBits]
        omega

/-- A finite number is taken apart along its pattern. -/
theorem unpacks_toModel {x : Float} (h : unsignedPattern x < infinityPattern) :
    Unpacks (if isNegative x then .negative else .positive) (unsignedPattern x)
      x.toModel.unpack := by
  have hunpack : Unpacks _ (unsignedPattern x) x.toModel.unpack :=
    @unpacks_unpack x.toBits.toBitVec h
  have hsign : (@unpackSign Format.binary64 x.toBits.toBitVec).toNat = x.toBits.toNat / 2 ^ 63 :=
    toNat_unpackSign x.toBits.toBitVec
  have hlt : x.toBits.toNat < 2 ^ 64 := x.toBits.toNat_lt
  by_cases hneg : signPattern ≤ x.toBits.toNat
  · have hone : @unpackSign Format.binary64 x.toBits.toBitVec = 1#1 := by
      apply BitVec.eq_of_toNat_eq
      rw [hsign]
      simp only [signPattern] at hneg
      show x.toBits.toNat / 2 ^ 63 = 1
      omega
    rw [hone] at hunpack
    rw [isNegative, if_pos (decide_eq_true hneg)]
    exact hunpack
  · have hzero : @unpackSign Format.binary64 x.toBits.toBitVec = 0#1 := by
      apply BitVec.eq_of_toNat_eq
      rw [hsign]
      simp only [signPattern] at hneg
      show x.toBits.toNat / 2 ^ 63 = 0
      omega
    rw [hzero] at hunpack
    rw [isNegative, if_neg (by simpa using hneg)]
    exact hunpack

/-- The finite numbers are those with a pattern below infinity's. -/
theorem isFinite_iff {x : Float} : x.isFinite = true ↔ unsignedPattern x < infinityPattern := by
  constructor
  · intro hfinite
    by_contra hge
    have hexp := toNat_unpackExponent x.toBits.toBitVec
    have hlt : x.toBits.toBitVec.toNat < 2 ^ 64 := x.toBits.toBitVec.isLt
    have hpattern : ¬ x.toBits.toBitVec.toNat % signPattern < infinityPattern := hge
    simp only [signPattern, infinityPattern] at hpattern
    have hones : @unpackExponent Format.binary64 x.toBits.toBitVec = -1#11 := by
      apply BitVec.eq_of_toNat_eq
      rw [hexp]
      show _ = 2047
      omega
    have hunpack : (unpack Format.binary64 x.toBits.toBitVec).isFinite = true := hfinite
    simp only [unpack] at hunpack
    rw [if_pos hones] at hunpack
    split at hunpack
    · cases hunpack
    · cases hunpack
  · intro h
    have hunpack := unpacks_toModel h
    show x.toModel.unpack.isFinite = true
    generalize x.toModel.unpack = a at hunpack ⊢
    cases hunpack with
    | zero _ => rfl
    | finite _ _ _ _ => rfl

/-! ## Absolute values -/

/-- Without its sign a vector is taken apart into the absolute value. -/
theorem unpack_unsigned (v : BitVec 64) :
    unpack Format.binary64 (BitVec.ofNat 64 (v.toNat % signPattern)) =
      (unpack Format.binary64 v).abs := by
  have hlt : v.toNat < 2 ^ 64 := v.isLt
  have hw : (BitVec.ofNat 64 (v.toNat % signPattern)).toNat = v.toNat % 2 ^ 63 := by
    rw [BitVec.toNat_ofNat, signPattern]
    omega
  have hm : @unpackMantissa Format.binary64 (BitVec.ofNat 64 (v.toNat % signPattern)) =
      @unpackMantissa Format.binary64 v := by
    apply BitVec.eq_of_toNat_eq
    rw [toNat_unpackMantissa, toNat_unpackMantissa, hw]
    omega
  have he : @unpackExponent Format.binary64 (BitVec.ofNat 64 (v.toNat % signPattern)) =
      @unpackExponent Format.binary64 v := by
    apply BitVec.eq_of_toNat_eq
    rw [toNat_unpackExponent, toNat_unpackExponent, hw]
    omega
  have hs : @unpackSign Format.binary64 (BitVec.ofNat 64 (v.toNat % signPattern)) = 0#1 := by
    apply BitVec.eq_of_toNat_eq
    rw [toNat_unpackSign, hw]
    show v.toNat % 2 ^ 63 / 2 ^ 63 = 0
    omega
  simp only [unpack, hm, he, hs]
  split
  · split
    · rfl
    · rfl
  · split
    · split
      · rfl
      · rfl
    · rfl

/-- The absolute value has the same pattern and no sign. -/
theorem abs_eq (x : Float) : x.abs = ofPattern false (unsignedPattern x) := by
  apply ext_toBits
  show UInt64.ofBitVec (pack Format.binary64 (unpack Format.binary64 x.toBits.toBitVec).abs) =
    UInt64.ofBitVec (pack Format.binary64
      (unpack Format.binary64 (BitVec.ofNat 64 (x.toBits.toBitVec.toNat % signPattern))))
  rw [unpack_unsigned]

/-! ## Comparison -/

/-- The exponent decides before the significand, and so it does in the pattern. -/
theorem then_compare_eq {k n k' n' : Nat} (hn : n < 2 ^ (fractionBits + 1))
    (hn' : n' < 2 ^ (fractionBits + 1)) (hk : k = 0 ∨ 2 ^ fractionBits ≤ n)
    (hk' : k' = 0 ∨ 2 ^ fractionBits ≤ n') :
    (compare (leastExponent + (k : Int)) (leastExponent + (k' : Int))).then (compare n n') =
      compare (k * 2 ^ fractionBits + n) (k' * 2 ^ fractionBits + n') := by
  simp only [fractionBits] at *
  rcases Nat.lt_trichotomy k k' with hlt | rfl | hgt
  · have hexp : compare (leastExponent + (k : Int)) (leastExponent + (k' : Int)) = .lt :=
      compare_lt_iff_lt.2 (by omega)
    rw [hexp, compare_lt_iff_lt.2 (show k * 2 ^ 52 + n < k' * 2 ^ 52 + n' by omega)]
    rfl
  · rw [compare_eq_iff_eq.2 rfl]
    show compare n n' = _
    rcases Nat.lt_trichotomy n n' with hlt | rfl | hgt
    · rw [compare_lt_iff_lt.2 hlt, compare_lt_iff_lt.2 (by omega)]
    · rw [compare_eq_iff_eq.2 rfl, compare_eq_iff_eq.2 rfl]
    · rw [compare_gt_iff_gt.2 hgt, compare_gt_iff_gt.2 (by omega)]
  · have hexp : compare (leastExponent + (k : Int)) (leastExponent + (k' : Int)) = .gt :=
      compare_gt_iff_gt.2 (by omega)
    rw [hexp, compare_gt_iff_gt.2 (show k' * 2 ^ 52 + n' < k * 2 ^ 52 + n by omega)]
    rfl

theorem Unpacks.compare_eq {p q : Nat} {a b : UnpackedFloat} (ha : Unpacks .positive p a)
    (hb : Unpacks .positive q b) : a.compare b = some (compare p q) := by
  cases ha with
  | zero hp =>
    cases hb with
    | zero hq =>
      rw [hp, hq]
      rfl
    | @finite k n e hn _ hq _ _ =>
      show some Ordering.lt = _
      rw [compare_lt_iff_lt.2 (show p < q by omega)]
  | @finite k n e hn he hp hlt hk =>
    cases hb with
    | zero hq =>
      show some Ordering.gt = _
      rw [compare_gt_iff_gt.2 (show q < p by omega)]
    | finite he' hq hlt' hk' =>
      rw [he, hp, he', hq, ← then_compare_eq hlt hlt' hk hk']
      rfl

theorem compare_ofPattern {p q : Nat} (hp : p < infinityPattern) (hq : q < infinityPattern) :
    (ofPattern false p).toModel.unpack.compare (ofPattern false q).toModel.unpack =
      some (compare p q) := by
  have hunpack {r : Nat} (hr : r < infinityPattern) :
      Unpacks .positive r (ofPattern false r).toModel.unpack := by
    have h := @unpacks_toModel (ofPattern false r)
    rw [unsignedPattern_ofPattern false hr.le, isNegative_ofPattern false hr.le] at h
    exact h hr
  exact (hunpack hp).compare_eq (hunpack hq)

theorem ofPattern_lt_iff {p q : Nat} (hp : p < infinityPattern) (hq : q < infinityPattern) :
    ofPattern false p < ofPattern false q ↔ p < q := by
  show decide (((ofPattern false p).toModel.unpack.compare (ofPattern false q).toModel.unpack
    == some .lt) = true) = true ↔ p < q
  rw [compare_ofPattern hp hq, decide_eq_true_iff, beq_iff_eq, Option.some.injEq,
    compare_lt_iff_lt]

theorem ofPattern_le_iff {p q : Nat} (hp : p < infinityPattern) (hq : q < infinityPattern) :
    ofPattern false p ≤ ofPattern false q ↔ p ≤ q := by
  show decide (((ofPattern false p).toModel.unpack.compare (ofPattern false q).toModel.unpack).any
    (·.isLE) = true) = true ↔ p ≤ q
  rw [compare_ofPattern hp hq, decide_eq_true_iff, Option.any_some, Std.isLE_compare]

/-- Both zeros are equal to zero, and no other number is. -/
theorem beq_zero_iff {x : Float} (h : unsignedPattern x < infinityPattern) :
    (x == 0) = true ↔ unsignedPattern x = 0 := by
  have hunpack := unpacks_toModel h
  show (x.toModel.unpack.compare (.zero .positive) == some .eq) = true ↔ _
  generalize x.toModel.unpack = a at hunpack ⊢
  cases hunpack with
  | zero hzero => exact ⟨fun _ => hzero, fun _ => rfl⟩
  | @finite k n e hn _ hpattern _ _ =>
    have hpos : unsignedPattern x ≠ 0 := by omega
    refine ⟨fun heq => ?_, fun hzero => absurd hzero hpos⟩
    generalize (if isNegative x = true then Sign.negative else Sign.positive) = s at heq
    cases s with
    | negative => cases heq
    | positive => cases heq

end Binary64

open Binary64

/-- A finite number is written without an exponent if it is zero, or from one millionth on and below
    `10^21` in absolute value; both limits are numbers here, not rationals. -/
theorem isPositional_iff {x : Float} (h : x.isFinite = true) :
    NumberText.isPositional (unsignedPattern x) = true ↔
      (x == 0) = true ∨ 1e-6 ≤ x.abs ∧ x.abs < 1e21 := by
  have hfinite := isFinite_iff.1 h
  have hleast : (1e-6 : Float) = ofPattern false NumberText.leastPositional := rfl
  have hpast : (1e21 : Float) = ofPattern false NumberText.pastPositional := rfl
  rw [hleast, hpast, abs_eq, ofPattern_le_iff (by decide) hfinite,
    ofPattern_lt_iff hfinite (by decide), beq_zero_iff hfinite, NumberText.isPositional,
    Bool.or_eq_true, Bool.and_eq_true, beq_iff_eq, decide_eq_true_iff, decide_eq_true_iff]

end PrefixCalc
