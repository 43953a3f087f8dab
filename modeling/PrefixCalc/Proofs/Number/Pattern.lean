/-
  Numbers and their patterns.

  1. **Packing** — a floating point number is kept as a vector of 64 bits.  Taking the vector apart
     into sign, exponent and fraction and putting it together again gives the same vector, unless it
     stands for no number (`pack_unpack`): then only one of the many vectors is kept.

  2. **Patterns** — so a sign and an unsigned pattern not above infinity's determine a number and
     are determined by it: `unsignedPattern_ofPattern` and `isNegative_ofPattern` in one direction,
     `ofPattern_unsignedPattern` in the other.
-/
import Mathlib
import PrefixCalc.Number.Binary64

namespace PrefixCalc.Binary64

open Float.Model (Format)
open Float.Model.UnpackedFloat

/-! ## Taking a vector apart and packing it again -/

theorem toBitVec_ofBitVec (b : BitVec 1) : (Sign.ofBitVec b).toBitVec = b := by
  revert b
  decide

theorem toNat_append {m n : Nat} (x : BitVec m) (y : BitVec n) :
    (x ++ y).toNat = x.toNat * 2 ^ n + y.toNat := by
  rw [BitVec.toNat_append, ← Nat.shiftLeft_add_eq_or_of_lt y.isLt, Nat.shiftLeft_eq]

theorem toNat_packComponents (s : Sign) (e : BitVec 11) (m : BitVec 52) :
    (packComponents Format.binary64 s e m).toNat =
      s.toBitVec.toNat * 2 ^ 63 + e.toNat * 2 ^ 52 + m.toNat := by
  rw [packComponents, toNat_append, toNat_append]
  omega

theorem toNat_unpackMantissa (v : BitVec 64) :
    (@unpackMantissa Format.binary64 v).toNat = v.toNat % 2 ^ 52 := by
  simp [unpackMantissa]

theorem toNat_unpackExponent (v : BitVec 64) :
    (@unpackExponent Format.binary64 v).toNat = v.toNat / 2 ^ 52 % 2 ^ 11 := by
  simp [unpackExponent, Nat.shiftRight_eq_div_pow]

theorem toNat_unpackSign (v : BitVec 64) :
    (@unpackSign Format.binary64 v).toNat = v.toNat / 2 ^ 63 := by
  have hlt : v.toNat < 2 ^ 64 := v.isLt
  have hmod : (@unpackSign Format.binary64 v).toNat = v.toNat / 2 ^ 63 % 2 := by
    simp [unpackSign, Nat.shiftRight_eq_div_pow]
  omega

/-- The three parts of a vector make up the vector. -/
theorem packComponents_unpack (v : BitVec 64) :
    packComponents Format.binary64 (Sign.ofBitVec (@unpackSign Format.binary64 v))
      (@unpackExponent Format.binary64 v) (@unpackMantissa Format.binary64 v) = v := by
  apply BitVec.eq_of_toNat_eq
  rw [toNat_packComponents, toBitVec_ofBitVec, toNat_unpackMantissa, toNat_unpackExponent,
    toNat_unpackSign]
  have hlt : v.toNat < 2 ^ 64 := v.isLt
  omega

/-- A small number, one without a leading one in front of its fraction, has exponent zero. -/
theorem pack_small (s : Sign) (m : BitVec 52) (hpos : 0 < m.toNat) :
    pack Format.binary64 (.finite s m.toNat leastExponent hpos) =
      packComponents Format.binary64 s 0 m := by
  have hlog : m.toNat.log2 < 52 := (Nat.log2_lt (by omega)).2 m.isLt
  simp only [pack]
  rw [if_neg (by decide), if_neg (by simp only [Format.mantissaBits]; omega),
    BitVec.ofNat_toNat, BitVec.setWidth_eq]
  rfl

/-- A normal number loses the leading one. -/
theorem pack_normal (s : Sign) (e : BitVec 11) (m : BitVec 52) (hpos : 0 < (1#1 ++ m).toNat)
    (hmost : e.toNat < 2047) :
    pack Format.binary64 (.finite s (1#1 ++ m).toNat (e.toNat - 1075) hpos) =
      packComponents Format.binary64 s e m := by
  have hm : m.toNat < 2 ^ 52 := m.isLt
  have hone : (1#1 ++ m).toNat = 2 ^ 52 + m.toNat := by
    rw [toNat_append]
    rfl
  have hlog : (2 ^ 52 + m.toNat).log2 = 52 := by
    rw [Nat.log2_eq_iff (by omega)]
    omega
  have hbiased :
      ((e.toNat : Int) - 1075 + Format.binary64.exponentBias + (52 : Nat)).toNat = e.toNat := by
    have hbias : Format.binary64.exponentBias = 1023 := rfl
    omega
  have hfraction : BitVec.ofNat 52 (2 ^ 52 + m.toNat) = m := by
    apply BitVec.eq_of_toNat_eq
    rw [BitVec.toNat_ofNat]
    omega
  simp only [pack]
  rw [hbiased, hone, hfraction, if_neg (by show ¬ 2 ^ 11 ≤ e.toNat + 1; omega),
    if_pos (by rw [hlog]; rfl), BitVec.ofNat_toNat, BitVec.setWidth_eq]

/-- Only what is no number changes by unpacking and packing. -/
theorem pack_unpack (v : BitVec 64) (h : v.toNat % signPattern ≤ infinityPattern) :
    pack Format.binary64 (unpack Format.binary64 v) = v := by
  have hparts := packComponents_unpack v
  have he := toNat_unpackExponent v
  simp only [unpack]
  split
  · next hones =>
    split
    · next hzero =>
      rw [hones, hzero] at hparts
      exact hparts
    · next hzero =>
      -- the pattern of infinity ends in zeros, and the ones above it are excluded
      have hm := toNat_unpackMantissa v
      have hmost : (-1#11 : BitVec 11).toNat = 2047 := rfl
      simp only [signPattern, infinityPattern] at h
      rw [hones, hmost] at he
      refine absurd (BitVec.eq_of_toNat_eq ?_) hzero
      show (@unpackMantissa Format.binary64 v).toNat = 0
      omega
  · next hones =>
    split
    · next hexp =>
      rw [hexp] at hparts
      split
      · next hzero =>
        rw [hzero] at hparts
        exact hparts
      · next hzero =>
        rw [hexp]
        exact (pack_small _ _ _).trans hparts
    · next hexp =>
      have hmost : (@unpackExponent Format.binary64 v).toNat < 2047 := by
        have hne : (@unpackExponent Format.binary64 v).toNat ≠ 2047 := fun hall =>
          hones (BitVec.eq_of_toNat_eq hall)
        omega
      exact (pack_normal _ _ _ _ hmost).trans hparts

/-! ## The pattern of a number -/

theorem ext_toBits {x y : Float} (h : x.toBits = y.toBits) : x = y := by
  rcases x with ⟨⟨b, hb⟩⟩
  rcases y with ⟨⟨c, hc⟩⟩
  have hbc : b = c := h
  subst hbc
  rfl

theorem toBits_ofBits {b : UInt64} (h : b.toNat % signPattern ≤ infinityPattern) :
    (Float.ofBits b).toBits = b := by
  show UInt64.ofBitVec (pack Format.binary64 (unpack Format.binary64 b.toBitVec)) = b
  rw [pack_unpack b.toBitVec h]

/-- A sign and a pattern not above infinity's are found in the number that they make. -/
theorem toNat_toBits_ofPattern {pattern : Nat} (negative : Bool)
    (h : pattern ≤ infinityPattern) :
    (ofPattern negative pattern).toBits.toNat =
      if negative then signPattern + pattern else pattern := by
  simp only [infinityPattern] at h
  have hlt : (if negative then signPattern + pattern else pattern) < 2 ^ 64 := by
    simp only [signPattern]
    split <;> omega
  have hnat : (UInt64.ofNat (if negative then signPattern + pattern else pattern)).toNat =
      if negative then signPattern + pattern else pattern := by
    rw [UInt64.toNat_ofNat', Nat.mod_eq_of_lt hlt]
  rw [ofPattern, toBits_ofBits, hnat]
  rw [hnat]
  simp only [signPattern, infinityPattern]
  split <;> omega

theorem unsignedPattern_ofPattern {pattern : Nat} (negative : Bool)
    (h : pattern ≤ infinityPattern) : unsignedPattern (ofPattern negative pattern) = pattern := by
  rw [unsignedPattern, toNat_toBits_ofPattern negative h]
  simp only [infinityPattern] at h
  simp only [signPattern]
  split <;> omega

theorem isNegative_ofPattern {pattern : Nat} (negative : Bool)
    (h : pattern ≤ infinityPattern) : isNegative (ofPattern negative pattern) = negative := by
  rw [isNegative, toNat_toBits_ofPattern negative h]
  simp only [infinityPattern] at h
  simp only [signPattern]
  cases negative
  · exact decide_eq_false (by simp; omega)
  · exact decide_eq_true (by simp)

/-- A number, unless it is none, is determined by its sign and its unsigned pattern. -/
theorem ofPattern_unsignedPattern {x : Float} (h : unsignedPattern x ≤ infinityPattern) :
    ofPattern (isNegative x) (unsignedPattern x) = x := by
  apply ext_toBits
  apply UInt64.toNat_inj.1
  rw [toNat_toBits_ofPattern (isNegative x) h]
  have hlt : x.toBits.toNat < 2 ^ 64 := x.toBits.toNat_lt
  by_cases hsign : signPattern ≤ x.toBits.toNat
  · have hneg : isNegative x = true := decide_eq_true hsign
    rw [if_pos hneg, unsignedPattern]
    simp only [signPattern] at hsign ⊢
    omega
  · have hneg : isNegative x = false := decide_eq_false hsign
    rw [hneg, if_neg Bool.false_ne_true, unsignedPattern]
    simp only [signPattern] at hsign ⊢
    omega

end PrefixCalc.Binary64
