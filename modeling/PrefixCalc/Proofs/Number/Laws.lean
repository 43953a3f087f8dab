/-
  Which laws of numbers hold with rounding, two zeros, infinities and what is no number.

  1. **Equality** (`beq_iff`) — two zeros of any signs are equal, and otherwise a number is equal to
     itself only, unless it is none.  So equality is symmetric and transitive, but not reflexive.

  2. **Sums** — zero in front of a sum changes nothing but a negative zero (`zero_add_eq`), and a sum
     is a negative zero only if both summands are (`add_eq_neg_zero`): an exact sum of zero is a
     positive zero, and every other sum is at least as large as the least number, so that rounding
     does not make a zero of it (`ordinary_normalize`).

  3. **Products** (`one_mul_eq`) — one times a number has the digits of the number, followed by zeros
     that rounding drops.
-/
import PrefixCalc.Proofs.Number.Order

namespace PrefixCalc.Binary64

open Float.Model (Format UnpackedFloat totalExponent)
open Float.Model.UnpackedFloat

/-! ## Equality -/

/-- What is equal: two zeros of any signs, or one and the same number. -/
inductive Same : UnpackedFloat → UnpackedFloat → Prop
  | zeros (s t : Sign) : Same (.zero s) (.zero t)
  | refl {a : UnpackedFloat} : a ≠ .notANumber → Same a a

theorem Same.symm {a b : UnpackedFloat} (h : Same a b) : Same b a := by
  cases h with
  | zeros s t => exact .zeros t s
  | refl hne => exact .refl hne

theorem Same.trans {a b c : UnpackedFloat} (hab : Same a b) (hbc : Same b c) : Same a c := by
  cases hab with
  | refl _ => exact hbc
  | zeros s t =>
    cases hbc with
    | zeros _ u => exact .zeros s u
    | refl _ => exact .zeros s t

/-- Significand and exponent are compared one after the other, so both are the same. -/
theorem then_compare_eq_eq_iff {e e' : Int} {m m' : Nat} :
    (compare e e').then (compare m m') = .eq ↔ e = e' ∧ m = m' := by
  rw [Ordering.then_eq_eq, Std.compare_eq_iff_eq, Std.compare_eq_iff_eq]

theorem same_finite {s t : Sign} {m m' : Nat} {e e' : Int} {hm : 0 < m} {hm' : 0 < m'}
    (hs : s = t) (h : (compare e e').then (compare m m') = .eq) :
    Same (.finite s m e hm) (.finite t m' e' hm') := by
  obtain ⟨rfl, rfl⟩ := then_compare_eq_eq_iff.mp h
  subst hs
  exact .refl (by simp)

theorem same_of_compare {a b : UnpackedFloat} (h : a.compare b = some .eq) : Same a b := by
  cases a with
  | notANumber => cases h
  | infinity s =>
    cases b with
    | infinity t =>
      cases s with
      | negative =>
        cases t with
        | negative => exact .refl (by simp)
        | positive => cases h
      | positive =>
        cases t with
        | negative => cases h
        | positive => exact .refl (by simp)
    | _ => cases s <;> cases h
  | zero s =>
    cases b with
    | zero t => exact .zeros s t
    | notANumber => cases h
    | infinity t => cases t <;> cases h
    | finite t m' e' hm' => cases t <;> cases h
  | finite s m e hm =>
    cases b with
    | notANumber => cases s <;> cases h
    | infinity t => cases s <;> cases t <;> cases h
    | zero t => cases s <;> cases h
    | finite t m' e' hm' =>
      cases s with
      | negative =>
        cases t with
        | negative => exact same_finite rfl (Ordering.swap_eq_eq.mp (Option.some.inj h))
        | positive => cases h
      | positive =>
        cases t with
        | negative => cases h
        | positive => exact same_finite rfl (Option.some.inj h)

theorem Same.compare_eq {a b : UnpackedFloat} (h : Same a b) : a.compare b = some .eq := by
  cases h with
  | zeros s t => rfl
  | refl hne =>
    cases a with
    | notANumber => exact absurd rfl hne
    | infinity s => cases s <;> rfl
    | zero s => rfl
    | finite s m e hm =>
      have hself : (compare e e).then (compare m m) = .eq := then_compare_eq_eq_iff.mpr ⟨rfl, rfl⟩
      cases s with
      | negative => exact congrArg some (Ordering.swap_eq_eq.mpr hself)
      | positive => exact congrArg some hself

/-- Numbers are equal if they are taken apart into the same, or into two zeros. -/
theorem beq_iff {x y : Float} : (x == y) = true ↔ Same x.toModel.unpack y.toModel.unpack := by
  show (x.toModel.unpack.compare y.toModel.unpack == some .eq) = true ↔ _
  rw [beq_iff_eq]
  exact ⟨same_of_compare, Same.compare_eq⟩

theorem beq_symm {x y : Float} (h : (x == y) = true) : (y == x) = true :=
  beq_iff.mpr (beq_iff.mp h).symm

theorem beq_trans {x y z : Float} (hxy : (x == y) = true) (hyz : (y == z) = true) :
    (x == z) = true :=
  beq_iff.mpr ((beq_iff.mp hxy).trans (beq_iff.mp hyz))

/-- What is not a number is equal to nothing. -/
theorem beq_eq_false_of_isNaN {x : Float} (h : x.isNaN = true) (y : Float) : (x == y) = false := by
  have hnan : x.toModel.unpack.isNaN = true := h
  rw [← Bool.not_eq_true, beq_iff]
  intro hsame
  generalize x.toModel.unpack = a at hnan hsame
  generalize y.toModel.unpack = b at hsame
  cases hsame with
  | zeros s t => cases hnan
  | refl hne =>
    cases a with
    | notANumber => exact hne rfl
    | _ => cases hnan

/-! ## Packing -/

/-- Every number is packed again as it was. -/
theorem pack_unpack_toModel (x : Float) : Float.ofModel (.pack x.toModel.unpack) = x := by
  apply ext_toBits
  show UInt64.ofBitVec (pack Format.binary64 (unpack Format.binary64 x.toBits.toBitVec)) = x.toBits
  by_cases h : x.toBits.toBitVec.toNat % signPattern ≤ infinityPattern
  · rw [pack_unpack _ h]
  · -- there is only one vector that stands for no number
    have hm := toNat_unpackMantissa x.toBits.toBitVec
    have he := toNat_unpackExponent x.toBits.toBitVec
    have hlt : x.toBits.toBitVec.toNat < 2 ^ 64 := x.toBits.toBitVec.isLt
    simp only [signPattern, infinityPattern] at h
    have hones : @unpackExponent Format.binary64 x.toBits.toBitVec = -1#11 := by
      apply BitVec.eq_of_toNat_eq
      rw [he]
      show _ = 2047
      omega
    have hfraction : @unpackMantissa Format.binary64 x.toBits.toBitVec ≠ 0#52 := by
      intro hzero
      rw [hzero] at hm
      have hm : 0 = x.toBits.toBitVec.toNat % 2 ^ 52 := hm
      omega
    have hnan : unpack Format.binary64 x.toBits.toBitVec = .notANumber := by
      simp only [unpack]
      rw [if_pos hones, if_neg hfraction]
    have hvalid : x.toBits.toBitVec = packedNaN Format.binary64 :=
      x.toModel.valid.eq_packedNaN hones hfraction
    rw [hnan]
    show UInt64.ofBitVec (packedNaN Format.binary64) = x.toBits
    rw [← hvalid]

theorem unpack_eq_neg_zero_iff {x : Float} : x.toModel.unpack = .zero .negative ↔ x = -0 := by
  constructor
  · intro h
    rw [← pack_unpack_toModel x, h]
    rfl
  · rintro rfl
    rfl

/-- The parts of a finite number, whatever its pattern is. -/
theorem exists_unpacks {x : Float} {s : Sign} {n : Nat} {e : Int} {hn : 0 < n}
    (h : x.toModel.unpack = .finite s n e hn) : ∃ p, Unpacks s p (.finite s n e hn) := by
  have hfinite : x.isFinite = true := by
    show x.toModel.unpack.isFinite = true
    rw [h]
    rfl
  have hunpacks := unpacks_toModel (isFinite_iff.mp hfinite)
  rw [h] at hunpacks
  cases hunpacks with
  | finite hexp hpattern hlt hleast => exact ⟨_, .finite hexp hpattern hlt hleast⟩

/-! ## Rounding -/

theorem mantissa_shiftRight (em : ExtendedMantissa) (k : Nat) :
    (em >>> k).mantissa = em.mantissa / 2 ^ k := by
  induction k with
  | zero => exact (Nat.div_one _).symm
  | succ k ih =>
    show (em >>> k).mantissa / 2 = _
    rw [ih, Nat.div_div_eq_div_mul, Nat.pow_succ]

/-- A number has as many digits as fit, and fewer only at the least exponent. -/
theorem targetExponent_eq (m : Nat) (e : Int) :
    Format.binary64.targetExponent (totalExponent m e) =
      max ((m.log2 : Int) + 1 + e - 53) leastExponent := rfl

/-- A significand that is moved to its target exponent is not lost, and fits. -/
theorem shiftToTargetExponent_bounds {m : Nat} (hm : 0 < m) {e : Int} (he : leastExponent ≤ e) :
    0 < (shiftToTargetExponent Format.binary64 m e .exact).1.mantissa ∧
      (shiftToTargetExponent Format.binary64 m e .exact).1.mantissa < 2 ^ 53 ∧
      leastExponent ≤ (shiftToTargetExponent Format.binary64 m e .exact).2 := by
  have hlow : 2 ^ m.log2 ≤ m := Nat.log2_self_le (by omega)
  have hhigh : m < 2 ^ (m.log2 + 1) := Nat.lt_log2_self
  have hshift : (Format.binary64.targetExponent (totalExponent m e) - e).toNat = m.log2 - 52 := by
    rw [targetExponent_eq]
    omega
  have hmantissa : (shiftToTargetExponent Format.binary64 m e .exact).1.mantissa =
      m / 2 ^ (m.log2 - 52) := by
    rw [← hshift]
    exact mantissa_shiftRight _ _
  have hle : 2 ^ (m.log2 - 52) ≤ 2 ^ m.log2 := Nat.pow_le_pow_right (by omega) (by omega)
  have hfits : 2 ^ (m.log2 + 1) ≤ 2 ^ 53 * 2 ^ (m.log2 - 52) := by
    rw [← Nat.pow_add]
    exact Nat.pow_le_pow_right (by omega) (by omega)
  rw [hmantissa]
  refine ⟨Nat.div_pos (by omega) (Nat.two_pow_pos _), ?_, ?_⟩
  · exact (Nat.div_lt_iff_lt_mul (Nat.two_pow_pos _)).mpr (by omega)
  · show leastExponent ≤ e + _
    omega

theorem le_roundedMantissa (em : ExtendedMantissa) : em.mantissa ≤ em.roundedMantissa := by
  rcases em with ⟨m, _ | _, _ | _⟩
  · exact Nat.le_refl m
  · exact Nat.le_refl m
  · exact Nat.le_add_right m _
  · exact Nat.le_succ m

/-- All that is not a negative zero, a finite number with its parts as packing expects them. -/
inductive Ordinary : UnpackedFloat → Prop
  | notANumber : Ordinary .notANumber
  | infinity (s : Sign) : Ordinary (.infinity s)
  | zero : Ordinary (.zero .positive)
  | finite {s : Sign} {n : Nat} {e : Int} {hn : 0 < n} :
      n < 2 ^ (fractionBits + 1) → leastExponent ≤ e → Ordinary (.finite s n e hn)

theorem ordinary_roundWithAccuracy (s : Sign) {m : Nat} (hm : 0 < m) {e : Int}
    (he : leastExponent ≤ e) : Ordinary (roundWithAccuracy Format.binary64 s m e .exact) := by
  obtain ⟨hpos, -, hexp⟩ := shiftToTargetExponent_bounds hm he
  have hrounded := Nat.lt_of_lt_of_le hpos (le_roundedMantissa _)
  -- rounding may carry, and so the significand is moved once more
  obtain ⟨hpos', hlt', hexp'⟩ := shiftToTargetExponent_bounds hrounded hexp
  simp only [roundWithAccuracy]
  rw [dif_neg (Nat.ne_of_gt hpos')]
  exact .finite hlt' hexp'

theorem ordinary_round (s : Sign) {m : Nat} (hm : 0 < m) {e : Int} (he : leastExponent ≤ e) :
    Ordinary (round Format.binary64 s m e) := by
  refine ordinary_roundWithAccuracy s ?_ ?_
  · rw [Nat.shiftLeft_eq]
    exact Nat.mul_pos hm (Nat.two_pow_pos _)
  · rw [targetExponent_eq]
    omega

/-- An exact sum of zero is a positive zero, and no other sum is rounded to a zero. -/
theorem ordinary_normalize (m : Int) {e : Int} (he : leastExponent ≤ e) :
    Ordinary (UnpackedFloat.normalize Format.binary64 m e .positive) := by
  unfold UnpackedFloat.normalize
  split
  · next hlt =>
    have hneg : m < 0 := Std.compare_eq_lt.mp hlt
    exact ordinary_round .negative (by omega) he
  · exact .zero
  · next hgt =>
    have hpos : 0 < m := Std.compare_eq_gt.mp hgt
    exact ordinary_round .positive (by omega) he

/-! ## Sums -/

/-- Zero in front of a sum changes nothing but a negative zero. -/
theorem zero_add_eq {x : Float} (h : x ≠ -0) : 0 + x = x := by
  have hne : x.toModel.unpack ≠ .zero .negative := fun hzero => h (unpack_eq_neg_zero_iff.mp hzero)
  have hadd : add Format.binary64 (.zero .positive) x.toModel.unpack = x.toModel.unpack := by
    generalize x.toModel.unpack = a at hne
    cases a with
    | zero s =>
      cases s with
      | negative => exact absurd rfl hne
      | positive => rfl
    | _ => rfl
  calc 0 + x = Float.ofModel (.pack (add Format.binary64 (.zero .positive) x.toModel.unpack)) := rfl
    _ = Float.ofModel (.pack x.toModel.unpack) := by rw [hadd]
    _ = x := pack_unpack_toModel x

/-- Only two negative zeros have a negative zero for their sum. -/
theorem ordinary_add {a b : UnpackedFloat} (ha : a = .zero .negative ∨ Ordinary a)
    (hb : b = .zero .negative ∨ Ordinary b) :
    a = .zero .negative ∧ b = .zero .negative ∨ Ordinary (add Format.binary64 a b) := by
  rcases ha with rfl | ha
  · rcases hb with rfl | hb
    · exact Or.inl ⟨rfl, rfl⟩
    · right
      cases hb with
      | notANumber => exact .notANumber
      | infinity s => exact .infinity s
      | zero => exact .zero
      | finite hlt he => exact .finite hlt he
  · right
    cases ha with
    | notANumber => exact .notANumber
    | infinity s =>
      rcases hb with rfl | hb
      · exact .infinity s
      · cases hb with
        | notANumber => exact .notANumber
        | infinity t =>
          show Ordinary (if s == t then .infinity s else .notANumber)
          split
          · exact .infinity s
          · exact .notANumber
        | zero => exact .infinity s
        | finite _ _ => exact .infinity s
    | zero =>
      rcases hb with rfl | hb
      · exact .zero
      · cases hb with
        | notANumber => exact .notANumber
        | infinity t => exact .infinity t
        | zero => exact .zero
        | finite hlt he => exact .finite hlt he
    | finite hlt he =>
      rcases hb with rfl | hb
      · exact .finite hlt he
      · cases hb with
        | notANumber => exact .notANumber
        | infinity t => exact .infinity t
        | zero => exact .finite hlt he
        | finite hlt' he' => exact ordinary_normalize _ (by omega)

/-- What is ordinary is not packed as a negative zero. -/
theorem Ordinary.pack_ne {a : UnpackedFloat} (h : Ordinary a) :
    pack Format.binary64 a ≠ packedZero Format.binary64 .negative := by
  cases h with
  | notANumber => decide
  | infinity s => cases s <;> decide
  | zero => decide
  | @finite s n e hn hlt he =>
    intro hzero
    have hnat := congrArg BitVec.toNat hzero
    have hsign : (packedZero Format.binary64 .negative).toNat = 2 ^ 63 := rfl
    have hones : (-1#11 : BitVec 11).toNat = 2047 := rfl
    have hbias : Format.binary64.exponentBias = 1023 := rfl
    have hs : s.toBitVec.toNat < 2 := s.toBitVec.isLt
    rw [hsign] at hnat
    simp only [pack] at hnat
    split at hnat
    · rw [packedInfinity, toNat_packComponents, hones] at hnat
      have hnat : _ + 0 = _ := hnat
      omega
    · next hfinite =>
      simp only [hbias, leastExponent] at hfinite hnat he
      split at hnat
      · -- a normal number has an exponent
        rw [toNat_packComponents, BitVec.toNat_ofNat, BitVec.toNat_ofNat] at hnat
        omega
      · next hsmall =>
        -- a small one has a significand
        have hlog : n.log2 < 53 := (Nat.log2_lt (by omega)).mpr hlt
        have hlog' : n.log2 + 1 ≠ 53 := hsmall
        have hlt' : n < 2 ^ 52 := (Nat.log2_lt (by omega)).mp (by omega)
        rw [toNat_packComponents, BitVec.toNat_ofNat] at hnat
        have hnat : s.toBitVec.toNat * 2 ^ 63 + 0 * 2 ^ 52 + n % 2 ^ 52 = 2 ^ 63 := hnat
        omega

/-- Every number is a negative zero or ordinary. -/
theorem ordinary_unpack (x : Float) :
    x.toModel.unpack = .zero .negative ∨ Ordinary x.toModel.unpack := by
  cases hx : x.toModel.unpack with
  | notANumber => exact Or.inr .notANumber
  | infinity s => exact Or.inr (.infinity s)
  | zero s =>
    cases s with
    | negative => exact Or.inl rfl
    | positive => exact Or.inr .zero
  | finite s n e hn =>
    obtain ⟨p, hunpacks⟩ := exists_unpacks hx
    cases hunpacks with
    | finite hexp _ hlt _ => exact Or.inr (.finite hlt (by omega))

/-- A sum is a negative zero only if both summands are. -/
theorem add_eq_neg_zero {x y : Float} (h : x + y = -0) : x = -0 ∧ y = -0 := by
  have hpack : pack Format.binary64 (add Format.binary64 x.toModel.unpack y.toModel.unpack) =
      packedZero Format.binary64 .negative := congrArg (fun z : Float => z.toBits.toBitVec) h
  rcases ordinary_add (ordinary_unpack x) (ordinary_unpack y) with ⟨hx, hy⟩ | hsum
  · exact ⟨unpack_eq_neg_zero_iff.mp hx, unpack_eq_neg_zero_iff.mp hy⟩
  · exact absurd hpack hsum.pack_ne

/-! ## Products -/

theorem exact_shiftRight (n k : Nat) :
    ExtendedMantissa.mk (n * 2 ^ k) false false >>> k = .mk n false false := by
  induction k generalizing n with
  | zero =>
    show ExtendedMantissa.mk (n * 2 ^ 0) false false = _
    rw [Nat.pow_zero, Nat.mul_one]
  | succ k ih =>
    have hhalf : n * 2 ^ (k + 1) = (n * 2) * 2 ^ k := by rw [Nat.pow_succ]; ring
    show (ExtendedMantissa.mk (n * 2 ^ (k + 1)) false false >>> k).shiftRightOne = _
    rw [hhalf, ih]
    simp [ExtendedMantissa.shiftRightOne]

/-- A significand that ends in zeros is moved without loss. -/
theorem shiftToTargetExponent_eq {m n k : Nat} {e e' : Int} (hm : m = n * 2 ^ k) (he : e = e' - k)
    (htarget : Format.binary64.targetExponent (totalExponent m e) = e') :
    shiftToTargetExponent Format.binary64 m e .exact = (.mk n false false, e') := by
  have hshift : (e' - e).toNat = k := by omega
  rw [shiftToTargetExponent, htarget, shiftToExponent, hshift, hm]
  exact Prod.ext (exact_shiftRight n k) (by show e + (k : Int) = e'; omega)

/-- The significand of a number stands at its target exponent. -/
theorem Unpacks.targetExponent_eq {s : Sign} {p n : Nat} {e : Int} {hn : 0 < n}
    (h : Unpacks s p (.finite s n e hn)) :
    Format.binary64.targetExponent (totalExponent n e) = e := by
  cases h with
  | finite hexp _ hlt hleast =>
    rw [Binary64.targetExponent_eq]
    simp only [fractionBits] at hlt hleast
    have hlog : n.log2 < 53 := (Nat.log2_lt (by omega)).mpr hlt
    rcases hleast with hk | hk
    · omega
    · have hlog' : 52 ≤ n.log2 := (Nat.le_log2 (by omega)).mpr hk
      omega

theorem log2_mul_two_pow {n : Nat} (hn : 0 < n) (k : Nat) : (n * 2 ^ k).log2 = n.log2 + k := by
  have hlow : 2 ^ n.log2 ≤ n := Nat.log2_self_le (by omega)
  have hhigh : n < 2 ^ (n.log2 + 1) := Nat.lt_log2_self
  have hpos : 0 < 2 ^ k := Nat.two_pow_pos k
  rw [Nat.log2_eq_iff (Nat.mul_pos hn hpos).ne']
  constructor
  · rw [Nat.pow_add]
    exact Nat.mul_le_mul_right _ hlow
  · rw [Nat.add_right_comm, Nat.pow_add]
    exact Nat.mul_lt_mul_of_pos_right hhigh hpos

/-- A number times a power of two, with the exponent lowered by as much, is rounded to itself. -/
theorem roundWithAccuracy_scaled {s : Sign} {p n : Nat} {e : Int} {hn : 0 < n}
    (h : Unpacks s p (.finite s n e hn)) (k : Nat) :
    roundWithAccuracy Format.binary64 s (n * 2 ^ k) (e - k) .exact = .finite s n e hn := by
  have htarget := h.targetExponent_eq
  have hscaled : Format.binary64.targetExponent (totalExponent (n * 2 ^ k) (e - k)) = e := by
    rw [Binary64.targetExponent_eq] at htarget ⊢
    rw [log2_mul_two_pow hn]
    omega
  have hfirst := shiftToTargetExponent_eq rfl rfl hscaled
  have hrounded : (ExtendedMantissa.mk n false false).roundedMantissa = n := rfl
  have hsecond := shiftToTargetExponent_eq (k := 0) (Nat.mul_one n).symm (Int.sub_zero e).symm htarget
  simp only [roundWithAccuracy]
  rw [hfirst, hrounded, hsecond, dif_neg (Nat.ne_of_gt hn)]

/-- One in front of a product changes nothing. -/
theorem one_mul_eq (x : Float) : 1 * x = x := by
  have hone : (1 : Float).toModel.unpack = .finite .positive (2 ^ 52) (-52) (by decide) := rfl
  have hmul : mul Format.binary64 (1 : Float).toModel.unpack x.toModel.unpack =
      x.toModel.unpack := by
    rw [hone]
    cases hx : x.toModel.unpack with
    | notANumber => rfl
    | infinity s => cases s <;> rfl
    | zero s => cases s <;> rfl
    | finite s n e hn =>
      obtain ⟨p, hunpacks⟩ := exists_unpacks hx
      have hsign : Sign.positive * s = s := by cases s <;> rfl
      have hexp : (-52 : Int) + e = e - (52 : Nat) := by omega
      show roundWithAccuracy Format.binary64 (.positive * s) (2 ^ 52 * n) (-52 + e) .exact = _
      rw [hsign, Nat.mul_comm, hexp, roundWithAccuracy_scaled hunpacks 52]
  calc 1 * x = Float.ofModel (.pack (mul Format.binary64 (1 : Float).toModel.unpack
        x.toModel.unpack)) := rfl
    _ = Float.ofModel (.pack x.toModel.unpack) := by rw [hmul]
    _ = x := pack_unpack_toModel x

end PrefixCalc.Binary64
