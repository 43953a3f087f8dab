/-
  Rounding, said of rationals.

  1. **Program** — `Binary64.nearestPattern` takes a ratio as two naturals, finds the power of two
     at or below it, and divides with rounding.  It never forms the ratio.

  2. **Specification** — `IsPattern r pattern` says of the rational `r` itself which pattern it has:
     near `r` the numbers are the multiples of `2^gridExponent r`, the one nearest to `r` is taken,
     and its pattern counts the numbers below it.

  3. **The crux** (`nearestPattern_eq_iff`) — the program gives the one pattern that the
     specification allows.  So the two naturals matter only through their ratio, and a number that
     is a ratio exactly is the one that the ratio rounds to (`isPattern_value`).
-/
import Mathlib.Algebra.Order.Field.Power
import Mathlib.Data.Int.Log
import Mathlib.Data.Rat.Cast.Order
import Mathlib.Data.Rat.Floor
import Mathlib.Tactic.FieldSimp
import Mathlib.Tactic.Linarith
import Mathlib.Tactic.Positivity
import Mathlib.Tactic.Ring
import PrefixCalc.Proofs.Number.Pattern

namespace PrefixCalc.Binary64

/-! ## The nearest natural -/

/-- `n` is nearest to `r`; of two that are equally near it is the even one. -/
def IsNearest (r : ℚ) (n : ℕ) : Prop := |r - n| ≤ 1 / 2 ∧ (|r - n| = 1 / 2 → Even n)

theorem isNearest_self (n : ℕ) : IsNearest n n := by
  refine ⟨?_, ?_⟩
  · rw [sub_self, abs_zero]
    norm_num
  · intro h
    rw [sub_self, abs_zero] at h
    norm_num at h

theorem IsNearest.not_lt {r : ℚ} {m n : ℕ} (hm : IsNearest r m) (hn : IsNearest r n) :
    ¬ m < n := by
  intro hlt
  have hm' := abs_le.1 hm.1
  have hn' := abs_le.1 hn.1
  have hle : (m : ℚ) + 1 ≤ n := by exact_mod_cast hlt
  have hsucc : n = m + 1 := by
    have hge : (n : ℚ) ≤ m + 1 := by linarith
    have hge' : n ≤ m + 1 := by exact_mod_cast hge
    omega
  -- two neighbours are equally near only from their middle, and one of them is odd
  have hmid : r - m = 1 / 2 := by linarith
  have hmid' : r - n = -(1 / 2) := by
    rw [hsucc]
    push_cast
    linarith
  have hem : Even m := hm.2 (by rw [hmid, abs_of_pos (by norm_num)])
  have hen : Even n := hn.2 (by rw [hmid', abs_neg, abs_of_pos (by norm_num)])
  rw [hsucc, Nat.even_add_one] at hen
  exact hen hem

theorem IsNearest.unique {r : ℚ} {m n : ℕ} (hm : IsNearest r m) (hn : IsNearest r n) : m = n := by
  have h := hm.not_lt hn
  have h' := hn.not_lt hm
  omega

theorem isNearest_lower {q : ℕ} {f : ℚ} (hf : 0 ≤ f) (h : f < 1 / 2 ∨ f = 1 / 2 ∧ Even q) :
    IsNearest (q + f) q := by
  rw [IsNearest, add_sub_cancel_left, abs_of_nonneg hf]
  rcases h with hlt | ⟨heq, heven⟩
  · exact ⟨hlt.le, fun heq => absurd heq hlt.ne⟩
  · exact ⟨heq.le, fun _ => heven⟩

theorem isNearest_upper {q : ℕ} {f : ℚ} (hf : f ≤ 1)
    (h : 1 / 2 < f ∨ f = 1 / 2 ∧ Even (q + 1)) : IsNearest (q + f) (q + 1 : ℕ) := by
  have hdist : |(q : ℚ) + f - (q + 1 : ℕ)| = 1 - f := by
    rw [abs_sub_comm, abs_of_nonneg]
    · push_cast
      ring
    · push_cast
      linarith
  rw [IsNearest, hdist]
  rcases h with hlt | ⟨heq, heven⟩
  · exact ⟨by linarith, fun heq => by linarith⟩
  · exact ⟨by linarith, fun _ => heven⟩

theorem isNearest_roundDiv (num : ℕ) {den : ℕ} (hden : 0 < den) :
    IsNearest (num / den) (roundDiv num den) := by
  have hden' : (0 : ℚ) < den := by exact_mod_cast hden
  -- the ratio is the quotient and a fraction, and the fraction is compared with a half
  have hratio : (num : ℚ) / den = (num / den : ℕ) + (num % den : ℕ) / den := by
    have hsum : ((den * (num / den) + num % den : ℕ) : ℚ) = num := by rw [Nat.div_add_mod]
    push_cast at hsum
    field_simp
    linarith
  have hnonneg : (0 : ℚ) ≤ (num % den : ℕ) / den := by positivity
  have hone : ((num % den : ℕ) : ℚ) / den ≤ 1 := by
    rw [div_le_iff₀ hden', one_mul]
    exact_mod_cast (Nat.mod_lt num hden).le
  have hbelow : ((num % den : ℕ) : ℚ) / den < 1 / 2 ↔ 2 * (num % den) < den := by
    rw [div_lt_div_iff₀ hden' two_pos, one_mul, mul_comm]
    exact_mod_cast Iff.rfl
  have habove : 1 / 2 < ((num % den : ℕ) : ℚ) / den ↔ den < 2 * (num % den) := by
    rw [div_lt_div_iff₀ two_pos hden', one_mul, mul_comm ((num % den : ℕ) : ℚ)]
    exact_mod_cast Iff.rfl
  simp only [roundDiv]
  rw [hratio]
  split
  · next hlow => exact isNearest_lower hnonneg (Or.inl (hbelow.2 hlow))
  · next hlow =>
    split
    · next hhigh => exact isNearest_upper hone (Or.inl (habove.2 hhigh))
    · next hhigh =>
      have hhalf : ((num % den : ℕ) : ℚ) / den = 1 / 2 :=
        le_antisymm (not_lt.1 (mt habove.1 hhigh)) (not_lt.1 (mt hbelow.1 hlow))
      split
      · next heven => exact isNearest_lower hnonneg (Or.inr ⟨hhalf, Nat.even_iff.2 heven⟩)
      · next hodd => exact isNearest_upper hone (Or.inr ⟨hhalf, Nat.even_iff.2 (by omega)⟩)

theorem isNearest_roundScaled (num : ℕ) {den : ℕ} (hden : 0 < den) (q : ℤ) :
    IsNearest (num / den / 2 ^ q) (roundScaled num den q) := by
  cases q with
  | ofNat k =>
    have h := isNearest_roundDiv num (Nat.mul_pos hden (Nat.two_pow_pos k))
    rw [Int.ofNat_eq_natCast, zpow_natCast, div_div]
    push_cast at h
    exact h
  | negSucc k =>
    have h := isNearest_roundDiv (num * Nat.pow 2 (k + 1)) hden
    rw [zpow_negSucc, div_inv_eq_mul, div_mul_eq_mul_div]
    simp only [Nat.pow_eq] at h
    push_cast at h
    exact h

/-! ## The power of two below a ratio -/

theorem isAtLeastPower_iff (num : ℕ) {den : ℕ} (hden : 0 < den) (k : ℤ) :
    isAtLeastPower num den k = true ↔ (2 : ℚ) ^ k ≤ num / den := by
  have hden' : (0 : ℚ) < den := by exact_mod_cast hden
  rw [le_div_iff₀ hden']
  cases k with
  | ofNat k =>
    rw [Int.ofNat_eq_natCast, zpow_natCast, mul_comm]
    simp only [isAtLeastPower, decide_eq_true_eq]
    exact_mod_cast Iff.rfl
  | negSucc k =>
    have hpow : (0 : ℚ) < 2 ^ (k + 1) := by positivity
    rw [zpow_negSucc, inv_mul_le_iff₀ hpow, mul_comm]
    simp only [isAtLeastPower, decide_eq_true_eq]
    exact_mod_cast Iff.rfl

theorem le_log_iff {r : ℚ} (hr : 0 < r) {k : ℤ} : k ≤ Int.log 2 r ↔ 2 ^ k ≤ r := by
  rw [← Int.zpow_le_iff_le_log one_lt_two hr, Nat.cast_ofNat]

theorem log_lt_iff {r : ℚ} (hr : 0 < r) {k : ℤ} : Int.log 2 r < k ↔ r < 2 ^ k := by
  rw [← Int.lt_zpow_iff_log_lt one_lt_two hr, Nat.cast_ofNat]

theorem log_eq_of_bounds {r : ℚ} {k : ℤ} (hlow : 2 ^ k ≤ r) (hhigh : r < 2 ^ (k + 1)) :
    Int.log 2 r = k := by
  have hpos : 0 < r := lt_of_lt_of_le (by positivity) hlow
  have hle := (le_log_iff hpos).2 hlow
  have hlt := (log_lt_iff hpos).2 hhigh
  omega

/-- The program's guess is right or one too high: the ratio of two naturals lies within a factor of
    two of the ratio of the powers of two below them. -/
theorem floorLog_eq {num den : ℕ} (hnum : 0 < num) (hden : 0 < den) :
    floorLog num den = Int.log 2 (num / den : ℚ) := by
  have hden' : (0 : ℚ) < den := by exact_mod_cast hden
  have hnumLow : (2 : ℚ) ^ num.log2 ≤ num := by exact_mod_cast Nat.log2_self_le hnum.ne'
  have hnumHigh : (num : ℚ) < 2 ^ (num.log2 + 1) := by exact_mod_cast Nat.lt_log2_self
  have hdenLow : (2 : ℚ) ^ den.log2 ≤ den := by exact_mod_cast Nat.log2_self_le hden.ne'
  have hdenHigh : (den : ℚ) < 2 ^ (den.log2 + 1) := by exact_mod_cast Nat.lt_log2_self
  have hhigh : (num / den : ℚ) < 2 ^ ((num.log2 : ℤ) - den.log2 + 1) := by
    rw [div_lt_iff₀ hden']
    calc (num : ℚ) < 2 ^ (num.log2 + 1) := hnumHigh
      _ = 2 ^ ((num.log2 : ℤ) - den.log2 + 1) * 2 ^ den.log2 := by
        rw [← zpow_natCast, ← zpow_natCast, ← zpow_add₀ two_ne_zero]
        congr 1
        push_cast
        ring
      _ ≤ 2 ^ ((num.log2 : ℤ) - den.log2 + 1) * den := by gcongr
  have hlow : (2 : ℚ) ^ ((num.log2 : ℤ) - den.log2 - 1) ≤ num / den := by
    rw [le_div_iff₀ hden']
    calc (2 : ℚ) ^ ((num.log2 : ℤ) - den.log2 - 1) * den
        ≤ 2 ^ ((num.log2 : ℤ) - den.log2 - 1) * 2 ^ (den.log2 + 1) := by gcongr
      _ = 2 ^ num.log2 := by
        rw [← zpow_natCast, ← zpow_natCast, ← zpow_add₀ two_ne_zero]
        congr 1
        push_cast
        ring
      _ ≤ num := hnumLow
  simp only [floorLog]
  split
  · next h =>
    exact (log_eq_of_bounds ((isAtLeastPower_iff num hden _).1 h) hhigh).symm
  · next h =>
    have hbelow : (num / den : ℚ) < 2 ^ ((num.log2 : ℤ) - den.log2 - 1 + 1) := by
      rw [sub_add_cancel]
      exact not_le.1 (mt (isAtLeastPower_iff num hden _).2 h)
    exact (log_eq_of_bounds hlow hbelow).symm

/-! ## The pattern of a ratio -/

/-- The numbers near `r` are the multiples of `2` to this exponent. -/
def gridExponent (r : ℚ) : ℤ := max leastExponent (Int.log 2 r - fractionBits)

/-- The pattern is that of the number nearest to `r`. -/
def IsPattern (r : ℚ) (pattern : ℕ) : Prop :=
  (r = 0 ∧ pattern = 0) ∨ (0 < r ∧ ∃ n, IsNearest (r / 2 ^ gridExponent r) n ∧
    pattern = (gridExponent r - leastExponent).toNat * 2 ^ fractionBits + n)

theorem IsPattern.unique {r : ℚ} {p p' : ℕ} (h : IsPattern r p) (h' : IsPattern r p') : p = p' := by
  rcases h with ⟨hr, rfl⟩ | ⟨hr, n, hn, rfl⟩
  · rcases h' with ⟨-, rfl⟩ | ⟨hr', -⟩
    · rfl
    · exact absurd hr hr'.ne'
  · rcases h' with ⟨hr', -⟩ | ⟨-, n', hn', rfl⟩
    · exact absurd hr' hr.ne'
    · rw [hn.unique hn']

theorem isPattern_nearestPattern (num : ℕ) {den : ℕ} (hden : 0 < den) :
    IsPattern (num / den) (nearestPattern num den) := by
  by_cases hnum : num = 0
  · left
    rw [nearestPattern, if_pos hnum, hnum, Nat.cast_zero, zero_div]
    exact ⟨rfl, rfl⟩
  · right
    have hnum' : 0 < num := Nat.pos_of_ne_zero hnum
    have hden' : (0 : ℚ) < den := by exact_mod_cast hden
    refine ⟨by positivity, roundScaled num den (gridExponent (num / den)),
      isNearest_roundScaled num hden _, ?_⟩
    simp only [nearestPattern, if_neg hnum, floorLog_eq hnum' hden, Nat.pow_eq]
    rfl

/-- The program gives the one pattern that the ratio allows. -/
theorem nearestPattern_eq_iff (num : ℕ) {den : ℕ} (hden : 0 < den) {pattern : ℕ} :
    nearestPattern num den = pattern ↔ IsPattern (num / den) pattern := by
  constructor
  · rintro rfl
    exact isPattern_nearestPattern num hden
  · exact (isPattern_nearestPattern num hden).unique

/-- A ratio that rounds to a finite number other than zero is neither tiny nor huge. -/
theorem IsPattern.bounds {r : ℚ} {pattern : ℕ} (h : IsPattern r pattern) (hpos : 0 < pattern)
    (hfinite : pattern < infinityPattern) : (2 : ℚ) ^ (-1075 : ℤ) ≤ r ∧ r < 2 ^ (1025 : ℤ) := by
  rcases h with ⟨-, rfl⟩ | ⟨hr, n, hn, rfl⟩
  · omega
  · simp only [infinityPattern, fractionBits] at hfinite
    have hlog : gridExponent r = max (-1074) (Int.log 2 r - 52) := rfl
    have hleast : leastExponent = -1074 := rfl
    constructor
    · by_cases hsmall : Int.log 2 r < -1022
      · -- on the finest grid the ratio is at least half a step away from zero
        have hgrid : gridExponent r = -1074 := by omega
        have hone : 1 ≤ n := by
          rw [hgrid, hleast, sub_self, Int.toNat_zero, zero_mul, zero_add] at hpos
          exact hpos
        have hone' : (1 : ℚ) ≤ n := by exact_mod_cast hone
        have hhalf : 1 / 2 ≤ r / 2 ^ (-1074 : ℤ) := by
          have hle := (abs_le.1 hn.1).1
          rw [hgrid] at hle
          linarith
        rw [le_div_iff₀ (by positivity)] at hhalf
        have hsplit : (2 : ℚ) ^ (-1075 : ℤ) = 1 / 2 * 2 ^ (-1074 : ℤ) := by
          rw [show (-1075 : ℤ) = -1 + -1074 from rfl, zpow_add₀ two_ne_zero, zpow_neg_one, one_div]
        rw [hsplit]
        exact hhalf
      · have hle : (-1075 : ℤ) ≤ Int.log 2 r := by omega
        exact (le_log_iff hr).1 hle
    · have hlt : Int.log 2 r < 1025 := by omega
      exact (log_lt_iff hr).1 hlt

/-! ## Numbers that are a ratio exactly -/

/-- The rational that a magnitude stands for. -/
def Magnitude.value (m : Magnitude) : ℚ := m.significand * 2 ^ m.exponent

theorem gridExponent_eq {m : ℕ} {q : ℤ} (hpos : 0 < m) (hlt : m < 2 ^ (fractionBits + 1))
    (hleast : leastExponent ≤ q) (hnormal : q = leastExponent ∨ 2 ^ fractionBits ≤ m) :
    gridExponent (m * 2 ^ q) = q := by
  have hval : (0 : ℚ) < m * 2 ^ q := by positivity
  have hlog : Int.log 2 (m * 2 ^ q : ℚ) < (fractionBits + 1 : ℕ) + q := by
    rw [log_lt_iff hval, zpow_add₀ two_ne_zero, zpow_natCast]
    gcongr
    exact_mod_cast hlt
  simp only [gridExponent]
  rcases hnormal with hq | hm
  · omega
  · have hge : (fractionBits : ℤ) + q ≤ Int.log 2 (m * 2 ^ q : ℚ) := by
      rw [le_log_iff hval, zpow_add₀ two_ne_zero, zpow_natCast]
      gcongr
      exact_mod_cast hm
    omega

/-- A whole number of steps on the grid is nearest to itself. -/
theorem isPattern_of_gridExponent {m : ℕ} {q : ℤ} (hpos : 0 < m)
    (hgrid : gridExponent (m * 2 ^ q) = q) :
    IsPattern (m * 2 ^ q) ((q - leastExponent).toNat * 2 ^ fractionBits + m) := by
  right
  refine ⟨by positivity, m, ?_, ?_⟩
  · rw [hgrid, mul_div_cancel_right₀ _ (by positivity)]
    exact isNearest_self m
  · rw [hgrid]

/-- Every pattern is that of the number that it stands for. -/
theorem isPattern_value (pattern : ℕ) : IsPattern (Magnitude.ofPattern pattern).value pattern := by
  have hdiv := Nat.div_add_mod pattern (2 ^ fractionBits)
  have hmod := Nat.mod_lt pattern (Nat.two_pow_pos fractionBits)
  simp only [Magnitude.ofPattern, Magnitude.value, Nat.pow_eq]
  by_cases hsmall : pattern / 2 ^ fractionBits = 0
  · rw [if_pos hsmall]
    have hlt : pattern < 2 ^ fractionBits := by
      rw [hsmall, mul_zero, zero_add] at hdiv
      rwa [hdiv] at hmod
    rcases Nat.eq_zero_or_pos pattern with rfl | hpos
    · left
      rw [Nat.cast_zero, zero_mul]
      exact ⟨rfl, rfl⟩
    · have hgrid := gridExponent_eq hpos (hlt.trans (Nat.pow_lt_pow_succ one_lt_two)) le_rfl
        (Or.inl rfl)
      have h := isPattern_of_gridExponent hpos hgrid
      rw [sub_self, Int.toNat_zero, zero_mul, zero_add] at h
      exact h
  · obtain ⟨e, he⟩ := Nat.exists_eq_succ_of_ne_zero hsmall
    rw [if_neg hsmall, he]
    have hpos : 0 < 2 ^ fractionBits + pattern % 2 ^ fractionBits :=
      Nat.add_pos_left (Nat.two_pow_pos _) _
    have hlt : 2 ^ fractionBits + pattern % 2 ^ fractionBits < 2 ^ (fractionBits + 1) := by
      rw [pow_succ]
      omega
    have hgrid := gridExponent_eq (q := leastExponent + (e.succ : ℕ) - 1) hpos hlt (by omega)
      (Or.inr (Nat.le_add_right _ _))
    have h := isPattern_of_gridExponent hpos hgrid
    -- the leading one is the last step of the coarser grid below
    have hcount : (leastExponent + (e.succ : ℕ) - 1 - leastExponent).toNat = e := by omega
    rw [he, Nat.mul_succ, add_assoc, mul_comm] at hdiv
    rw [hcount, hdiv] at h
    exact h

end PrefixCalc.Binary64
