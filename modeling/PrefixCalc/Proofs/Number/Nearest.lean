/-
  The nearest of all numbers.

  1. **Numbers in order** — `patternValue` is the number with a given pattern.  It grows with the
     pattern (`strictMono_patternValue`), so the neighbours of a number have the patterns next to
     its own, whether they are small or normal.  The pattern of infinity and those above it count
     here as the numbers that would come next if exponents had no upper bound.

  2. **Specification** — `IsRounding r pattern`: no number is nearer to `r`, and if another one is as
     near, the pattern is even.  This compares with all numbers at once.  It knows nothing of powers
     of two below `r` or of a grid around it.

  3. **The crux** (`isPattern_iff_isRounding`) — the number nearest on the grid is the nearest of
     all.  The ratio lies between two neighbours on the grid, and every other number is farther
     away than one of them.

  4. **Overflow** (`IsRounding.lt_infinityPattern_iff`) — a ratio is too large from the middle between
     the largest number and the one that would come next on; the middle itself is too large.
-/
import PrefixCalc.Proofs.Number.Rounding

namespace PrefixCalc.Binary64

/-! ## Numbers in order -/

/-- The number with this pattern, if exponents had no upper bound. -/
def patternValue (pattern : ℕ) : ℚ := (Magnitude.ofPattern pattern).value

theorem Magnitude.ofPattern_of_small {n : ℕ} (h : n < 2 ^ fractionBits) :
    ofPattern n = ⟨n, leastExponent⟩ := by
  have hdiv : n / Nat.pow 2 fractionBits = 0 := Nat.div_eq_of_lt h
  rw [ofPattern, if_pos hdiv]

theorem Magnitude.ofPattern_of_normal (k : ℕ) {n : ℕ} (hge : 2 ^ fractionBits ≤ n)
    (hlt : n < 2 ^ (fractionBits + 1)) :
    ofPattern (k * 2 ^ fractionBits + n) = ⟨n, leastExponent + k⟩ := by
  have hdiv : (k * 2 ^ fractionBits + n) / Nat.pow 2 fractionBits = k + 1 := by
    simp only [fractionBits, Nat.pow_eq] at *
    omega
  have hmod : Nat.pow 2 fractionBits + (k * 2 ^ fractionBits + n) % Nat.pow 2 fractionBits = n := by
    simp only [fractionBits, Nat.pow_eq] at *
    omega
  have hexponent : leastExponent + ((k + 1 : ℕ) : ℤ) - 1 = leastExponent + k := by omega
  rw [ofPattern, if_neg (by rw [hdiv]; exact k.succ_ne_zero), hdiv, hmod, hexponent]

/-- On a stretch of numbers with one exponent the value counts the steps. -/
theorem patternValue_eq {k n : ℕ} (hle : n ≤ 2 ^ (fractionBits + 1))
    (hnormal : k = 0 ∨ 2 ^ fractionBits ≤ n) :
    patternValue (k * 2 ^ fractionBits + n) = n * 2 ^ (leastExponent + k) := by
  rw [patternValue]
  rcases Nat.lt_or_ge n (2 ^ fractionBits) with hsmall | hbig
  · obtain rfl : k = 0 := hnormal.resolve_right (Nat.not_le.2 hsmall)
    rw [Nat.zero_mul, Nat.zero_add, Magnitude.ofPattern_of_small hsmall, Nat.cast_zero, add_zero]
    rfl
  · rcases hle.lt_or_eq with hlt | rfl
    · rw [Magnitude.ofPattern_of_normal k hbig hlt]
      rfl
    · -- the last step is the first one of the stretch above
      have hnext : k * 2 ^ fractionBits + 2 ^ (fractionBits + 1) =
          (k + 1) * 2 ^ fractionBits + 2 ^ fractionBits := by ring
      rw [hnext, Magnitude.ofPattern_of_normal (k + 1) le_rfl (Nat.pow_lt_pow_succ one_lt_two),
        Magnitude.value]
      have hexponent : leastExponent + ((k + 1 : ℕ) : ℤ) = 1 + (leastExponent + k) := by omega
      rw [hexponent, zpow_add₀ two_ne_zero, zpow_one]
      push_cast
      ring

/-- Every pattern lies on such a stretch, before its last step. -/
theorem exists_pattern_eq (pattern : ℕ) : ∃ k n, pattern = k * 2 ^ fractionBits + n ∧
    n < 2 ^ (fractionBits + 1) ∧ (k = 0 ∨ 2 ^ fractionBits ≤ n) := by
  simp only [fractionBits]
  by_cases hsmall : pattern < 2 ^ 52
  · exact ⟨0, pattern, by omega, by omega, Or.inl rfl⟩
  · exact ⟨pattern / 2 ^ 52 - 1, 2 ^ 52 + pattern % 2 ^ 52, by omega, by omega,
      Or.inr (by omega)⟩

theorem strictMono_patternValue : StrictMono patternValue := by
  refine strictMono_nat_of_lt_succ fun pattern => ?_
  obtain ⟨k, n, rfl, hlt, hnormal⟩ := exists_pattern_eq pattern
  rw [add_assoc, patternValue_eq hlt.le hnormal,
    patternValue_eq hlt (hnormal.imp_right fun h => h.trans n.le_succ)]
  gcongr
  exact_mod_cast n.lt_succ_self

/-! ## The nearest number -/

/-- No number is nearer to `r` than the one with this pattern, and where another is as near, the
    pattern is even. -/
def IsRounding (r : ℚ) (pattern : ℕ) : Prop :=
  ∀ other, |r - patternValue pattern| ≤ |r - patternValue other| ∧
    (|r - patternValue pattern| = |r - patternValue other| → other = pattern ∨ Even pattern)

theorem patternValue_le {p p' : ℕ} (h : p ≤ p') : patternValue p ≤ patternValue p' :=
  strictMono_patternValue.monotone h

/-- Below `r` the number with the greatest pattern is the nearest. -/
theorem sub_le_abs_of_le {r : ℚ} {p other : ℕ} (hlow : patternValue p ≤ r) (h : other ≤ p) :
    r - patternValue p ≤ |r - patternValue other| ∧
      (r - patternValue p = |r - patternValue other| → other = p) := by
  have hother := patternValue_le h
  rw [abs_of_nonneg (by linarith)]
  exact ⟨by linarith, fun heq => strictMono_patternValue.injective (by linarith)⟩

/-- Above `r` the number with the least pattern is the nearest. -/
theorem sub_le_abs_of_ge {r : ℚ} {p other : ℕ} (hhigh : r ≤ patternValue p) (h : p ≤ other) :
    patternValue p - r ≤ |r - patternValue other| ∧
      (patternValue p - r = |r - patternValue other| → other = p) := by
  have hother := patternValue_le h
  rw [abs_sub_comm, abs_of_nonneg (by linarith)]
  exact ⟨by linarith, fun heq => strictMono_patternValue.injective (by linarith)⟩

/-- Of two neighbours around `r` the lower is the nearest number if it is nearer than the upper. -/
theorem isRounding_lower {r : ℚ} {p : ℕ} (hlow : patternValue p ≤ r)
    (hhigh : r ≤ patternValue (p + 1))
    (h : r - patternValue p < patternValue (p + 1) - r ∨
      r - patternValue p = patternValue (p + 1) - r ∧ Even p) : IsRounding r p := by
  intro other
  rw [abs_of_nonneg (sub_nonneg.2 hlow)]
  rcases Nat.lt_or_ge p other with hlt | hge
  · obtain ⟨hfar, -⟩ := sub_le_abs_of_ge hhigh hlt
    rcases h with hnear | ⟨htie, heven⟩
    · have hnearer := hnear.trans_le hfar
      exact ⟨hnearer.le, fun heq => absurd heq hnearer.ne⟩
    · exact ⟨htie.trans_le hfar, fun _ => Or.inr heven⟩
  · obtain ⟨hfar, hsame⟩ := sub_le_abs_of_le hlow hge
    exact ⟨hfar, fun heq => Or.inl (hsame heq)⟩

/-- Of two neighbours around `r` the upper is the nearest number if it is nearer than the lower. -/
theorem isRounding_upper {r : ℚ} {p : ℕ} (hlow : patternValue p ≤ r)
    (hhigh : r ≤ patternValue (p + 1))
    (h : patternValue (p + 1) - r < r - patternValue p ∨
      patternValue (p + 1) - r = r - patternValue p ∧ Even (p + 1)) : IsRounding r (p + 1) := by
  intro other
  rw [abs_sub_comm, abs_of_nonneg (sub_nonneg.2 hhigh)]
  rcases Nat.lt_or_ge p other with hlt | hge
  · obtain ⟨hfar, hsame⟩ := sub_le_abs_of_ge hhigh hlt
    exact ⟨hfar, fun heq => Or.inl (hsame heq)⟩
  · obtain ⟨hfar, -⟩ := sub_le_abs_of_le hlow hge
    rcases h with hnear | ⟨htie, heven⟩
    · have hnearer := hnear.trans_le hfar
      exact ⟨hnearer.le, fun heq => absurd heq hnearer.ne⟩
    · exact ⟨htie.trans_le hfar, fun _ => Or.inr heven⟩

theorem abs_sub_lt_max {r a b c : ℚ} (hab : a < b) (hbc : b < c) :
    |r - b| < max |r - a| |r - c| := by
  rw [lt_max_iff]
  rcases le_total b r with h | h
  · left
    calc |r - b| = r - b := abs_of_nonneg (sub_nonneg.2 h)
      _ < r - a := by linarith
      _ ≤ |r - a| := le_abs_self _
  · right
    calc |r - b| = b - r := by rw [abs_sub_comm, abs_of_nonneg (sub_nonneg.2 h)]
      _ < c - r := by linarith
      _ ≤ |r - c| := by rw [abs_sub_comm]; exact le_abs_self _

/-- Two different numbers cannot both be nearest: one between them would be nearer, and of two
    neighbours one has an odd pattern. -/
theorem IsRounding.le {r : ℚ} {p p' : ℕ} (h : IsRounding r p) (h' : IsRounding r p') :
    p' ≤ p := by
  by_contra hlt
  rw [not_le] at hlt
  have hdist : |r - patternValue p| = |r - patternValue p'| := le_antisymm (h p').1 (h' p).1
  have heven : Even p := ((h p').2 hdist).resolve_left hlt.ne'
  have heven' : Even p' := ((h' p).2 hdist.symm).resolve_left hlt.ne
  have hbetween : p + 1 < p' := by
    obtain ⟨a, rfl⟩ := heven
    obtain ⟨b, rfl⟩ := heven'
    omega
  have hnear := abs_sub_lt_max (r := r) (strictMono_patternValue p.lt_succ_self)
    (strictMono_patternValue hbetween)
  rw [← hdist, max_self] at hnear
  exact absurd (h (p + 1)).1 (not_le.2 hnear)

theorem IsRounding.unique {r : ℚ} {p p' : ℕ} (h : IsRounding r p) (h' : IsRounding r p') :
    p = p' := le_antisymm (h'.le h) (h.le h')

/-! ## Nearest on the grid and nearest of all -/

/-- The steps of the grid below and above a positive ratio are neighbours, small or normal. -/
theorem exists_neighbours {r : ℚ} (hr : 0 < r) : ∃ k m : ℕ, gridExponent r = leastExponent + k ∧
    m ≤ r / 2 ^ gridExponent r ∧ r / 2 ^ gridExponent r < m + 1 ∧
    patternValue (k * 2 ^ fractionBits + m) = m * 2 ^ gridExponent r ∧
    patternValue (k * 2 ^ fractionBits + m + 1) = (m + 1 : ℕ) * 2 ^ gridExponent r := by
  have hgrid : gridExponent r = max leastExponent (Int.log 2 r - fractionBits) := rfl
  have hsize : (0 : ℚ) < 2 ^ gridExponent r := by positivity
  obtain ⟨k, hk⟩ := Int.eq_ofNat_of_zero_le (show 0 ≤ gridExponent r - leastExponent by omega)
  have hk' : gridExponent r = leastExponent + k := by omega
  have hlow := Nat.floor_le (show 0 ≤ r / 2 ^ gridExponent r by positivity)
  have hhigh := Nat.lt_floor_add_one (r / 2 ^ gridExponent r)
  have hlt : ⌊r / 2 ^ gridExponent r⌋₊ < 2 ^ (fractionBits + 1) := by
    rw [Nat.floor_lt (by positivity), div_lt_iff₀ hsize]
    push_cast
    rw [← zpow_natCast, ← zpow_add₀ two_ne_zero, ← log_lt_iff hr]
    omega
  have hnormal : k = 0 ∨ 2 ^ fractionBits ≤ ⌊r / 2 ^ gridExponent r⌋₊ := by
    by_cases hzero : k = 0
    · exact Or.inl hzero
    · right
      rw [Nat.le_floor_iff (by positivity), le_div_iff₀ hsize]
      push_cast
      rw [← zpow_natCast, ← zpow_add₀ two_ne_zero, ← le_log_iff hr]
      omega
  refine ⟨k, ⌊r / 2 ^ gridExponent r⌋₊, hk', hlow, hhigh, ?_, ?_⟩
  · rw [patternValue_eq hlt.le hnormal, hk']
  · rw [add_assoc, patternValue_eq hlt (hnormal.imp_right fun h => h.trans (Nat.le_succ _)), hk']

/-- The natural nearest to a ratio is one of the two around it, the nearer one. -/
theorem IsNearest.eq_or_eq {y : ℚ} {m n : ℕ} (h : IsNearest y n) (hlow : m ≤ y)
    (hhigh : y < m + 1) :
    n = m ∧ (y - m < m + 1 - y ∨ y - m = m + 1 - y ∧ Even m) ∨
    n = m + 1 ∧ (m + 1 - y < y - m ∨ m + 1 - y = y - m ∧ Even (m + 1)) := by
  obtain ⟨hnear, htie⟩ := h
  have hbounds := abs_le.1 hnear
  have hle : (n : ℚ) < m + 2 := by linarith
  have hge : (m : ℚ) < n + 1 := by linarith
  have hle' : n < m + 2 := by exact_mod_cast hle
  have hge' : m < n + 1 := by exact_mod_cast hge
  obtain rfl | rfl : n = m ∨ n = m + 1 := by omega
  · left
    rw [abs_of_nonneg (by linarith)] at hnear htie
    rcases hnear.lt_or_eq with hhalf | hhalf
    · exact ⟨rfl, Or.inl (by linarith)⟩
    · exact ⟨rfl, Or.inr ⟨by linarith, htie hhalf⟩⟩
  · right
    push_cast at hnear htie
    rw [abs_sub_comm, abs_of_nonneg (by linarith)] at hnear htie
    rcases hnear.lt_or_eq with hhalf | hhalf
    · exact ⟨rfl, Or.inl (by linarith)⟩
    · exact ⟨rfl, Or.inr ⟨by linarith, htie hhalf⟩⟩

theorem isRounding_zero : IsRounding 0 0 := by
  have hzero : patternValue 0 = 0 := by
    rw [patternValue, Magnitude.ofPattern_of_small (Nat.two_pow_pos _), Magnitude.value,
      Nat.cast_zero, zero_mul]
  have hone : (0 : ℚ) < patternValue (0 + 1) := by
    rw [← hzero]
    exact strictMono_patternValue Nat.one_pos
  exact isRounding_lower hzero.le hone.le (Or.inl (by linarith))

/-- The number that is nearest on the grid is the nearest of all. -/
theorem IsPattern.isRounding {r : ℚ} {p : ℕ} (h : IsPattern r p) : IsRounding r p := by
  rcases h with ⟨rfl, rfl⟩ | ⟨hr, n, hn, rfl⟩
  · exact isRounding_zero
  · obtain ⟨k, m, hk, hlow, hhigh, hvalue, hvalue'⟩ := exists_neighbours hr
    have hcount : (gridExponent r - leastExponent).toNat = k := by omega
    have hsize : (0 : ℚ) < 2 ^ gridExponent r := by positivity
    -- distances are those on the grid, times the size of a step
    have hbelow : r - patternValue (k * 2 ^ fractionBits + m) =
        (r / 2 ^ gridExponent r - m) * 2 ^ gridExponent r := by
      rw [hvalue, sub_mul, div_mul_cancel₀ r hsize.ne']
    have habove : patternValue (k * 2 ^ fractionBits + m + 1) - r =
        (m + 1 - r / 2 ^ gridExponent r) * 2 ^ gridExponent r := by
      rw [hvalue', sub_mul, div_mul_cancel₀ r hsize.ne', Nat.cast_succ]
    have hle : patternValue (k * 2 ^ fractionBits + m) ≤ r := by
      rw [← sub_nonneg, hbelow]
      exact mul_nonneg (by linarith) hsize.le
    have hge : r ≤ patternValue (k * 2 ^ fractionBits + m + 1) := by
      rw [← sub_nonneg, habove]
      exact mul_nonneg (by linarith) hsize.le
    have heven : Even (k * 2 ^ fractionBits) :=
      (even_two.pow_of_ne_zero (by decide : fractionBits ≠ 0)).mul_left k
    rw [hcount]
    rcases hn.eq_or_eq hlow hhigh with ⟨rfl, hlt | ⟨heq, hpar⟩⟩ | ⟨rfl, hlt | ⟨heq, hpar⟩⟩
    · refine isRounding_lower hle hge (Or.inl ?_)
      rw [hbelow, habove]
      exact mul_lt_mul_of_pos_right hlt hsize
    · refine isRounding_lower hle hge (Or.inr ⟨?_, heven.add hpar⟩)
      rw [hbelow, habove, heq]
    · rw [← add_assoc]
      refine isRounding_upper hle hge (Or.inl ?_)
      rw [hbelow, habove]
      exact mul_lt_mul_of_pos_right hlt hsize
    · have hparity : Even (k * 2 ^ fractionBits + (m + 1)) := heven.add hpar
      rw [← add_assoc] at hparity ⊢
      refine isRounding_upper hle hge (Or.inr ⟨?_, hparity⟩)
      rw [hbelow, habove, heq]

/-- Every ratio has a nearest number. -/
theorem exists_isPattern {r : ℚ} (hr : 0 ≤ r) : ∃ p, IsPattern r p := by
  refine ⟨nearestPattern r.num.toNat r.den, ?_⟩
  have hpattern := isPattern_nearestPattern r.num.toNat r.den_pos
  have hnum : ((r.num.toNat : ℕ) : ℤ) = r.num := Int.toNat_of_nonneg (Rat.num_nonneg.2 hr)
  have hnum' : ((r.num.toNat : ℕ) : ℚ) = r.num := by exact_mod_cast hnum
  rwa [hnum', Rat.num_div_den] at hpattern

theorem isPattern_iff_isRounding {r : ℚ} (hr : 0 ≤ r) {p : ℕ} :
    IsPattern r p ↔ IsRounding r p := by
  refine ⟨IsPattern.isRounding, fun h => ?_⟩
  obtain ⟨p', hp'⟩ := exists_isPattern hr
  rwa [h.unique hp'.isRounding]

/-! ## Overflow -/

/-- The middle between the largest number and the one that would come next, `2^1024 - 2^970`. -/
def overflowThreshold : ℚ := (2 ^ 54 - 1) * 2 ^ 970

theorem two_mul_overflowThreshold : patternValue (infinityPattern - 1) +
    patternValue (infinityPattern - 1 + 1) = 2 * overflowThreshold := by
  have hlast : infinityPattern - 1 = 2045 * 2 ^ fractionBits + (2 ^ 53 - 1) := by decide
  have hnext : infinityPattern - 1 + 1 = 2045 * 2 ^ fractionBits + 2 ^ 53 := by decide
  have hexponent : leastExponent + (2045 : ℕ) = (971 : ℕ) := by decide
  have hpower : (2 : ℚ) ^ 971 = 2 * 2 ^ 970 := pow_succ' 2 970
  rw [hnext, hlast, patternValue_eq (by decide) (by decide),
    patternValue_eq (by decide) (by decide), hexponent, zpow_natCast, hpower, overflowThreshold]
  generalize (2 : ℚ) ^ 970 = size
  push_cast
  ring

/-- Between two neighbours of which the upper has the even pattern, the middle is rounded up. -/
theorem IsRounding.le_iff {r : ℚ} {p q : ℕ} (h : IsRounding r p) (heven : Even (q + 1)) :
    p ≤ q ↔ 2 * r < patternValue q + patternValue (q + 1) := by
  have hstep := strictMono_patternValue q.lt_succ_self
  constructor
  · intro hle
    by_contra hge
    rw [not_lt] at hge
    rcases le_or_gt r (patternValue (q + 1)) with hr | hr
    · have hround : IsRounding r (q + 1) := by
        refine isRounding_upper (by linarith) hr ?_
        rcases hge.lt_or_eq with hmore | hmid
        · exact Or.inl (by linarith)
        · exact Or.inr ⟨by linarith, heven⟩
      have heq := h.unique hround
      omega
    · have hnear := (h (q + 1)).1
      rw [abs_of_nonneg (sub_nonneg.2 hr.le)] at hnear
      obtain ⟨hfar, hsame⟩ := sub_le_abs_of_le hr.le (hle.trans q.le_succ)
      have heq := hsame (le_antisymm hfar hnear)
      omega
  · intro hlt
    by_contra hge
    rw [not_le] at hge
    rcases le_or_gt (patternValue q) r with hr | hr
    · have heq := h.unique (isRounding_lower hr (by linarith) (Or.inl (by linarith)))
      omega
    · have hnear := (h q).1
      rw [abs_sub_comm r (patternValue q), abs_of_nonneg (sub_nonneg.2 hr.le)] at hnear
      obtain ⟨hfar, hsame⟩ := sub_le_abs_of_ge hr.le hge.le
      have heq := hsame (le_antisymm hfar hnear)
      omega

/-- A ratio is not too large exactly below the middle. -/
theorem IsRounding.lt_infinityPattern_iff {r : ℚ} {p : ℕ} (h : IsRounding r p) :
    p < infinityPattern ↔ r < overflowThreshold := by
  have hle : p < infinityPattern ↔ p ≤ infinityPattern - 1 := Nat.lt_iff_le_pred (by decide)
  rw [hle, h.le_iff (by decide), two_mul_overflowThreshold]
  exact mul_lt_mul_iff_right₀ two_pos

/-! ## Rounded numbers -/

/-- The number of this sign that is nearest to a ratio, provided that the ratio is not too large. -/
def IsRounded (negative : Bool) (r : ℚ) (x : Float) : Prop :=
  ∃ pattern < infinityPattern, IsRounding r pattern ∧ x = ofPattern negative pattern

theorem exists_isRounded_iff {negative : Bool} {r : ℚ} (hr : 0 ≤ r) :
    (∃ x, IsRounded negative r x) ↔ r < overflowThreshold := by
  constructor
  · rintro ⟨-, pattern, hlt, hround, -⟩
    exact hround.lt_infinityPattern_iff.1 hlt
  · intro hlt
    obtain ⟨pattern, hpattern⟩ := exists_isPattern hr
    have hround := hpattern.isRounding
    exact ⟨_, pattern, hround.lt_infinityPattern_iff.2 hlt, hround, rfl⟩

end PrefixCalc.Binary64
