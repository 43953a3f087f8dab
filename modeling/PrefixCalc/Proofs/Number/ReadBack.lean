/-
  A number that is written and read again is the same number, bit for bit.

  1. **Meaning** — `Decimal.value` is the rational that a decimal stands for, and a decimal reads as
     the number with the pattern of this rational (`toFloat?_eq_some_iff`).

  2. **Choice** — whichever decimal `Shortest.decimal` settles on, its pattern is the number's own
     (`isPattern_decimal`): a candidate is only taken if it reads back, and the exact expansion
     that stands in for a missing candidate has the value of the number.

  3. **Spelling** — a `Numeral` is a text in its parts, and the reader finds the parts again
     (`Numeral.read_text`).  A positional text is a numeral whose decimal has the same value, a
     scientific text one whose decimal is the same.  The latter needs an exponent of moderate size,
     which the bounds of the numbers give (`Decimal.natAbs_exponent_lt`).

  4. **Both together** — `readNumber_numberChars`, for every number that a word can write at all
     (`isWritable_of_readNumber`).
-/
import PrefixCalc.Number.Text
import PrefixCalc.Proofs.Number.Rounding

namespace PrefixCalc

open Binary64

/-! ## What a decimal means -/

theorem nearest?_eq_some_iff {negative : Bool} (num : ℕ) {den : ℕ} (hden : 0 < den) {x : Float} :
    nearest? negative num den = some x ↔ ∃ pattern < infinityPattern,
      IsPattern (num / den) pattern ∧ x = ofPattern negative pattern := by
  simp only [nearest?]
  constructor
  · intro h
    split at h
    · next hlt =>
      exact ⟨_, hlt, isPattern_nearestPattern num hden, (Option.some.inj h).symm⟩
    · nomatch h
  · rintro ⟨pattern, hlt, hpattern, rfl⟩
    rw [(nearestPattern_eq_iff num hden).2 hpattern, if_pos hlt]

namespace Decimal

/-- The rational that a decimal stands for. -/
def value (d : Decimal) : ℚ := d.coefficient * 10 ^ d.exponent

/-- A decimal reads as the number with the pattern of its value. -/
theorem toFloat?_eq_some_iff {negative : Bool} {d : Decimal} {x : Float} :
    d.toFloat? negative = some x ↔
      ∃ pattern < infinityPattern, IsPattern d.value pattern ∧ x = ofPattern negative pattern := by
  rcases d with ⟨coefficient, k | k⟩
  · have hvalue : (⟨coefficient, .ofNat k⟩ : Decimal).value =
        ((coefficient * Nat.pow 10 k : ℕ) : ℚ) / (1 : ℕ) := by
      simp only [value, Nat.pow_eq, Int.ofNat_eq_natCast, zpow_natCast]
      push_cast
      rw [div_one]
    rw [hvalue]
    exact nearest?_eq_some_iff _ one_pos
  · have hvalue : (⟨coefficient, .negSucc k⟩ : Decimal).value =
        (coefficient : ℚ) / (Nat.pow 10 (k + 1) : ℕ) := by
      simp only [value, Nat.pow_eq, zpow_negSucc]
      push_cast
      rw [div_eq_mul_inv]
    rw [hvalue]
    exact nearest?_eq_some_iff _ (Nat.pow_pos (by decide))

theorem toFloat?_of_isPattern {d : Decimal} {pattern : ℕ} (negative : Bool)
    (h : IsPattern d.value pattern) (hfinite : pattern < infinityPattern) :
    d.toFloat? negative = some (ofPattern negative pattern) :=
  toFloat?_eq_some_iff.2 ⟨pattern, hfinite, h, rfl⟩

end Decimal

/-! ## The decimal that is chosen -/

namespace Shortest

theorem isPattern_of_readsBackAs {pattern : ℕ} {d : Decimal} (h : readsBackAs pattern d = true) :
    IsPattern d.value pattern := by
  rw [readsBackAs] at h
  split at h
  · next x hx =>
    obtain ⟨p, hlt, hp, rfl⟩ := Decimal.toFloat?_eq_some_iff.1 hx
    rw [toNat_toBits_ofPattern false hlt.le, if_neg Bool.false_ne_true, beq_iff_eq] at h
    rwa [h] at hp
  · nomatch h

/-- The exact expansion has the value of the number. -/
theorem value_toDecimal (m : Magnitude) : m.toDecimal.value = m.value := by
  rcases m with ⟨significand, k | k⟩
  · simp only [Magnitude.toDecimal, Magnitude.value, Decimal.value, Nat.pow_eq,
      Int.ofNat_eq_natCast, zpow_natCast, zpow_zero, mul_one]
    push_cast
    rfl
  · simp only [Magnitude.toDecimal, Magnitude.value, Decimal.value, Nat.pow_eq, zpow_negSucc]
    push_cast
    have hten : (10 : ℚ) ^ (k + 1) = 2 ^ (k + 1) * 5 ^ (k + 1) := by
      rw [← mul_pow]
      norm_num
    rw [hten]
    field_simp

/-- Whichever decimal is chosen, it reads back. -/
theorem isPattern_decimal (pattern : ℕ) : IsPattern (decimal pattern).value pattern := by
  simp only [decimal]
  cases hfound : (List.range mostDigits).findSome? _ with
  | none =>
    rw [Option.getD_none, value_toDecimal]
    exact isPattern_value pattern
  | some d =>
    rw [Option.getD_some]
    obtain ⟨i, -, hi⟩ := List.exists_of_findSome?_eq_some hfound
    obtain ⟨-, hreads⟩ := Option.filter_eq_some_iff.1 hi
    exact isPattern_of_readsBackAs hreads

end Shortest

/-! ## Reading the parts of a numeral -/

namespace Decimal

/-- Every character is a digit. -/
def AreDigits (ds : List Char) : Prop := ∀ c ∈ ds, c.isDigit = true

theorem areDigits_toDigits (n : ℕ) : AreDigits (Nat.toDigits 10 n) := fun _ hc =>
  Nat.isDigit_of_mem_toDigits (by decide) (by decide) hc

theorem areDigits_zeros (n : ℕ) : AreDigits (List.replicate n '0') := by
  intro c hc
  rw [List.eq_of_mem_replicate hc]
  rfl

theorem AreDigits.append {ds es : List Char} (hd : AreDigits ds) (he : AreDigits es) :
    AreDigits (ds ++ es) := by
  intro c hc
  rcases List.mem_append.1 hc with hc | hc
  · exact hd c hc
  · exact he c hc

/-- Digits are taken up to the first character that is none. -/
theorem takeWhile_digits {ds tail : List Char} (hd : AreDigits ds)
    (htail : ∀ c ∈ tail.head?, c.isDigit = false) :
    (ds ++ tail).takeWhile Char.isDigit = ds ∧ (ds ++ tail).dropWhile Char.isDigit = tail := by
  rw [List.takeWhile_append_of_pos hd, List.dropWhile_append_of_pos hd]
  cases tail with
  | nil => exact ⟨List.append_nil ds, rfl⟩
  | cons c tail =>
    have hc : ¬ c.isDigit = true := by
      rw [htail c rfl]
      exact Bool.false_ne_true
    rw [List.takeWhile_cons_of_neg hc, List.dropWhile_cons_of_neg hc]
    exact ⟨List.append_nil ds, rfl⟩

theorem digitsValue_zeros_append (n k : ℕ) :
    digitsValue (List.replicate k '0' ++ Nat.toDigits 10 n) = n := by
  rw [digitsValue, Nat.ofDigitChars_append, Nat.ofDigitChars_replicate_zero, mul_zero,
    Nat.ofDigitChars_ten_toDigits]

theorem le_ofDigitChars (ds : List Char) (n : ℕ) : n ≤ Nat.ofDigitChars 10 ds n := by
  induction ds generalizing n with
  | nil => exact le_of_eq Nat.ofDigitChars_nil.symm
  | cons d ds ih =>
    rw [Nat.ofDigitChars_cons]
    exact le_trans (by omega) (ih _)

/-- Below its bound an exponent is read like any other number. -/
theorem exponentValue_eq {ds : List Char} (h : digitsValue ds < exponentBound) :
    exponentValue ds = digitsValue ds := by
  rw [digitsValue] at h
  rw [exponentValue, digitsValue]
  generalize 0 = n at h
  induction ds generalizing n with
  | nil => exact Nat.ofDigitChars_nil.symm
  | cons d ds ih =>
    -- the number only grows from digit to digit, so it is below the bound all along
    have hn : n < exponentBound := (le_ofDigitChars (d :: ds) n).trans_lt h
    rw [Nat.ofDigitChars_cons] at h
    rw [List.foldl_cons, if_pos hn, Nat.ofDigitChars_cons]
    exact ih _ h

theorem readExponent_signed {ds : List Char} (negative : Bool) (hd : AreDigits ds) (hne : ds ≠ [])
    (hbound : digitsValue ds < exponentBound) :
    readExponent ('e' :: (if negative then '-' else '+') :: ds) =
      some (if negative then -(digitsValue ds : ℤ) else digitsValue ds) := by
  have hcheck : (ds.isEmpty || !ds.all Char.isDigit) = false := by
    rw [List.isEmpty_eq_false_iff.2 hne, List.all_eq_true.2 hd]
    rfl
  have hvalue := exponentValue_eq hbound
  cases negative with
  | true => simp [readExponent, hcheck, hvalue]
  | false => simp [readExponent, hcheck, hvalue]

/-- The exponent that is written is the one that is read. -/
theorem readExponent_exponentText {e : ℤ} (h : e.natAbs < exponentBound) :
    readExponent ('e' :: exponentText e) = some e := by
  simp only [exponentText]
  have hvalue := digitsValue_zeros_append e.natAbs (2 - (Nat.toDigits 10 e.natAbs).length)
  have hdigits := (areDigits_zeros (2 - (Nat.toDigits 10 e.natAbs).length)).append
    (areDigits_toDigits e.natAbs)
  have hne : List.replicate (2 - (Nat.toDigits 10 e.natAbs).length) '0' ++
      Nat.toDigits 10 e.natAbs ≠ [] := List.append_ne_nil_of_right_ne_nil _ Nat.toDigits_ne_nil
  have hread := readExponent_signed (decide (e < 0)) hdigits hne (by rwa [hvalue])
  rw [hvalue] at hread
  by_cases hneg : e < 0
  · rw [if_pos (decide_eq_true hneg), if_pos (decide_eq_true hneg)] at hread
    rw [if_pos hneg, hread]
    congr 1
    omega
  · rw [if_neg (by simpa using hneg), if_neg (by simpa using hneg)] at hread
    rw [if_neg hneg, hread]
    congr 1
    omega

theorem digitsValue_digits (d : Decimal) : digitsValue d.digits = d.coefficient :=
  Nat.ofDigitChars_ten_toDigits

theorem digits_ne_nil (d : Decimal) : d.digits ≠ [] := Nat.toDigits_ne_nil

theorem areDigits_digits (d : Decimal) : AreDigits d.digits := areDigits_toDigits d.coefficient

/-! ## The size of an exponent -/

/-- A decimal is at least the power of ten of its first digit, -/
theorem le_value {d : Decimal} (hpos : 0 < d.coefficient) :
    (10 : ℚ) ^ (d.exponent + d.digits.length - 1) ≤ d.value := by
  obtain ⟨n, hn⟩ := Nat.exists_eq_succ_of_ne_zero (List.length_pos_of_ne_nil (digits_ne_nil d)).ne'
  have hle : 10 ^ n ≤ d.coefficient := by
    rcases Nat.eq_zero_or_pos n with rfl | hn'
    · exact hpos
    · have hlong : ¬ d.digits.length ≤ n := by omega
      exact not_lt.1 (mt (Nat.length_toDigits_le_iff (by decide) hn').2 hlong)
  have hle' : (10 : ℚ) ^ n ≤ d.coefficient := by exact_mod_cast hle
  have hexp : d.exponent + d.digits.length - 1 = n + d.exponent := by omega
  rw [hexp, zpow_add₀ (by norm_num), zpow_natCast, value]
  gcongr

/-- and less than the next one. -/
theorem value_lt (d : Decimal) : d.value < 10 ^ (d.exponent + d.digits.length) := by
  have hlt : d.coefficient < 10 ^ d.digits.length :=
    (Nat.length_toDigits_le_iff (by decide) (List.length_pos_of_ne_nil (digits_ne_nil d))).1 le_rfl
  have hlt' : (d.coefficient : ℚ) < 10 ^ d.digits.length := by exact_mod_cast hlt
  rw [add_comm, zpow_add₀ (by norm_num), zpow_natCast, value]
  gcongr

theorem two_zpow_le_ten_zpow {e : ℤ} (h : 0 ≤ e) : (2 : ℚ) ^ e ≤ 10 ^ e := by
  obtain ⟨n, rfl⟩ := Int.eq_ofNat_of_zero_le h
  rw [zpow_natCast, zpow_natCast]
  gcongr
  norm_num

theorem ten_zpow_le_two_zpow {e : ℤ} (h : e ≤ 0) : (10 : ℚ) ^ e ≤ 2 ^ e := by
  have hinv := two_zpow_le_ten_zpow (neg_nonneg.2 h)
  rw [zpow_neg, zpow_neg] at hinv
  exact (inv_le_inv₀ (by positivity) (by positivity)).1 hinv

/-- The exponents of finite numbers are far from the bound. -/
theorem natAbs_exponent_lt {d : Decimal} {pattern : ℕ} (h : IsPattern d.value pattern)
    (hpos : 0 < pattern) (hfinite : pattern < infinityPattern) :
    (d.exponent + d.digits.length - 1).natAbs < exponentBound := by
  obtain ⟨hlow, hhigh⟩ := h.bounds hpos hfinite
  have hcoefficient : 0 < d.coefficient := by
    apply Nat.pos_of_ne_zero
    intro hzero
    rw [value, hzero, Nat.cast_zero, zero_mul] at hlow
    have htwo : (0 : ℚ) < 2 ^ (-1075 : ℤ) := by positivity
    exact absurd hlow (not_le.2 htwo)
  have hupper : d.exponent + d.digits.length - 1 < 1025 := by
    by_contra hge
    have hhuge : (2 : ℚ) ^ (1025 : ℤ) ≤ d.value :=
      calc (2 : ℚ) ^ (1025 : ℤ)
          ≤ 2 ^ (d.exponent + d.digits.length - 1) :=
            zpow_le_zpow_right₀ one_le_two (not_lt.1 hge)
        _ ≤ 10 ^ (d.exponent + d.digits.length - 1) := two_zpow_le_ten_zpow (by omega)
        _ ≤ d.value := le_value hcoefficient
    exact absurd hhigh (not_lt.2 hhuge)
  have hlower : -1075 < d.exponent + d.digits.length := by
    by_contra hge
    have htiny : d.value < 2 ^ (-1075 : ℤ) :=
      calc d.value
          < 10 ^ (d.exponent + d.digits.length) := value_lt d
        _ ≤ 2 ^ (d.exponent + d.digits.length) := ten_zpow_le_two_zpow (by omega)
        _ ≤ 2 ^ (-1075 : ℤ) := zpow_le_zpow_right₀ one_le_two (not_lt.1 hge)
    exact absurd hlow (not_le.2 htiny)
  simp only [exponentBound]
  omega

end Decimal

/-! ## Numerals -/

open Decimal

/-- An unsigned numeral in its parts. -/
structure Numeral where
  whole : List Char
  /-- The digits after the point, if there is one. -/
  fraction : Option (List Char)
  exponent : Option ℤ
  whole_ne_nil : whole ≠ []
  areDigits_whole : AreDigits whole
  areDigits_fraction : ∀ fs ∈ fraction, AreDigits fs
  natAbs_exponent_lt : ∀ e ∈ exponent, e.natAbs < exponentBound

namespace Numeral

/-- The fraction with its point. -/
def fractionText : Option (List Char) → List Char
  | none => []
  | some fs => '.' :: fs

/-- The exponent with its mark. -/
def exponentPart : Option ℤ → List Char
  | none => []
  | some e => 'e' :: exponentText e

/-- The numeral the way it is written. -/
def text (n : Numeral) : List Char :=
  n.whole ++ (fractionText n.fraction ++ exponentPart n.exponent)

/-- The decimal that a numeral writes. -/
def decimal (n : Numeral) : Decimal :=
  ⟨digitsValue (n.whole ++ n.fraction.getD []), n.exponent.getD 0 - (n.fraction.getD []).length⟩

theorem head?_exponentPart {o : Option ℤ} {c : Char} (h : c ∈ (exponentPart o).head?) :
    c = 'e' := by
  cases o with
  | none => nomatch h
  | some e => exact (Option.mem_some.1 h).symm

theorem readExponent_exponentPart {o : Option ℤ} (h : ∀ e ∈ o, e.natAbs < exponentBound) :
    readExponent (exponentPart o) = some (o.getD 0) := by
  cases o with
  | none => rfl
  | some e => exact readExponent_exponentText (h e rfl)

/-- The reader finds the parts of a numeral. -/
theorem read_text (n : Numeral) : Decimal.read n.text = some n.decimal := by
  rcases n with ⟨whole, fraction, exponent, hne, hwhole, hfraction, hbound⟩
  have hempty : whole.isEmpty = false := List.isEmpty_eq_false_iff.2 hne
  have hexponent := readExponent_exponentPart hbound
  have htail : ∀ c ∈ (exponentPart exponent).head?, c.isDigit = false := by
    intro c hc
    rw [head?_exponentPart hc]
    rfl
  simp only [Decimal.read, text, decimal]
  cases fraction with
  | none =>
    obtain ⟨htake, hdrop⟩ := takeWhile_digits hwhole htail
    simp only [fractionText, List.nil_append, htake, hdrop]
    -- no point follows, but the mark of an exponent or nothing
    cases exponent with
    | none => simp [exponentPart, readExponent, hempty]
    | some e =>
      rw [exponentPart] at hexponent
      simp [exponentPart, hempty, hexponent]
  | some fs =>
    have hpoint : ∀ c ∈ ('.' :: (fs ++ exponentPart exponent)).head?, c.isDigit = false := by
      simp
    obtain ⟨htake, hdrop⟩ := takeWhile_digits hwhole hpoint
    obtain ⟨htake', hdrop'⟩ := takeWhile_digits (hfraction fs rfl) htail
    simp [fractionText, htake, hdrop, htake', hdrop', hempty, hexponent]

/-- The characters that a numeral is made of. -/
def isNumeralChar (c : Char) : Bool :=
  c.isDigit || c == '.' || c == 'e' || c == '+' || c == '-'

theorem isNumeralChar_of_isDigit {c : Char} (h : c.isDigit = true) : isNumeralChar c = true := by
  rw [isNumeralChar, h]
  rfl

theorem isNumeralChar_fractionText {o : Option (List Char)} (h : ∀ fs ∈ o, AreDigits fs) :
    ∀ c ∈ fractionText o, isNumeralChar c = true := by
  intro c hc
  cases o with
  | none => nomatch hc
  | some fs =>
    rcases List.mem_cons.1 hc with rfl | hc
    · rfl
    · exact isNumeralChar_of_isDigit (h fs rfl c hc)

theorem isNumeralChar_exponentPart {o : Option ℤ} :
    ∀ c ∈ exponentPart o, isNumeralChar c = true := by
  intro c hc
  cases o with
  | none => nomatch hc
  | some e =>
    rw [exponentPart, exponentText] at hc
    rcases List.mem_cons.1 hc with rfl | hc
    · rfl
    · rcases List.mem_cons.1 hc with rfl | hc
      · split <;> rfl
      · exact isNumeralChar_of_isDigit
          (((areDigits_zeros _).append (areDigits_toDigits _)) c hc)

/-- A numeral begins with a digit. -/
theorem exists_text_eq_cons (n : Numeral) :
    ∃ c cs, n.text = c :: cs ∧ c.isDigit = true ∧ ∀ a ∈ cs, isNumeralChar a = true := by
  obtain ⟨c, cs, hwhole⟩ := List.exists_cons_of_ne_nil n.whole_ne_nil
  have hdigits := n.areDigits_whole
  rw [hwhole] at hdigits
  refine ⟨c, cs ++ (fractionText n.fraction ++ exponentPart n.exponent), ?_,
    hdigits c List.mem_cons_self, ?_⟩
  · rw [text, hwhole, List.cons_append]
  · intro a ha
    rcases List.mem_append.1 ha with ha | ha
    · exact isNumeralChar_of_isDigit (hdigits a (List.mem_cons_of_mem c ha))
    · rcases List.mem_append.1 ha with ha | ha
      · exact isNumeralChar_fractionText n.areDigits_fraction a ha
      · exact isNumeralChar_exponentPart a ha

/-! ## Numerals that are written -/

/-- A positional text is a numeral without an exponent. -/
theorem exists_text_eq_positional (d : Decimal) :
    ∃ n : Numeral, n.text = d.positional ∧ n.exponent = none ∧ n.fraction ≠ some [] ∧
      n.decimal.value = d.value := by
  rcases d with ⟨coefficient, k | k⟩
  · refine ⟨⟨Nat.toDigits 10 coefficient ++ List.replicate k '0', none, none,
      List.append_ne_nil_of_left_ne_nil Nat.toDigits_ne_nil _,
      (areDigits_toDigits coefficient).append (areDigits_zeros k), nofun, nofun⟩,
      List.append_nil _, rfl, nofun, ?_⟩
    simp only [decimal, Option.getD_none, List.append_nil, digitsValue, Nat.ofDigitChars_append,
      Nat.ofDigitChars_ten_toDigits, Nat.ofDigitChars_replicate_zero, Decimal.value,
      Int.ofNat_eq_natCast, zpow_natCast, List.length_nil, Nat.cast_zero, sub_zero, zpow_zero,
      mul_one]
    push_cast
    exact mul_comm _ _
  · set padded := List.replicate (k + 2 - (Nat.toDigits 10 coefficient).length) '0' ++
      Nat.toDigits 10 coefficient with hpadded
    have hdigits : AreDigits padded := (areDigits_zeros _).append (areDigits_toDigits coefficient)
    have hlength : k + 2 ≤ padded.length := by
      rw [hpadded, List.length_append, List.length_replicate]
      omega
    have hne : padded.take (padded.length - (k + 1)) ≠ [] := by
      apply List.ne_nil_of_length_pos
      rw [List.length_take]
      omega
    -- the places behind the point are as many as the exponent says
    have hplaces : (0 : ℤ) - (padded.drop (padded.length - (k + 1))).length = .negSucc k := by
      rw [List.length_drop]
      omega
    have hfraction : some (padded.drop (padded.length - (k + 1))) ≠ some [] := by
      intro hnil
      rw [Option.some.inj hnil, List.length_nil] at hplaces
      omega
    refine ⟨⟨padded.take (padded.length - (k + 1)), some (padded.drop (padded.length - (k + 1))),
      none, hne, fun c hc => hdigits c (List.mem_of_mem_take hc), ?_, nofun⟩, ?_, rfl, hfraction,
      ?_⟩
    · rintro fs ⟨⟩ c hc
      exact hdigits c (List.mem_of_mem_drop hc)
    · simp only [text, fractionText, exponentPart, List.append_nil, Decimal.positional]
      rfl
    · simp only [decimal, Option.getD_some, Option.getD_none, List.take_append_drop, hplaces]
      rw [hpadded, digitsValue_zeros_append]

/-- A scientific text is a numeral with an exponent. -/
theorem exists_text_eq_scientific {d : Decimal}
    (h : (d.exponent + d.digits.length - 1).natAbs < exponentBound) :
    ∃ n : Numeral, n.text = d.scientific ∧ n.exponent.isSome = true ∧ n.fraction ≠ some [] ∧
      n.decimal = d := by
  have hvalue := digitsValue_digits d
  have hdigits := areDigits_digits d
  simp only [scientific]
  rcases hd : d.digits with _ | ⟨c, cs⟩
  · exact absurd hd (digits_ne_nil d)
  · rw [hd] at h hvalue hdigits
    have hfirst : AreDigits [c] := fun a ha =>
      hdigits a (by rw [List.mem_singleton.1 ha]; exact List.mem_cons_self)
    rcases cs with _ | ⟨c', cs⟩
    · refine ⟨⟨[c], none, some (d.exponent + [c].length - 1), List.cons_ne_nil c [], hfirst, nofun,
        ?_⟩, rfl, rfl, nofun, ?_⟩
      · rintro e ⟨⟩
        exact h
      · simp [decimal, hvalue]
    · refine ⟨⟨[c], some (c' :: cs), some (d.exponent + (c :: c' :: cs).length - 1),
        List.cons_ne_nil c [], hfirst, ?_, ?_⟩, rfl, rfl, nofun, ?_⟩
      · rintro fs ⟨⟩ a ha
        exact hdigits a (List.mem_cons_of_mem c ha)
      · rintro e ⟨⟩
        exact h
      · have hplaces :
            d.exponent + (c :: c' :: cs).length - 1 - (c' :: cs).length = d.exponent := by
          rw [List.length_cons]
          omega
        simp only [decimal, Option.getD_some, List.singleton_append, hvalue, hplaces]

/-- A finite number is written as a numeral of its own pattern.  A point has digits behind it. -/
theorem exists_text_eq_unsigned {pattern : ℕ} (h : pattern < infinityPattern) :
    ∃ n : Numeral, n.text = NumberText.unsigned pattern ∧
      n.exponent.isSome = !NumberText.isPositional pattern ∧ n.fraction ≠ some [] ∧
      IsPattern n.decimal.value pattern := by
  have hchosen := Shortest.isPattern_decimal pattern
  rw [NumberText.unsigned]
  by_cases hzero : pattern = 0
  · subst hzero
    rw [if_pos rfl]
    refine ⟨⟨['0'], none, none, List.cons_ne_nil _ _, areDigits_zeros 1, nofun, nofun⟩, rfl, rfl,
      nofun, Or.inl ⟨?_, rfl⟩⟩
    simp [decimal, Decimal.value, digitsValue, Nat.ofDigitChars_cons, Nat.ofDigitChars_nil]
  · rw [if_neg hzero]
    cases hpositional : NumberText.isPositional pattern with
    | true =>
      obtain ⟨n, htext, hexponent, hfraction, hvalue⟩ :=
        exists_text_eq_positional (Shortest.decimal pattern)
      refine ⟨n, htext, ?_, hfraction, ?_⟩
      · rw [hexponent]
        rfl
      · rw [hvalue]
        exact hchosen
    | false =>
      have hbound := Decimal.natAbs_exponent_lt hchosen (Nat.pos_of_ne_zero hzero) h
      obtain ⟨n, htext, hexponent, hfraction, hdecimal⟩ := exists_text_eq_scientific hbound
      refine ⟨n, htext, hexponent, hfraction, ?_⟩
      rw [hdecimal]
      exact hchosen

theorem isInfinityWord_cons_of_isDigit {c : Char} (hc : c.isDigit = true) (cs : List Char) :
    isInfinityWord (c :: cs) = false := by
  have hupper : ¬ (c.val ≥ 'A'.val ∧ c.val ≤ 'Z'.val) := by
    simp only [Char.isDigit, Bool.and_eq_true, decide_eq_true_eq] at hc
    grind
  have hlower : c.toLower ≠ 'i' := by
    rw [Char.toLower, dif_neg hupper]
    rintro rfl
    nomatch hc
  simp [isInfinityWord, hlower]

theorem readNumber_text (n : Numeral) : readNumber n.text = n.decimal.toFloat? false := by
  obtain ⟨c, cs, htext, hc, -⟩ := n.exists_text_eq_cons
  have hread := n.read_text
  rw [htext] at hread ⊢
  rw [readNumber, hread]
  · rfl
  · rintro rest ⟨⟩
    nomatch hc

theorem isInfinityWord_text (n : Numeral) : isInfinityWord n.text = false := by
  obtain ⟨c, cs, htext, hc, -⟩ := n.exists_text_eq_cons
  rw [htext]
  exact isInfinityWord_cons_of_isDigit hc cs

theorem readNumber_neg_text (n : Numeral) :
    readNumber ('-' :: n.text) = n.decimal.toFloat? true := by
  rw [readNumber, n.isInfinityWord_text, if_neg Bool.false_ne_true, n.read_text]
  rfl

end Numeral

/-! ## Numbers -/

/-- The numbers that a word can write: the finite ones and negative infinity. -/
def IsWritable (x : Float) : Prop :=
  unsignedPattern x < infinityPattern ∨ x = ofPattern true infinityPattern

theorem unsignedPattern_lt_of_toFloat? {negative : Bool} {d : Decimal} {x : Float}
    (h : d.toFloat? negative = some x) : unsignedPattern x < infinityPattern := by
  obtain ⟨pattern, hlt, -, rfl⟩ := Decimal.toFloat?_eq_some_iff.1 h
  rw [unsignedPattern_ofPattern negative hlt.le]
  exact hlt

theorem isWritable_of_readNumber {w : List Char} {x : Float} (h : readNumber w = some x) :
    IsWritable x := by
  rw [readNumber.eq_def] at h
  split at h
  · split at h
    · exact Or.inr (Option.some.inj h).symm
    · obtain ⟨d, -, hd⟩ := Option.bind_eq_some_iff.1 h
      exact Or.inl (unsignedPattern_lt_of_toFloat? hd)
  · obtain ⟨d, -, hd⟩ := Option.bind_eq_some_iff.1 h
    exact Or.inl (unsignedPattern_lt_of_toFloat? hd)

theorem numberChars_of_finite {x : Float} (h : unsignedPattern x < infinityPattern) :
    numberChars x = if isNegative x then '-' :: NumberText.unsigned (unsignedPattern x)
      else NumberText.unsigned (unsignedPattern x) := by
  simp only [numberChars]
  rw [if_neg (not_lt.2 h.le), if_neg h.ne]

/-- How the numbers that have a word are written. -/
theorem numberChars_cases {x : Float} (h : IsWritable x) :
    (∃ n : Numeral, IsPattern n.decimal.value (unsignedPattern x) ∧
      unsignedPattern x < infinityPattern ∧
      numberChars x = if isNegative x then '-' :: n.text else n.text) ∨
    (x = ofPattern true infinityPattern ∧ numberChars x = ['-', 'I', 'n', 'f']) := by
  rcases h with hfinite | rfl
  · left
    obtain ⟨n, htext, -, -, hvalue⟩ := Numeral.exists_text_eq_unsigned hfinite
    refine ⟨n, hvalue, hfinite, ?_⟩
    rw [numberChars_of_finite hfinite, htext]
  · right
    refine ⟨rfl, ?_⟩
    simp only [numberChars]
    rw [unsignedPattern_ofPattern true le_rfl, isNegative_ofPattern true le_rfl,
      if_neg (lt_irrefl _), if_pos rfl]
    rfl

/-- **What is written is read back, bit for bit.** -/
theorem readNumber_numberChars {x : Float} (h : IsWritable x) :
    readNumber (numberChars x) = some x := by
  rcases numberChars_cases h with ⟨n, hvalue, hfinite, htext⟩ | ⟨rfl, htext⟩
  · have hread := Decimal.toFloat?_of_isPattern (isNegative x) hvalue hfinite
    rw [ofPattern_unsignedPattern hfinite.le] at hread
    rw [htext]
    cases hneg : isNegative x with
    | true =>
      rw [hneg] at hread
      exact n.readNumber_neg_text.trans hread
    | false =>
      rw [hneg] at hread
      exact n.readNumber_text.trans hread
  · rw [htext]
    rfl

/-- The least positive number needs one digit, and a zero keeps its sign. -/
example : numberChars (ofPattern false 1) = ['5', 'e', '-', '3', '2', '4'] ∧
    numberChars (ofPattern true 0) = ['-', '0'] := by
  decide +kernel

end PrefixCalc
