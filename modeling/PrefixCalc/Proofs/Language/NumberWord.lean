/-
  The words that are numbers.

  1. **Grammar** — a number word is an optional minus sign, digits with at most one point among them
     and an optional exponent (`NumberWord`).  The rules give the rational in front of the exponent
     and the exponent itself, with no bound on either.

  2. **Program** — `Decimal.read` cuts a word where the digits end, and `exponentValue` stops counting
     at a bound.  Below that bound the two agree (`exists_of_read` and `UnsignedWord.exists_read`).

  3. **Meaning** — the number is the one nearest to the rational (`IsRounded`), said of all numbers and
     not of the algorithm that finds it.

  4. **Words** (`ofWord_number`) — a word that begins like a number and is not the minus alone is a
     number word that is not too large, or negative infinity spelled out, or an error.
-/
import PrefixCalc.Proofs.Language.Spelling
import PrefixCalc.Proofs.Number.Nearest

namespace PrefixCalc

open Binary64

/-! ## Grammar -/

namespace Decimal

/-- At least one digit, and nothing else. -/
def IsNatural (ds : List Char) : Prop := ds ≠ [] ∧ AreDigits ds

/-- Digits with an optional sign. -/
inductive SignedNatural : List Char → ℤ → Prop
  | plain {ds : List Char} : IsNatural ds → SignedNatural ds (digitsValue ds)
  | plus {ds : List Char} : IsNatural ds → SignedNatural ('+' :: ds) (digitsValue ds)
  | minus {ds : List Char} : IsNatural ds → SignedNatural ('-' :: ds) (-digitsValue ds)

/-- The exponent part of a number word, with the exponent that it writes. -/
inductive ExponentPart : List Char → ℤ → Prop
  | absent : ExponentPart [] 0
  | marked {mark : Char} {w : List Char} {e : ℤ} : mark = 'e' ∨ mark = 'E' → SignedNatural w e →
      ExponentPart (mark :: w) e

/-- Digits with at most one point among them and at least one digit, with the rational that they
    write. -/
inductive Significand : List Char → ℚ → Prop
  | whole {ds : List Char} : IsNatural ds → Significand ds (digitsValue ds)
  | pointed {ds fs : List Char} : AreDigits ds → AreDigits fs → ds ++ fs ≠ [] →
      Significand (ds ++ '.' :: fs) (digitsValue ds + digitsValue fs / 10 ^ fs.length)

/-- A number word without its sign, with the rational in front of the exponent, and the exponent. -/
inductive UnsignedWord : List Char → ℚ → ℤ → Prop
  | intro {u v : List Char} {m : ℚ} {e : ℤ} : Significand u m → ExponentPart v e →
      UnsignedWord (u ++ v) m e

/-- A number word, with its sign, the rational in front of the exponent, and the exponent. -/
inductive NumberWord : List Char → Bool → ℚ → ℤ → Prop
  | unsigned {w : List Char} {m : ℚ} {e : ℤ} : UnsignedWord w m e → NumberWord w false m e
  | negative {w : List Char} {m : ℚ} {e : ℤ} : UnsignedWord w m e → NumberWord ('-' :: w) true m e

/-! ## Exponents -/

theorem isNatural_iff {ds : List Char} :
    IsNatural ds ↔ ¬ (ds.isEmpty || !ds.all Char.isDigit) = true := by
  rw [Bool.not_eq_true, Bool.or_eq_false_iff, List.isEmpty_eq_false_iff, Bool.not_eq_false',
    List.all_eq_true]
  exact Iff.rfl

/-- An exponent is read if its mark is one and only digits follow. -/
theorem read_digits_iff {mark : Char} {ds : List Char} {n e : ℤ} :
    (if mark = 'e' ∨ mark = 'E' then
      if (ds.isEmpty || !ds.all Char.isDigit) = true then none else some n
    else none) = some e ↔ (mark = 'e' ∨ mark = 'E') ∧ IsNatural ds ∧ n = e := by
  rw [Option.ite_none_right_eq_some, Option.ite_none_left_eq_some, Option.some.injEq,
    isNatural_iff]

theorem readExponent_minus_iff {mark : Char} {ds : List Char} {e : ℤ} :
    readExponent (mark :: '-' :: ds) = some e ↔
      (mark = 'e' ∨ mark = 'E') ∧ IsNatural ds ∧ -(exponentValue ds : ℤ) = e := by
  rw [readExponent]
  exact read_digits_iff

theorem readExponent_plus_iff {mark : Char} {ds : List Char} {e : ℤ} :
    readExponent (mark :: '+' :: ds) = some e ↔
      (mark = 'e' ∨ mark = 'E') ∧ IsNatural ds ∧ (exponentValue ds : ℤ) = e := by
  rw [readExponent]
  exact read_digits_iff

theorem readExponent_plain_iff {mark : Char} {ds : List Char} {e : ℤ}
    (hminus : ∀ cs, ds ≠ '-' :: cs) (hplus : ∀ cs, ds ≠ '+' :: cs) :
    readExponent (mark :: ds) = some e ↔
      (mark = 'e' ∨ mark = 'E') ∧ IsNatural ds ∧ (exponentValue ds : ℤ) = e := by
  rw [readExponent]
  · exact read_digits_iff
  · exact hminus
  · exact hplus

/-- What is read as an exponent is one, and below the bound it is the one that is written. -/
theorem exists_of_readExponent {v : List Char} {e' : ℤ} (h : readExponent v = some e') :
    ∃ e, ExponentPart v e ∧ (e.natAbs < exponentBound → e' = e) := by
  cases v with
  | nil => exact ⟨0, .absent, fun _ => (Option.some.inj h).symm⟩
  | cons mark w =>
    by_cases hminus : ∃ ds, w = '-' :: ds
    · obtain ⟨ds, rfl⟩ := hminus
      obtain ⟨hmark, hds, rfl⟩ := readExponent_minus_iff.1 h
      refine ⟨_, .marked hmark (.minus hds), fun hbound => ?_⟩
      rw [exponentValue_eq (by simpa using hbound)]
    · by_cases hplus : ∃ ds, w = '+' :: ds
      · obtain ⟨ds, rfl⟩ := hplus
        obtain ⟨hmark, hds, rfl⟩ := readExponent_plus_iff.1 h
        refine ⟨_, .marked hmark (.plus hds), fun hbound => ?_⟩
        rw [exponentValue_eq (by simpa using hbound)]
      · obtain ⟨hmark, hds, rfl⟩ := (readExponent_plain_iff (fun ds h => hminus ⟨ds, h⟩)
          fun ds h => hplus ⟨ds, h⟩).1 h
        refine ⟨_, .marked hmark (.plain hds), fun hbound => ?_⟩
        rw [exponentValue_eq (by simpa using hbound)]

theorem IsNatural.ne_cons {ds : List Char} (h : IsNatural ds) {c : Char} (hc : c.isDigit = false)
    (cs : List Char) : ds ≠ c :: cs := by
  rintro rfl
  have hdigit := h.2 c List.mem_cons_self
  rw [hc] at hdigit
  cases hdigit

/-- Below the bound an exponent is read as it is written. -/
theorem ExponentPart.readExponent_eq {v : List Char} {e : ℤ} (h : ExponentPart v e)
    (hbound : e.natAbs < exponentBound) : readExponent v = some e := by
  cases h with
  | absent => rfl
  | marked hmark hsigned =>
    cases hsigned with
    | plain hds =>
      refine (readExponent_plain_iff (hds.ne_cons rfl) (hds.ne_cons rfl)).2 ⟨hmark, hds, ?_⟩
      rw [exponentValue_eq (by simpa using hbound)]
    | plus hds =>
      refine readExponent_plus_iff.2 ⟨hmark, hds, ?_⟩
      rw [exponentValue_eq (by simpa using hbound)]
    | minus hds =>
      refine readExponent_minus_iff.2 ⟨hmark, hds, ?_⟩
      rw [exponentValue_eq (by simpa using hbound)]

/-! ## Significands -/

theorem digitsValue_append (ds fs : List Char) :
    digitsValue (ds ++ fs) = 10 ^ fs.length * digitsValue ds + digitsValue fs := by
  rw [digitsValue, Nat.ofDigitChars_append, Nat.ofDigitChars_eq_ofDigitChars_zero]
  rfl

/-- A point shifts the digits behind it. -/
theorem value_pointed (ds fs : List Char) (e : ℤ) :
    (⟨digitsValue (ds ++ fs), e - fs.length⟩ : Decimal).value =
      (digitsValue ds + digitsValue fs / 10 ^ fs.length) * 10 ^ e := by
  have hpow : (10 : ℚ) ^ fs.length ≠ 0 := by positivity
  rw [value, digitsValue_append, zpow_sub₀ (by norm_num), zpow_natCast]
  push_cast
  field_simp

theorem read_pointed_iff {ds r : List Char} {d : Decimal} (hds : AreDigits ds) :
    Decimal.read (ds ++ '.' :: r) = some d ↔ ds ++ r.takeWhile Char.isDigit ≠ [] ∧
      ∃ e, readExponent (r.dropWhile Char.isDigit) = some e ∧
        ⟨digitsValue (ds ++ r.takeWhile Char.isDigit),
          e - (r.takeWhile Char.isDigit).length⟩ = d := by
  have hpoint : ∀ c ∈ ('.' :: r).head?, c.isDigit = false := by simp
  obtain ⟨htake, hdrop⟩ := takeWhile_digits hds hpoint
  rw [Decimal.read, htake, hdrop]
  dsimp only
  rw [Option.ite_none_left_eq_some, Option.map_eq_some_iff]
  simp

theorem read_whole_iff {ds v : List Char} {d : Decimal} (hds : AreDigits ds)
    (hv : ∀ c ∈ v.head?, c.isDigit = false ∧ c ≠ '.') :
    Decimal.read (ds ++ v) = some d ↔ ds ≠ [] ∧
      ∃ e, readExponent v = some e ∧ ⟨digitsValue ds, e⟩ = d := by
  obtain ⟨htake, hdrop⟩ := takeWhile_digits hds fun c hc => (hv c hc).1
  rw [Decimal.read, htake, hdrop]
  split
  next fraction rest hparts =>
    obtain ⟨rfl, rfl⟩ : [] = fraction ∧ v = rest := by
      split at hparts
      · exact absurd rfl (hv '.' rfl).2
      · exact Prod.mk.inj hparts
    rw [Option.ite_none_left_eq_some, Option.map_eq_some_iff]
    simp

/-- What is read is a number word, and below the bound of the exponent its value is the one that is
    written. -/
theorem exists_of_read {w : List Char} {d : Decimal} (h : Decimal.read w = some d) :
    ∃ m e, UnsignedWord w m e ∧ (e.natAbs < exponentBound → d.value = m * 10 ^ e) := by
  have hwhole : AreDigits (w.takeWhile Char.isDigit) := fun c hc => List.mem_takeWhile_imp hc
  have hrest := List.head?_dropWhile_not Char.isDigit w
  rw [← List.takeWhile_append_dropWhile (p := Char.isDigit) (l := w)] at h ⊢
  generalize w.takeWhile Char.isDigit = whole at *
  generalize w.dropWhile Char.isDigit = rest at *
  by_cases hpoint : ∃ r, rest = '.' :: r
  · obtain ⟨r, rfl⟩ := hpoint
    obtain ⟨hne, e', hread, rfl⟩ := (read_pointed_iff hwhole).1 h
    obtain ⟨e, he, hvalue⟩ := exists_of_readExponent hread
    have hfraction : AreDigits (r.takeWhile Char.isDigit) := fun c hc => List.mem_takeWhile_imp hc
    have hword := UnsignedWord.intro (.pointed hwhole hfraction hne) he
    rw [List.append_assoc, List.cons_append, List.takeWhile_append_dropWhile] at hword
    refine ⟨_, e, hword, fun hbound => ?_⟩
    rw [hvalue hbound, value_pointed]
  · have hhead : ∀ c ∈ rest.head?, c.isDigit = false ∧ c ≠ '.' := by
      intro c hc
      obtain ⟨r, rfl⟩ := List.head?_eq_some_iff.1 hc
      refine ⟨hrest, ?_⟩
      rintro rfl
      exact hpoint ⟨r, rfl⟩
    obtain ⟨hne, e', hread, rfl⟩ := (read_whole_iff hwhole hhead).1 h
    obtain ⟨e, he, hvalue⟩ := exists_of_readExponent hread
    refine ⟨_, e, .intro (.whole ⟨hne, hwhole⟩) he, fun hbound => ?_⟩
    rw [hvalue hbound]
    rfl

theorem ExponentPart.head_eq {v : List Char} {e : ℤ} (h : ExponentPart v e) :
    ∀ c ∈ v.head?, c.isDigit = false ∧ c ≠ '.' := by
  intro c hc
  cases h with
  | absent => cases hc
  | marked hmark _ =>
    obtain rfl := Option.some.inj hc
    rcases hmark with rfl | rfl
    · decide
    · decide

/-- Below the bound of the exponent a number word is read, with the value that is written. -/
theorem UnsignedWord.exists_read {w : List Char} {m : ℚ} {e : ℤ} (h : UnsignedWord w m e)
    (hbound : e.natAbs < exponentBound) :
    ∃ d, Decimal.read w = some d ∧ d.value = m * 10 ^ e := by
  obtain @⟨u, v, m, e, hu, hv⟩ := h
  have hread := hv.readExponent_eq hbound
  cases hu with
  | whole hds =>
    exact ⟨_, (read_whole_iff hds.2 hv.head_eq).2 ⟨hds.1, e, hread, rfl⟩, rfl⟩
  | @pointed ds fs hds hfs hne =>
    obtain ⟨htake, hdrop⟩ := takeWhile_digits hfs fun c hc => (hv.head_eq c hc).1
    refine ⟨⟨digitsValue (ds ++ fs), e - fs.length⟩, ?_, value_pointed ds fs e⟩
    rw [List.append_assoc, List.cons_append, read_pointed_iff hds, htake, hdrop]
    exact ⟨hne, e, hread, rfl⟩

theorem UnsignedWord.nonneg {w : List Char} {m : ℚ} {e : ℤ} (h : UnsignedWord w m e) :
    0 ≤ m * 10 ^ e := by
  obtain ⟨hm, -⟩ := h
  cases hm with
  | whole _ => positivity
  | pointed _ _ _ => positivity

theorem UnsignedWord.exists_eq_cons {w : List Char} {m : ℚ} {e : ℤ} (h : UnsignedWord w m e) :
    ∃ c cs, w = c :: cs ∧ (c.isDigit = true ∨ c = '.') := by
  obtain ⟨hm, -⟩ := h
  cases hm with
  | @whole ds hds =>
    obtain ⟨c, cs, rfl⟩ := List.exists_cons_of_ne_nil hds.1
    exact ⟨c, _, rfl, Or.inl (hds.2 c List.mem_cons_self)⟩
  | @pointed ds fs hds hfs hne =>
    cases ds with
    | nil => exact ⟨'.', _, rfl, Or.inr rfl⟩
    | cons c cs => exact ⟨c, _, rfl, Or.inl (hds c List.mem_cons_self)⟩

/-! ## Numbers -/

theorem toFloat?_eq_some_iff_isRounded {negative : Bool} {d : Decimal} {x : Float} :
    d.toFloat? negative = some x ↔ IsRounded negative d.value x := by
  have hnonneg : 0 ≤ d.value := by
    rw [value]
    positivity
  simp only [toFloat?_eq_some_iff, IsRounded, isPattern_iff_isRounding hnonneg]

/-- Without its sign a word is read as the number nearest to what it writes. -/
theorem read_bind_toFloat?_iff {w : List Char} {negative : Bool} {x : Float}
    (hbound : ∀ m e, UnsignedWord w m e → e.natAbs < exponentBound) :
    (Decimal.read w).bind (toFloat? negative) = some x ↔
      ∃ m e, UnsignedWord w m e ∧ IsRounded negative (m * 10 ^ e) x := by
  rw [Option.bind_eq_some_iff]
  constructor
  · rintro ⟨d, hd, hx⟩
    obtain ⟨m, e, hw, hvalue⟩ := exists_of_read hd
    rw [toFloat?_eq_some_iff_isRounded, hvalue (hbound m e hw)] at hx
    exact ⟨m, e, hw, hx⟩
  · rintro ⟨m, e, hw, hx⟩
    obtain ⟨d, hd, hvalue⟩ := hw.exists_read (hbound m e hw)
    rw [← hvalue] at hx
    exact ⟨d, hd, toFloat?_eq_some_iff_isRounded.2 hx⟩

/-- Behind a minus sign stands the rest of the word. -/
theorem numberWord_minus_iff {w : List Char} {negative : Bool} {m : ℚ} {e : ℤ} :
    NumberWord ('-' :: w) negative m e ↔ negative = true ∧ UnsignedWord w m e := by
  constructor
  · intro h
    cases h with
    | negative h => exact ⟨rfl, h⟩
    | unsigned h =>
      obtain ⟨c, cs, hw, hc⟩ := h.exists_eq_cons
      obtain ⟨rfl, -⟩ := List.cons.inj hw
      rcases hc with hc | hc
      · cases hc
      · cases hc
  · rintro ⟨rfl, h⟩
    exact .negative h

theorem numberWord_iff_of_ne {w : List Char} (hminus : ∀ rest, w ≠ '-' :: rest) {negative : Bool}
    {m : ℚ} {e : ℤ} : NumberWord w negative m e ↔ negative = false ∧ UnsignedWord w m e := by
  constructor
  · intro h
    cases h with
    | negative h => exact absurd rfl (hminus _)
    | unsigned h => exact ⟨rfl, h⟩
  · rintro ⟨rfl, h⟩
    exact .unsigned h

/-- Without a mark no exponent is written. -/
theorem NumberWord.exponent_eq_zero {w : List Char} {negative : Bool} {m : ℚ} {e : ℤ}
    (h : NumberWord w negative m e) (hmark : ∀ c ∈ w, c ≠ 'e' ∧ c ≠ 'E') : e = 0 := by
  have hunsigned (w' : List Char) (hw' : ∀ c ∈ w', c ∈ w) (h : UnsignedWord w' m e) : e = 0 := by
    obtain ⟨-, hv⟩ := h
    cases hv with
    | absent => rfl
    | @marked mark v e hm _ =>
      obtain ⟨he, hE⟩ := hmark mark (hw' mark (List.mem_append_right _ List.mem_cons_self))
      exact absurd hm (not_or.2 ⟨he, hE⟩)
  cases h with
  | unsigned h => exact hunsigned w (fun c hc => hc) h
  | negative h => exact hunsigned _ (fun c hc => List.mem_cons_of_mem _ hc) h

end Decimal

open Decimal

theorem isInfinityWord_iff {w : List Char} : isInfinityWord w = true ↔
    w.map Char.toLower = ['i', 'n', 'f'] ∨
      w.map Char.toLower = ['i', 'n', 'f', 'i', 'n', 'i', 't', 'y'] := by
  simp [isInfinityWord]

/-- Infinity is not spelled like a number. -/
theorem Decimal.UnsignedWord.isInfinityWord_eq_false {w : List Char} {m : ℚ} {e : ℤ}
    (h : UnsignedWord w m e) : isInfinityWord w = false := by
  obtain ⟨c, cs, rfl, hc | rfl⟩ := h.exists_eq_cons
  · exact Numeral.isInfinityWord_cons_of_isDigit hc cs
  · rfl

/-- A word is read as the number nearest to what it writes, or as negative infinity. -/
theorem readNumber_eq_some_iff {w : List Char} {x : Float}
    (hbound : ∀ negative m e, NumberWord w negative m e → e.natAbs < exponentBound) :
    readNumber w = some x ↔
      (∃ negative m e, NumberWord w negative m e ∧ IsRounded negative (m * 10 ^ e) x) ∨
      ∃ rest, w = '-' :: rest ∧ isInfinityWord rest = true ∧
        x = ofPattern true infinityPattern := by
  by_cases hminus : ∃ rest, w = '-' :: rest
  · obtain ⟨rest, rfl⟩ := hminus
    rw [readNumber]
    cases hinfinity : isInfinityWord rest with
    | true =>
      rw [if_pos rfl]
      constructor
      · intro h
        exact Or.inr ⟨rest, rfl, hinfinity, (Option.some.inj h).symm⟩
      · rintro (⟨negative, m, e, h, -⟩ | ⟨_, -, -, rfl⟩)
        · have hfalse := (numberWord_minus_iff.1 h).2.isInfinityWord_eq_false
          rw [hinfinity] at hfalse
          cases hfalse
        · rfl
    | false =>
      have hbound' (m : ℚ) (e : ℤ) (h : UnsignedWord rest m e) : e.natAbs < exponentBound :=
        hbound true m e (.negative h)
      rw [if_neg Bool.false_ne_true, read_bind_toFloat?_iff hbound']
      simp [numberWord_minus_iff, hinfinity]
  · have hminus' (rest : List Char) : w ≠ '-' :: rest := fun h => hminus ⟨rest, h⟩
    have hbound' (m : ℚ) (e : ℤ) (h : UnsignedWord w m e) : e.natAbs < exponentBound :=
      hbound false m e (.unsigned h)
    rw [readNumber, read_bind_toFloat?_iff hbound']
    · simp [numberWord_iff_of_ne hminus', hminus']
    · exact hminus'

/-! ## Words -/

/-- No operator begins like a number, unless it is the minus alone. -/
theorem Operator.begins_of_symbol {op : Operator} (h : op ∈ Operator.all) {first : Char}
    {rest : List Char} (hsymbol : op.symbol.toList = first :: rest) :
    first.isDigit = false ∧ (first = '-' → rest = []) := by
  simp only [Operator.all, List.mem_cons, List.not_mem_nil, or_false] at h
  rcases h with rfl | rfl | rfl | rfl | rfl | rfl | rfl | rfl | rfl | rfl
  all_goals
    obtain ⟨rfl, rfl⟩ := List.cons.inj hsymbol
    decide

/-- A word that begins like a number and is not the minus alone is a number or an error. -/
theorem ofWord_eq_readNumber {first : Char} {rest : List Char}
    (hfirst : first.isDigit = true ∨ first = '-' ∧ rest ≠ []) :
    Token.ofWord first rest =
      match readNumber (first :: rest) with
      | some x => .ok (.literal x)
      | none => .error (.invalidNumber (String.ofList (first :: rest))) := by
  have hsymbol : Operator.ofSymbol? (String.ofList (first :: rest)) = none := by
    refine List.find?_eq_none.2 fun op hop heq => ?_
    have hlist : op.symbol.toList = first :: rest := by
      rw [eq_of_beq heq, String.toList_ofList]
    obtain ⟨hdigit, hminus⟩ := Operator.begins_of_symbol hop hlist
    rcases hfirst with hfirst | ⟨hfirst, hrest⟩
    · rw [hdigit] at hfirst
      cases hfirst
    · exact hrest (hminus hfirst)
  have hnumber : (first.isDigit || first == '-') = true := by
    rcases hfirst with hfirst | ⟨rfl, -⟩
    · rw [hfirst]
      rfl
    · rfl
  cases hread : readNumber (first :: rest) with
  | none => simp only [Token.ofWord, hsymbol, hnumber, hread, if_true]
  | some x => simp only [Token.ofWord, hsymbol, hnumber, hread, if_true]

/-- **Number words.**  A word that begins with a digit or a minus sign, and is not the minus alone, is
    a literal exactly if it is a number word of which the rational that it writes is not too large,
    and then the literal is the number nearest to it, a half going to the even neighbour, a zero
    keeping its sign, or if it is a minus sign and infinity spelled out in letters of either case.
    Too large is what lies from the middle between the largest number and `2^1024` on.  Every other
    such word is an error that names it.  Exponents are taken to be below the bound. -/
theorem ofWord_number {first : Char} {rest : List Char}
    (hfirst : first.isDigit = true ∨ first = '-' ∧ rest ≠ [])
    (hbound : ∀ negative m e, NumberWord (first :: rest) negative m e → e.natAbs < 10000) :
    (∀ x, Token.ofWord first rest = .ok (.literal x) ↔
      (∃ negative m e, NumberWord (first :: rest) negative m e ∧
        IsRounded negative (m * 10 ^ e) x) ∨
      first = '-' ∧ (rest.map Char.toLower = ['i', 'n', 'f'] ∨
        rest.map Char.toLower = ['i', 'n', 'f', 'i', 'n', 'i', 't', 'y']) ∧
        x = ofPattern true infinityPattern) ∧
    (∀ negative m e, NumberWord (first :: rest) negative m e →
      ((∃ x, IsRounded negative (m * 10 ^ e) x) ↔ m * 10 ^ e < overflowThreshold)) ∧
    ((∀ x, Token.ofWord first rest ≠ .ok (.literal x)) →
      ∃ err, Token.ofWord first rest = .error err ∧ err.kind = .lexical ∧
        err.message = "Invalid number '" ++ String.ofList (first :: rest) ++ "'") := by
  have hword := ofWord_eq_readNumber hfirst
  refine ⟨fun x => ?_, ?_, ?_⟩
  · have hread : Token.ofWord first rest = .ok (.literal x) ↔
        readNumber (first :: rest) = some x := by
      rw [hword]
      cases readNumber (first :: rest) with
      | none => simp
      | some y => simp
    rw [hread, readNumber_eq_some_iff hbound]
    simp only [List.cons.injEq, ← isInfinityWord_iff]
    refine or_congr_right ⟨?_, ?_⟩
    · rintro ⟨_, ⟨rfl, rfl⟩, h⟩
      exact ⟨rfl, h⟩
    · rintro ⟨rfl, h⟩
      exact ⟨rest, ⟨rfl, rfl⟩, h⟩
  · intro negative m e h
    refine exists_isRounded_iff ?_
    cases h with
    | unsigned h => exact h.nonneg
    | negative h => exact h.nonneg
  · intro hnone
    cases hread : readNumber (first :: rest) with
    | some x =>
      rw [hread] at hword
      exact absurd hword (hnone x)
    | none =>
      rw [hread] at hword
      exact ⟨_, hword, rfl, rfl⟩

example : Token.ofWord '-' ['.', '5', 'e', '+', '0', '1'] = .ok (.literal (-5)) := rfl

-- digits may not be grouped, as they may be in program texts
example : Token.ofWord '1' ['_', '0'] = .error (.invalidNumber "1_0") := rfl

/-- `2^53 + 1` lies in the middle between two numbers, of which the lower has the even pattern. -/
theorem Binary64.isRounding_of_tie : IsRounding (2 ^ 53 + 1) 0x4340000000000000 := by
  have hpattern : 0x4340000000000000 = 1075 * 2 ^ fractionBits + 2 ^ 52 := by decide
  have hexponent : leastExponent + (1075 : ℕ) = 1 := by decide
  have hlow : patternValue 0x4340000000000000 = 2 ^ 53 := by
    rw [hpattern, patternValue_eq (by decide) (by decide), hexponent]
    norm_num
  have hhigh : patternValue (0x4340000000000000 + 1) = 2 ^ 53 + 2 := by
    rw [hpattern, add_assoc, patternValue_eq (by decide) (by decide), hexponent]
    norm_num
  refine isRounding_lower ?_ ?_ (Or.inr ⟨?_, by decide⟩)
  · rw [hlow]
    norm_num
  · rw [hhigh]
    norm_num
  · rw [hlow, hhigh]
    norm_num

/-- The least natural that is no number, in the middle between two: the even one is taken. -/
theorem ofWord_number_of_tie :
    let rest := ['0', '0', '7', '1', '9', '9', '2', '5', '4', '7', '4', '0', '9', '9', '3']
    ('9'.isDigit = true ∨ '9' = '-' ∧ rest ≠ []) ∧
    (∀ negative m e, NumberWord ('9' :: rest) negative m e → e.natAbs < 10000) ∧
    Token.ofWord '9' rest = .ok (.literal (ofPattern false 0x4340000000000000)) := by
  intro rest
  have hfirst : '9'.isDigit = true ∨ '9' = '-' ∧ rest ≠ [] := Or.inl rfl
  have hdigits : AreDigits ('9' :: rest) := List.all_eq_true.1 rfl
  have hmark (c : Char) (hc : c ∈ '9' :: rest) : c ≠ 'e' ∧ c ≠ 'E' := by
    have hdigit := hdigits c hc
    constructor
    · rintro rfl
      cases hdigit
    · rintro rfl
      cases hdigit
  have hbound (negative : Bool) (m : ℚ) (e : ℤ) (h : NumberWord ('9' :: rest) negative m e) :
      e.natAbs < 10000 := by
    rw [h.exponent_eq_zero hmark]
    decide
  have hword : NumberWord ('9' :: rest) false (digitsValue ('9' :: rest)) 0 := by
    have h := UnsignedWord.intro (.whole ⟨List.cons_ne_nil _ _, hdigits⟩) .absent
    rw [List.append_nil] at h
    exact .unsigned h
  have hvalue : digitsValue ('9' :: rest) = 2 ^ 53 + 1 := rfl
  have hround : IsRounding ((digitsValue ('9' :: rest) : ℚ) * 10 ^ (0 : ℤ)) 0x4340000000000000 := by
    rw [zpow_zero, mul_one, hvalue]
    exact_mod_cast isRounding_of_tie
  exact ⟨hfirst, hbound, ((ofWord_number hfirst hbound).1 _).2
    (Or.inl ⟨false, _, 0, hword, _, by decide, hround, rfl⟩)⟩

end PrefixCalc
