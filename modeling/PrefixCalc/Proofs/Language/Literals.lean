/-
  Numbers among the words of a line.

  1. **From a number to its word** (`ofWord_numberText`) — the text of a number is a single word, and
     the word stands for the number again, bit for bit.  Whether it has an exponent is decided by
     comparing the number with two limits.

  2. **From a word to its number** — each token belongs to a lexeme of the line
     (`scan_eq_ok_iff_forall₂`).  Where the token is a literal, the lexeme is a word, and it is spelled
     like a number and finite, or it is a minus sign with infinity spelled out
     (`Lexeme.literal_cases`).

  3. **From a line to its tree** (`scan_plain_iff`) — every number in a tree is a literal of the line
     that the tree was read from (`Form.Line.literal_mem`).  So as long as no word spells out infinity,
     all numbers of a tree are finite.  One that does is read without complaint
     (`scan_spells_out_infinity`).
-/
import PrefixCalc.Proofs.Language.NumberWord
import PrefixCalc.Proofs.Language.RoundTrip
import PrefixCalc.Proofs.Number.Order

namespace PrefixCalc

open Binary64 Decimal

/-! ## The word of a number -/

/-- The exponent is left out exactly where the number is zero or between the limits. -/
theorem exists_numberChars_eq {x : Float} (h : x.isFinite = true) :
    ∃ n : Numeral, numberChars x = (if isNegative x then '-' :: n.text else n.text) ∧
      n.fraction ≠ some [] ∧
      (n.exponent = none ↔ (x == 0) = true ∨ 1e-6 ≤ x.abs ∧ x.abs < 1e21) := by
  have hfinite := isFinite_iff.1 h
  obtain ⟨n, htext, hexponent, hfraction, -⟩ := Numeral.exists_text_eq_unsigned hfinite
  refine ⟨n, ?_, hfraction, ?_⟩
  · rw [numberChars_of_finite hfinite, htext]
  · rw [← isPositional_iff h, ← Option.not_isSome_iff_eq_none, hexponent]
    simp

/-- **Numbers read back.**  The text of a finite number or of negative infinity is one word, and as a
    word it is the literal with all the bits of the number, the sign of a zero among them.  The text
    of a finite number is a minus sign if the number has one, digits, perhaps a point and further
    digits, and an exponent unless the number is zero or its absolute value is at least `1e-6` and
    below `1e21`. -/
theorem ofWord_numberText {x : Float}
    (hx : x.isFinite = true ∨ x = ofPattern true infinityPattern) :
    (∃ first rest, (numberText x).toList = first :: rest ∧ IsRun (first :: rest) ∧
      Token.ofWord first rest = .ok (.literal x)) ∧
    (x.isFinite = true → ∃ n : Numeral,
      (numberText x).toList = (if isNegative x then '-' :: n.text else n.text) ∧
      n.fraction ≠ some [] ∧
      (n.exponent = none ↔ (x == 0) = true ∨ 1e-6 ≤ x.abs ∧ x.abs < 1e21)) := by
  have hwritable : IsWritable x := hx.imp_left isFinite_iff.1
  rw [numberText, String.toList_ofList]
  refine ⟨?_, exists_numberChars_eq⟩
  obtain ⟨first, rest, htext, hrun, hfirst⟩ := numberChars_eq_cons hwritable
  exact ⟨first, rest, htext, hrun, ofWord_numberChars hwritable htext hfirst⟩

/-- Around one millionth: the number itself is written positionally, and the next one towards zero
    with an exponent, here with a sign. -/
theorem ofWord_numberText_at_millionth :
    let x := ofPattern true (NumberText.leastPositional - 1)
    ((1e-6 : Float).isFinite = true ∧
      ∃ n : Numeral, (numberText 1e-6).toList = n.text ∧ n.exponent = none) ∧
    x.isFinite = true ∧ (∃ first rest, (numberText x).toList = first :: rest ∧
      IsRun (first :: rest) ∧ Token.ofWord first rest = .ok (.literal x)) ∧
      ∃ n : Numeral, (numberText x).toList = '-' :: n.text ∧ n.exponent ≠ none := by
  intro x
  have hmillionth : (1e-6 : Float).isFinite = true := rfl
  have hx : (ofPattern true (NumberText.leastPositional - 1)).isFinite = true := rfl
  obtain ⟨n, htext, -, hexponent⟩ := (ofWord_numberText (Or.inl hmillionth)).2 hmillionth
  obtain ⟨hword, hform⟩ := ofWord_numberText (Or.inl hx)
  obtain ⟨m, htext', -, hexponent'⟩ := hform hx
  refine ⟨⟨hmillionth, n, htext, hexponent.2 (Or.inr ?_)⟩, hx, hword, m, htext', ?_⟩
  · exact ⟨rfl, rfl⟩
  · intro hnone
    rcases hexponent'.1 hnone with hzero | ⟨hlow, -⟩
    · exact absurd hzero (by decide)
    · exact absurd hlow (by decide)

/-! ## The number of a word -/

/-- The lexeme is a word that is spelled like a number. -/
def Lexeme.IsNumber : Lexeme → Prop
  | .word first rest => ∃ negative m e, NumberWord (first :: rest) negative m e
  | _ => False

/-- The lexeme is a minus sign with infinity spelled out behind it. -/
def Lexeme.IsInfinity : Lexeme → Prop
  | .word first rest => first = '-' ∧ isInfinityWord rest = true
  | _ => False

/-- What can be read, whatever its exponent is, is spelled like a number and finite, or it is
    infinity spelled out. -/
theorem readNumber_cases {first : Char} {rest : List Char} {x : Float}
    (h : readNumber (first :: rest) = some x) :
    (Lexeme.word first rest).IsNumber ∧ x.isFinite = true ∨
    (Lexeme.word first rest).IsInfinity ∧ x = ofPattern true infinityPattern := by
  by_cases hminus : first = '-'
  · subst hminus
    rw [readNumber] at h
    split at h
    · next hinfinity => exact Or.inr ⟨⟨rfl, hinfinity⟩, (Option.some.inj h).symm⟩
    · obtain ⟨d, hread, hd⟩ := Option.bind_eq_some_iff.1 h
      obtain ⟨m, e, hword, -⟩ := exists_of_read hread
      exact Or.inl ⟨⟨true, m, e, .negative hword⟩, isFinite_iff.2 (unsignedPattern_lt_of_toFloat? hd)⟩
  · rw [readNumber] at h
    · obtain ⟨d, hread, hd⟩ := Option.bind_eq_some_iff.1 h
      obtain ⟨m, e, hword, -⟩ := exists_of_read hread
      exact Or.inl ⟨⟨false, m, e, .unsigned hword⟩, isFinite_iff.2 (unsignedPattern_lt_of_toFloat? hd)⟩
    · intro rest' heq
      exact hminus (List.cons.inj heq).1

/-- Only a word of digits gives a literal. -/
theorem readNumber_of_ofWord {first : Char} {rest : List Char} {x : Float}
    (h : Token.ofWord first rest = .ok (.literal x)) : readNumber (first :: rest) = some x := by
  simp only [Token.ofWord] at h
  split at h
  · injection h with h
    cases h
  · split at h
    · split at h
      · next y hy =>
        injection h with h
        injection h with h
        rw [hy, h]
      · cases h
    · split at h
      · split at h
        · injection h with h
          cases h
        · injection h with h
          cases h
      · cases h

theorem Lexeme.literal_cases {l : Lexeme} {x : Float} (h : l.token = .ok (.literal x)) :
    l.IsNumber ∧ x.isFinite = true ∨ l.IsInfinity ∧ x = ofPattern true infinityPattern := by
  cases l with
  | openPar =>
    injection h with h
    cases h
  | closePar =>
    injection h with h
    cases h
  | word first rest => exact readNumber_cases (readNumber_of_ofWord h)

/-- Infinity spelled out is a literal. -/
theorem Lexeme.IsInfinity.token_eq {l : Lexeme} (h : l.IsInfinity) :
    l.token = .ok (.literal (ofPattern true infinityPattern)) := by
  cases l with
  | openPar => exact h.elim
  | closePar => exact h.elim
  | word first rest =>
    obtain ⟨rfl, hinfinity⟩ := h
    have hrest : rest ≠ [] := by
      rintro rfl
      cases hinfinity
    have hread : readNumber ('-' :: rest) = some (ofPattern true infinityPattern) := by
      rw [readNumber, if_pos hinfinity]
    show Token.ofWord '-' rest = _
    rw [ofWord_eq_readNumber (Or.inr ⟨rfl, hrest⟩), hread]

/-- Every token stands for the lexeme in its place. -/
theorem scan_eq_ok_iff_forall₂ {line : Bytes} {ts : List Token} :
    Token.scan line = .ok ts ↔
      List.Forall₂ (fun l t => l.token = .ok t) (lexemes (Utf8.decode line)) ts := by
  rw [scan_eq, mapM_eq_ok_iff, ← List.forall₂_eq_eq_eq, List.forall₂_map_left_iff,
    List.forall₂_map_right_iff]

/-! ## The numbers of a tree -/

/-- The number stands somewhere in the expression. -/
inductive Expr.Holds (x : Float) : Expr → Prop
  | number : Holds x (.number x)
  | call {head : Head} {args : List Expr} {e : Expr} : e ∈ args → Holds x e →
      Holds x (.call head args)

/-- The number stands somewhere in the form. -/
def Form.Holds (x : Float) : Form → Prop
  | .expression e => e.Holds x
  | .statement s => s.value.Holds x
  | _ => False

/-- A number inside arguments was a literal among their tokens. -/
theorem Expr.Arguments.literal_mem {ts : List Token} {es : List Expr} (h : Expr.Arguments ts es)
    {e : Expr} (he : e ∈ es) {x : Float} (hx : e.Holds x) : .literal x ∈ ts := by
  -- along the derivation: the number stands in the first argument or in one of the others
  induction h generalizing e with
  | nil => cases he
  | literal y _ ih =>
    rcases List.mem_cons.1 he with rfl | he
    · cases hx
      exact List.mem_cons_self
    · exact List.mem_cons_of_mem _ (ih he hx)
  | name n _ ih =>
    rcases List.mem_cons.1 he with rfl | he
    · cases hx
    · exact List.mem_cons_of_mem _ (ih he hx)
  | call _ _ _ ihargs ihrest =>
    rcases List.mem_cons.1 he with rfl | he
    · cases hx with
      | call harg hx =>
        have hmem := ihargs harg hx
        simp [hmem]
    · have hmem := ihrest he hx
      simp [hmem]

/-- What can be assigned can also stand as an argument, so the same holds of it. -/
theorem Expr.Value.literal_mem {ts : List Token} {e : Expr} (h : Expr.Value ts e) {x : Float}
    (hx : e.Holds x) : .literal x ∈ ts := by
  have hargs : Expr.Arguments ts [e] := by
    cases h with
    | literal y => exact .literal y .nil
    | call hcall =>
      rw [← List.append_nil ts]
      exact hcall.arguments_append .nil
  exact hargs.literal_mem List.mem_cons_self hx

/-- A number in a tree was a literal of its line. -/
theorem Form.Line.literal_mem {ts : List Token} {form : Form} (h : Form.Line ts form) {x : Float}
    (hx : form.Holds x) : .literal x ∈ ts := by
  cases h with
  | call hcall => exact (Expr.Value.call hcall).literal_mem hx
  | assign n hvalue =>
    have hmem := hvalue.literal_mem hx
    simp [hmem]

/-! ## Plain lines -/

/-- A literal is a word spelled like a number and finite, unless its word spells out infinity. -/
theorem Lexeme.plain_iff {l : Lexeme} {t : Token} (h : l.token = .ok t) :
    (∀ x, t = .literal x → l.IsNumber ∧ x.isFinite = true) ↔ ¬ l.IsInfinity := by
  constructor
  · intro hplain hinfinity
    rw [hinfinity.token_eq] at h
    obtain ⟨-, hfinite⟩ := hplain _ (Except.ok.inj h).symm
    cases hfinite
  · rintro hinfinity x rfl
    rcases l.literal_cases h with hnumber | ⟨hspelled, -⟩
    · exact hnumber
    · exact absurd hspelled hinfinity

/-- **Only plain decimals are numbers, infinity spelled out apart.**  In a line that is scanned, every
    literal comes from the word in its place.  All these words are spelled like numbers, with an
    optional minus sign, digits, a fraction and an exponent, and all these literals are finite,
    exactly if no word of the line is a minus sign with infinity spelled out.  Then all numbers in
    the tree of the line are finite: neither an infinity nor what is no number gets into it. -/
theorem scan_plain_iff {line : Bytes} {ts : List Token} (hscan : Token.scan line = .ok ts) :
    (List.Forall₂ (fun l t => ∀ x, t = .literal x → l.IsNumber ∧ x.isFinite = true)
        (lexemes (Utf8.decode line)) ts ↔
      ∀ l ∈ lexemes (Utf8.decode line), ¬ l.IsInfinity) ∧
    ((∀ l ∈ lexemes (Utf8.decode line), ¬ l.IsInfinity) →
      ∀ form x, Form.ofLine line = .ok form → form.Holds x → x.isFinite = true) := by
  constructor
  · have htokens := scan_eq_ok_iff_forall₂.1 hscan
    clear hscan
    generalize lexemes (Utf8.decode line) = ls at htokens
    induction htokens with
    | nil => simp
    | cons htoken _ ih =>
      rw [List.forall₂_cons, List.forall_mem_cons]
      exact and_congr (Lexeme.plain_iff htoken) ih
  · intro hplain form x hform hx
    obtain ⟨us, hscan', hline⟩ := ofLine_eq_ok_iff.1 hform
    obtain ⟨l, hl, htoken⟩ := exists_lexeme_of_scan hscan' (hline.literal_mem hx)
    exact ((Lexeme.plain_iff htoken).2 (hplain l hl) x rfl).2

/-- A name may be spelled like infinity: without a minus sign it is no number. -/
theorem scan_plain_iff_of_quotient :
    let line := Utf8.ofString "(/ -1.5e3 inf)"
    let ts : List Token := [.openPar, .operator .div, .literal (-1500), .name "inf", .closePar]
    Token.scan line = .ok ts ∧ (∀ l ∈ lexemes (Utf8.decode line), ¬ l.IsInfinity) ∧
    List.Forall₂ (fun l t => ∀ x, t = .literal x → l.IsNumber ∧ x.isFinite = true)
      (lexemes (Utf8.decode line)) ts ∧
    ∀ form x, Form.ofLine line = .ok form → form.Holds x → x.isFinite = true := by
  intro line ts
  have hscan : Token.scan line = .ok ts := scan_ofString_iff.2 rfl
  have hlexemes : lexemes (Utf8.decode line) = [.openPar, .word '/' [],
      .word '-' ['1', '.', '5', 'e', '3'], .word 'i' ['n', 'f'], .closePar] := by
    rw [Utf8.decode_ofString]
    rfl
  have hplain : ∀ l ∈ lexemes (Utf8.decode line), ¬ l.IsInfinity := by
    rw [hlexemes]
    simp [Lexeme.IsInfinity, isInfinityWord]
  obtain ⟨hiff, htree⟩ := scan_plain_iff hscan
  exact ⟨hscan, hplain, hiff.2 hplain, htree hplain⟩

/-- Infinity spelled out is scanned as a literal that is not finite, though the word is not spelled
    like a number; and from there it gets into a tree. -/
theorem scan_spells_out_infinity :
    Token.scan (Utf8.ofString "-inf") = .ok [.literal (ofPattern true infinityPattern)] ∧
    lexemes (Utf8.decode (Utf8.ofString "-inf")) = [.word '-' ['i', 'n', 'f']] ∧
    ¬ (Lexeme.word '-' ['i', 'n', 'f']).IsNumber ∧
    (ofPattern true infinityPattern).isFinite = false ∧
    ∃ form, Form.ofLine (Utf8.ofString "(+ -inf)") = .ok form ∧
      form.Holds (ofPattern true infinityPattern) := by
  refine ⟨scan_ofString_iff.2 rfl, ?_, ?_, rfl, .expression (.call (.operator .add)
    [.number (ofPattern true infinityPattern)]), ?_, .call List.mem_cons_self .number⟩
  · rw [Utf8.decode_ofString]
    rfl
  · rintro ⟨negative, m, e, hword⟩
    obtain ⟨-, hunsigned⟩ := numberWord_minus_iff.1 hword
    cases hunsigned.isInfinityWord_eq_false
  · refine ofLine_eq_ok_iff.2 ⟨[.openPar, .operator .add,
      .literal (ofPattern true infinityPattern), .closePar], scan_ofString_iff.2 rfl, ?_⟩
    exact .call (.intro (.operator .add) (.literal _ .nil))

end PrefixCalc
