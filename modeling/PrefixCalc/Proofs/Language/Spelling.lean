/-
  How tokens are spelled.

  1. **Lawful tokens** — a token can be built by hand, and then it need not have a spelling: a name
     may hold a space, a number may be infinite.  `Token.IsLawful` says which tokens can be met in a
     line, and it is exactly those that scanning gives (`isLawful_of_scan`) and that are found again
     in their own text (`writes_text`).

  2. **Texts in pieces** — `Writes cs ts` says that the characters `cs` are scanned as the tokens
     `ts`.  Two texts may be put side by side where a delimiter keeps them apart
     (`Writes.append_delimiter`).

  3. **Lists of tokens** (`scan_joined_of_scan`) — with a space between any two, lawful tokens in
     any order are scanned again as they are.
-/
import PrefixCalc.Proofs.Language.Lexeme
import PrefixCalc.Proofs.Number.ReadBack

namespace PrefixCalc

/-- The tokens that can be met in a line. -/
def Token.IsLawful : Token → Prop
  | .literal x => IsWritable x
  | .openPar => True
  | .closePar => True
  | .operator op => op ∈ Operator.all
  | .name n => Token.scan (Utf8.ofString n) = .ok [.name n]
  | .keyword k => k ∈ Keyword.all
  | .unknown _ => False

/-- The characters are scanned as these tokens. -/
def Writes (cs : List Char) (ts : List Token) : Prop :=
  (lexemes cs).mapM Lexeme.token = .ok ts

theorem scan_ofString_iff {s : String} {ts : List Token} :
    Token.scan (Utf8.ofString s) = .ok ts ↔ Writes s.toList ts := by
  rw [scan_eq, Utf8.decode_ofString]
  exact Iff.rfl

/-! ## Putting texts together -/

theorem writes_nil : Writes [] [] := rfl

theorem Writes.append {cs ds : List Char} {ts us : List Token} (hcs : Writes cs ts)
    (hds : Writes ds us)
    (h : ∀ a ∈ cs.getLast?, ∀ b ∈ ds.head?, isDelimiter a = true ∨ isDelimiter b = true) :
    Writes (cs ++ ds) (ts ++ us) := by
  rw [Writes, mapM_eq_ok_iff] at hcs hds ⊢
  rw [lexemes_append h, List.map_append, List.map_append, hcs, hds]

/-- A delimiter keeps what follows apart. -/
theorem Writes.append_delimiter {d : Char} {cs ds : List Char} {ts us : List Token}
    (hcs : Writes cs ts) (hd : isDelimiter d = true) (hds : Writes (d :: ds) us) :
    Writes (cs ++ d :: ds) (ts ++ us) := by
  refine hcs.append hds ?_
  rintro a - b hb
  right
  rw [← Option.mem_some.1 hb]
  exact hd

theorem Writes.cons_openPar {cs : List Char} {ts : List Token} (h : Writes cs ts) :
    Writes ('(' :: cs) (.openPar :: ts) := by
  rw [Writes, lexemes_cons_openPar, mapM_eq_ok_iff, List.map_cons, mapM_eq_ok_iff.1 h]
  rfl

theorem Writes.cons_closePar {cs : List Char} {ts : List Token} (h : Writes cs ts) :
    Writes (')' :: cs) (.closePar :: ts) := by
  rw [Writes, lexemes_cons_closePar, mapM_eq_ok_iff, List.map_cons, mapM_eq_ok_iff.1 h]
  rfl

theorem Writes.cons_space {cs : List Char} {ts : List Token} (h : Writes cs ts) :
    Writes (' ' :: cs) ts := by
  rw [Writes, lexemes_cons_blank rfl]
  exact h

/-- A run by itself is one word. -/
theorem writes_word {first : Char} {rest : List Char} {t : Token} (hrun : IsRun (first :: rest))
    (h : Token.ofWord first rest = .ok t) : Writes (first :: rest) [t] := by
  rw [Writes, lexemes_run hrun, mapM_eq_ok_iff, List.map_singleton, List.map_singleton]
  exact congrArg (fun r => [r]) h

/-! ## Tokens from words -/

theorem isRun_of_mem_lexemes {cs : List Char} {first : Char} {rest : List Char}
    (h : .word first rest ∈ lexemes cs) : IsRun (first :: rest) := by
  obtain ⟨w, hw, hpart⟩ := List.mem_filterMap.1 h
  have hcut := (isCut_iff.2 (rfl : cut cs = cut cs)).isPart w hw
  cases w with
  | nil => cases hpart
  | cons c cs =>
    rw [Lexeme.ofPart?] at hpart
    split at hpart
    · cases hpart
    · next hblank =>
      split at hpart
      · cases hpart
      · next hopen =>
        split at hpart
        · cases hpart
        · next hclose =>
          injection hpart with hpart
          injection hpart with hc hcs
          subst hc hcs
          rcases hcut with ⟨d, hd, hsingle⟩ | hrun
          · -- a delimiter by itself is no word
            have hcd : c = d := (List.cons.inj hsingle).1
            subst hcd
            have hnot := isDelimiter_eq_false_iff.2 ⟨Bool.not_eq_true _ ▸ hblank, hopen, hclose⟩
            rw [hd] at hnot
            cases hnot
          · exact hrun

theorem isLawful_of_ofWord {first : Char} {rest : List Char} {t : Token}
    (hrun : IsRun (first :: rest)) (h : Token.ofWord first rest = .ok t) : t.IsLawful := by
  have hwrites := writes_word hrun h
  simp only [Token.ofWord] at h
  split at h
  · next op hop =>
    injection h with h
    subst h
    exact List.mem_of_find?_eq_some hop
  · split at h
    · split at h
      · next x hx =>
        injection h with h
        subst h
        exact isWritable_of_readNumber hx
      · nomatch h
    · split at h
      · split at h
        · next k hk =>
          injection h with h
          subst h
          exact List.mem_of_find?_eq_some hk
        · injection h with h
          subst h
          show Token.scan (Utf8.ofString (String.ofList (first :: rest))) = _
          rw [scan_ofString_iff, String.toList_ofList]
          exact hwrites
      · nomatch h

/-- Every token stands for a lexeme of its line. -/
theorem exists_lexeme_of_scan {line : Bytes} {ts : List Token} (h : Token.scan line = .ok ts)
    {t : Token} (ht : t ∈ ts) : ∃ l ∈ lexemes (Utf8.decode line), l.token = .ok t := by
  rw [scan_eq, mapM_eq_ok_iff] at h
  have hmem : Except.ok t ∈ (lexemes (Utf8.decode line)).map Lexeme.token := by
    rw [h]
    exact List.mem_map_of_mem ht
  exact List.mem_map.1 hmem

/-- Scanning gives lawful tokens only. -/
theorem isLawful_of_scan {line : Bytes} {ts : List Token} (h : Token.scan line = .ok ts) :
    ∀ t ∈ ts, t.IsLawful := by
  intro t ht
  obtain ⟨l, hl, htoken⟩ := exists_lexeme_of_scan h ht
  cases l with
  | openPar =>
    injection htoken with htoken
    subst htoken
    trivial
  | closePar =>
    injection htoken with htoken
    subst htoken
    trivial
  | word first rest => exact isLawful_of_ofWord (isRun_of_mem_lexemes hl) htoken

/-! ## Tokens in their own text -/

theorem isBlankCode_digit : ∀ n < 58, 48 ≤ n → isBlankCode n = false := by decide

theorem isDelimiter_of_isNumeralChar {c : Char} (h : Numeral.isNumeralChar c = true) :
    isDelimiter c = false := by
  simp only [Numeral.isNumeralChar, Bool.or_eq_true, beq_iff_eq] at h
  rcases h with (((h | rfl) | rfl) | rfl) | rfl
  · -- the digits are a range of codes, and no delimiter is in it
    have hrange : 48 ≤ c.toNat ∧ c.toNat ≤ 57 := Char.isDigit_iff_toNat.1 h
    rw [isDelimiter_eq_false_iff]
    refine ⟨?_, ?_, ?_⟩
    · exact isBlankCode_digit c.toNat (by omega) hrange.1
    · rintro rfl
      exact absurd h (by decide)
    · rintro rfl
      exact absurd h (by decide)
  all_goals rfl

theorem isRun_of_any {w : List Char} (hne : w.isEmpty = false)
    (h : w.any isDelimiter = false) : IsRun w :=
  ⟨List.isEmpty_eq_false_iff.1 hne, fun c hc => Bool.eq_false_iff.2 (List.any_eq_false.1 h c hc)⟩

/-- The text of a number is one word, and its first character tells that it is a number. -/
theorem numberChars_eq_cons {x : Float} (h : IsWritable x) :
    ∃ first rest, numberChars x = first :: rest ∧ IsRun (first :: rest) ∧
      (first.isDigit || first == '-') = true := by
  rcases numberChars_cases h with ⟨n, -, -, htext⟩ | ⟨-, htext⟩
  · obtain ⟨c, cs, hn, hc, hcs⟩ := n.exists_text_eq_cons
    have hrun : ∀ a ∈ c :: cs, isDelimiter a = false := by
      intro a ha
      rcases List.mem_cons.1 ha with rfl | ha
      · exact isDelimiter_of_isNumeralChar (Numeral.isNumeralChar_of_isDigit hc)
      · exact isDelimiter_of_isNumeralChar (hcs a ha)
    rw [hn] at htext
    cases hneg : Binary64.isNegative x with
    | true =>
      rw [hneg, if_pos rfl] at htext
      refine ⟨'-', c :: cs, htext, ⟨List.cons_ne_nil _ _, ?_⟩, rfl⟩
      intro a ha
      rcases List.mem_cons.1 ha with rfl | ha
      · rfl
      · exact hrun a ha
    | false =>
      rw [hneg, if_neg Bool.false_ne_true] at htext
      refine ⟨c, cs, htext, ⟨List.cons_ne_nil _ _, hrun⟩, ?_⟩
      rw [hc]
      rfl
  · exact ⟨'-', ['I', 'n', 'f'], htext, isRun_of_any rfl rfl, rfl⟩

/-- No operator is written like a number. -/
theorem readNumber_symbol {op : Operator} (h : op ∈ Operator.all) :
    (readNumber op.symbol.toList).isNone = true := by
  revert op
  decide

theorem ofWord_numberChars {x : Float} (h : IsWritable x) {first : Char} {rest : List Char}
    (htext : numberChars x = first :: rest) (hfirst : (first.isDigit || first == '-') = true) :
    Token.ofWord first rest = .ok (.literal x) := by
  have hread := readNumber_numberChars h
  rw [htext] at hread
  have hsymbol : Operator.ofSymbol? (String.ofList (first :: rest)) = none := by
    refine List.find?_eq_none.2 fun op hop heq => ?_
    have hnone := readNumber_symbol hop
    rw [eq_of_beq heq, String.toList_ofList, hread] at hnone
    nomatch hnone
  simp only [Token.ofWord, hsymbol, hfirst, if_true, hread]

/-- A spelling that is a run and reads as a token writes this token. -/
theorem writes_toList {s : String} {t : Token} (hrun : IsRun s.toList)
    (h : ∀ first rest, s.toList = first :: rest → Token.ofWord first rest = .ok t) :
    Writes s.toList [t] := by
  obtain ⟨first, rest, hs⟩ := List.exists_cons_of_ne_nil hrun.1
  rw [hs] at hrun ⊢
  exact writes_word hrun (h first rest hs)

theorem writes_symbol {op : Operator} (h : op ∈ Operator.all) :
    Writes op.symbol.toList [.operator op] := by
  have hrun : IsRun op.symbol.toList := by
    apply isRun_of_any
    · revert op
      decide
    · revert op
      decide
  refine writes_toList hrun fun first rest hs => ?_
  have hsymbol := Operator.ofSymbol?_symbol h
  rw [← @String.ofList_toList op.symbol, hs] at hsymbol
  simp only [Token.ofWord, hsymbol]

theorem writes_keyword {k : Keyword} (h : k ∈ Keyword.all) :
    Writes k.name.toList [.keyword k] := by
  simp only [Keyword.all, List.mem_cons, List.not_mem_nil, or_false] at h
  rcases h with rfl | rfl
  · rfl
  · rfl

/-- Every lawful token is found again in its own text. -/
theorem writes_text {t : Token} (h : t.IsLawful) : Writes t.text.toList [t] := by
  cases t with
  | literal x =>
    obtain ⟨first, rest, htext, hrun, hfirst⟩ := numberChars_eq_cons h
    show Writes (numberText x).toList [.literal x]
    rw [numberText, String.toList_ofList, htext]
    exact writes_word hrun (ofWord_numberChars h htext hfirst)
  | openPar => exact writes_nil.cons_openPar
  | closePar => exact writes_nil.cons_closePar
  | operator op => exact writes_symbol h
  | name n => exact scan_ofString_iff.1 h
  | keyword k => exact writes_keyword h
  | unknown code => exact h.elim

/-! ## Lists of tokens -/

/-- Lawful tokens are found again in their joined text: each but the last is followed by a space, so
    what it is read as does not depend on its neighbours. -/
theorem writes_joined {ts : List Token} (h : ∀ t ∈ ts, t.IsLawful) :
    Writes (Token.joined ts).toList ts := by
  induction ts with
  | nil => exact writes_nil
  | cons t us ih =>
    obtain ⟨ht, hus⟩ := List.forall_mem_cons.1 h
    cases us with
    | nil =>
      rw [Token.joined, List.map_singleton, String.intercalate_singleton]
      exact writes_text ht
    | cons u us =>
      have htext : (Token.joined (t :: u :: us)).toList =
          t.text.toList ++ ' ' :: (Token.joined (u :: us)).toList := by
        rw [Token.joined, List.map_cons, List.map_cons, String.intercalate_cons_cons,
          String.toList_append, String.toList_append, List.append_assoc]
        rfl
      rw [htext]
      exact (writes_text ht).append_delimiter rfl (ih hus).cons_space

/-- **Tokens are known by their text.**  The tokens of a line, whether they make up a form or not, are
    scanned again from their joined text, every number with all its bits.  So different lists of
    tokens that lines are scanned as have different texts. -/
theorem scan_joined_of_scan :
    (∀ line ts, Token.scan line = .ok ts → Token.scan (Utf8.ofString (Token.joined ts)) = .ok ts) ∧
    (∀ line line' ts ts', Token.scan line = .ok ts → Token.scan line' = .ok ts' → ts ≠ ts' →
      Token.joined ts ≠ Token.joined ts') := by
  have hagain (line : Bytes) (ts : List Token) (h : Token.scan line = .ok ts) :
      Token.scan (Utf8.ofString (Token.joined ts)) = .ok ts :=
    scan_ofString_iff.2 (writes_joined (isLawful_of_scan h))
  refine ⟨hagain, ?_⟩
  intro line line' ts ts' h h' hne hjoined
  have hscan := hagain line ts h
  rw [hjoined, hagain line' ts' h'] at hscan
  exact hne (Except.ok.inj hscan).symm

end PrefixCalc
