/-
  Whatever a line says, the answer to it is one line.

  1. **Words** — a message is fixed text around the words that it cites (`Error.words`), so it is one
     line if these are (`Error.isOneLine_message`).

  2. **Stages** — scanning cites a word of the line, and white space ends a word.  Parsing cites
     tokens that it has met.  Evaluation cites names that stand in the tree, and names of operators
     and built-in functions.  `Raises` says of a stage what all its errors have in common, and is
     carried through the programs like the outcome of an evaluation.

  3. **Assembly** — `Environment.isOneLine_of_run`: so it is with the error of every line in every
     environment.  The text of a number is one line for every number.
-/
import PrefixCalc.Proofs.Environment.Stage
import PrefixCalc.Proofs.Language.OneLine

namespace PrefixCalc

/-! ## Numbers in a text -/

theorem isOneLine_repr_nat (n : Nat) : IsOneLine n.repr := by
  intro hmem
  rw [Nat.repr, String.toList_ofList] at hmem
  have hdigit := Decimal.areDigits_toDigits n '\n' hmem
  cases hdigit

theorem isOneLine_repr_int (n : Int) : IsOneLine n.repr := by
  cases n with
  | ofNat n => exact isOneLine_repr_nat n
  | negSucc n => exact isOneLine_append.mpr ⟨by decide, isOneLine_repr_nat (n + 1)⟩

/-- The text of a number is one line, whether the number has a word or not. -/
theorem isOneLine_result (x : Float) : IsOneLine (numberText x) := by
  by_cases hfinite : Binary64.unsignedPattern x < Binary64.infinityPattern
  · exact isOneLine_numberText (Or.inl hfinite)
  · -- what is not finite is written in letters
    rw [numberText, numberChars, IsOneLine, String.toList_ofList]
    split
    · decide
    · split
      · cases Binary64.isNegative x with
        | true => decide
        | false => decide
      · next hnan hinf => omega

/-! ## Words in a message -/

theorem Operator.isOneLine_symbol (op : Operator) : IsOneLine op.symbol := by
  cases op with
  | unknown code =>
    simp only [symbol, isOneLine_append]
    exact ⟨⟨by decide, isOneLine_repr_int code⟩, by decide⟩
  | _ => decide

theorem Builtin.isOneLine_name (f : Builtin) : IsOneLine f.name := by
  cases f with
  | unknown code =>
    simp only [name, isOneLine_append]
    exact ⟨⟨by decide, isOneLine_repr_int code⟩, by decide⟩
  | _ => decide

theorem TokenKind.isOneLine_label (k : TokenKind) : IsOneLine k.label := by
  cases k with
  | unknown code =>
    simp only [label, isOneLine_append]
    exact ⟨⟨by decide, isOneLine_repr_int code⟩, by decide⟩
  | _ => decide

theorem Arity.isOneLine_countWord (n : Nat) : IsOneLine (countWord n) := by
  rw [countWord.eq_def]
  split
  · decide
  · decide
  · decide
  · decide
  · exact isOneLine_repr_nat _

theorem Arity.isOneLine_words (a : Arity) : IsOneLine a.words := by
  obtain ⟨least, most⟩ := a
  cases least with
  | negSucc n => exact List.not_mem_nil
  | ofNat n =>
    have hnoun : IsOneLine (if n = 1 then "argument" else "arguments") := by split <;> decide
    have hcount : IsOneLine (countWord n ++ " " ++ if n = 1 then "argument" else "arguments") := by
      simp only [isOneLine_append]
      exact ⟨⟨isOneLine_countWord n, by decide⟩, hnoun⟩
    cases most with
    | some m => exact hcount
    | none => exact isOneLine_append.mpr ⟨by decide, hcount⟩

namespace Error

/-- The words that a message cites. -/
def words : Error → List String
  | invalidNumber word => [word]
  | unrecognizedWord word => [word]
  | invalidHead t => [t.text]
  | misplacedOperator op => [op.symbol]
  | misplacedKeyword k => [k.name]
  | unexpectedKind kind => [kind.label]
  | unknownKeyword k => [k.name]
  | expectedName found => [found.kind.label, found.text]
  | expectedValue found => [found.kind.label, found.text]
  | expectedClose found => [found.kind.label, found.text]
  | trailingToken t => [t.text]
  | wrongCount name arity => [name, arity.words]
  | unknownOperator op => [op.symbol]
  | unknownBuiltin f => [f.name]
  | unknownFunction name => [name]
  | undefinedName name => [name]
  | invalidExpression kind => [kind.label]
  | invalidStatement kind => [kind.label]
  | _ => []

/-- The words are one line that the message cites. -/
def IsPlain (e : Error) : Prop := ∀ w ∈ e.words, IsOneLine w

theorem isOneLine_quoted {w : String} (h : IsOneLine w) : IsOneLine (quoted w) :=
  isOneLine_append.mpr ⟨isOneLine_append.mpr ⟨by decide, h⟩, by decide⟩

theorem isOneLine_insteadOf {found : Token} {expected : String}
    (h : ∀ w ∈ [found.kind.label, found.text], IsOneLine w) (hexpected : IsOneLine expected) :
    IsOneLine (insteadOf found expected) := by
  obtain ⟨hlabel, htext⟩ := List.forall_mem_cons.mp h
  have htext : IsOneLine found.text := htext _ List.mem_cons_self
  unfold insteadOf
  simp only [isOneLine_append]
  exact ⟨⟨⟨⟨⟨by decide, hlabel⟩, by decide⟩, isOneLine_quoted htext⟩, by decide⟩, hexpected⟩

/-- A message is one line if the words are that it cites. -/
theorem isOneLine_message {e : Error} (h : e.IsPlain) : IsOneLine e.message := by
  have plain {cs : List Char} {w : String} (hcs : '\n' ∉ cs) (hw : IsOneLine w) :
      IsOneLine (String.ofList cs ++ w) := isOneLine_append.mpr ⟨isOneLine_ofList hcs, hw⟩
  have cited {cs : List Char} {w : String} (hcs : '\n' ∉ cs) (hw : IsOneLine w) :
      IsOneLine (String.ofList cs ++ quoted w) := plain hcs (isOneLine_quoted hw)
  have around {s : String} {cs : List Char} (hs : IsOneLine s) (hcs : '\n' ∉ cs) :
      IsOneLine (s ++ String.ofList cs) := isOneLine_append.mpr ⟨hs, isOneLine_ofList hcs⟩
  cases e with
  | invalidNumber word => exact cited (by decide) (h _ List.mem_cons_self)
  | unrecognizedWord word => exact cited (by decide) (h _ List.mem_cons_self)
  | notParenthesized => exact isOneLine_ofList (by decide)
  | unclosedExpression => exact isOneLine_ofList (by decide)
  | invalidHead t => exact cited (by decide) (h _ List.mem_cons_self)
  | misplacedOperator op => exact around (cited (by decide) (h _ List.mem_cons_self)) (by decide)
  | misplacedKeyword k => exact around (cited (by decide) (h _ List.mem_cons_self)) (by decide)
  | unexpectedKind kind => exact plain (by decide) (h _ List.mem_cons_self)
  | unknownKeyword k => exact plain (by decide) (h _ List.mem_cons_self)
  | unexpectedEnd => exact isOneLine_ofList (by decide)
  | expectedName found => exact isOneLine_insteadOf h (isOneLine_ofList (by decide))
  | expectedValue found => exact isOneLine_insteadOf h (isOneLine_ofList (by decide))
  | expectedClose found => exact isOneLine_insteadOf h (isOneLine_ofList (by decide))
  | unclosedStatement => exact isOneLine_ofList (by decide)
  | trailingToken t => exact around (cited (by decide) (h _ List.mem_cons_self)) (by decide)
  | definition => exact isOneLine_ofList (by decide)
  | wrongCount name arity =>
    obtain ⟨hname, harity⟩ := List.forall_mem_cons.mp h
    have hwords : IsOneLine arity.words := harity _ List.mem_cons_self
    exact isOneLine_append.mpr ⟨around (isOneLine_quoted hname) (by decide), hwords⟩
  | unknownOperator op => exact plain (by decide) (h _ List.mem_cons_self)
  | unknownBuiltin f => exact plain (by decide) (h _ List.mem_cons_self)
  | unknownFunction name => exact cited (by decide) (h _ List.mem_cons_self)
  | undefinedName name => exact cited (by decide) (h _ List.mem_cons_self)
  | divisionByZero => exact isOneLine_ofList (by decide)
  | invalidExpression kind => exact plain (by decide) (h _ List.mem_cons_self)
  | invalidStatement kind => exact plain (by decide) (h _ List.mem_cons_self)
  | nothingToEvaluate => exact isOneLine_ofList (by decide)

end Error

/-! ## Errors with something in common -/

/-- All errors that come out of it have this property. -/
def Raises {ε α : Type} (P : ε → Prop) (r : Except ε α) : Prop := ∀ e, r = .error e → P e

section Raises

variable {ε α β : Type} {P : ε → Prop}

theorem raises_ok (a : α) : Raises P (.ok a) := by
  intro e h
  cases h

theorem raises_error {e : ε} (h : P e) : Raises P (.error e : Except ε α) := by
  intro e' he
  cases he
  exact h

theorem Raises.bind {x : Except ε α} {next : α → Except ε β} (hx : Raises P x)
    (hnext : ∀ a, x = .ok a → Raises P (next a)) : Raises P (x >>= next) := by
  intro e he
  cases x with
  | error e' => exact hx e (congrArg Except.error (Except.error.inj he))
  | ok a => exact hnext a rfl e he

end Raises

/-- The same of what stops an evaluation; of a crash nothing is said. -/
def Fault.IsPlain : Fault → Prop
  | .error e => e.IsPlain
  | .crash => True

/-! ## Scanning -/

theorem Token.ofWord_raises {first : Char} {rest : List Char} (h : IsRun (first :: rest)) :
    Raises Error.IsPlain (Token.ofWord first rest) := by
  have hword : IsOneLine (String.ofList (first :: rest)) := by
    refine isOneLine_of_isRun ?_
    rw [String.toList_ofList]
    exact h
  have hcited : ∀ w ∈ [String.ofList (first :: rest)], IsOneLine w :=
    List.forall_mem_singleton.mpr hword
  rw [ofWord]
  split
  · exact raises_ok _
  · split
    · split
      · exact raises_ok _
      · exact raises_error hcited
    · split
      · split
        · exact raises_ok _
        · exact raises_ok _
      · exact raises_error hcited

theorem scan_raises (line : Bytes) : Raises Error.IsPlain (Token.scan line) := by
  intro e he
  rw [scan_eq] at he
  obtain ⟨before, l, after, hlexemes, -, hl⟩ := mapM_eq_error_iff.mp he
  have hmem : l ∈ lexemes (Utf8.decode line) := by
    rw [hlexemes]
    exact List.mem_append_right _ List.mem_cons_self
  cases l with
  | openPar => cases hl
  | closePar => cases hl
  | word first rest => exact Token.ofWord_raises (isRun_of_mem_lexemes hmem) e hl

/-! ## Parsing -/

/-- The text of every token that can be met in a line is one line. -/
theorem Token.IsLawful.isOneLine_text {t : Token} (h : t.IsLawful) : IsOneLine t.text := by
  cases t with
  | literal x => exact isOneLine_numberText h
  | openPar => decide
  | closePar => decide
  | operator op => exact op.isOneLine_symbol
  | name n => exact isOneLine_of_isRun (isRun_of_scan_name h)
  | keyword k =>
    simp only [IsLawful, Keyword.all, List.mem_cons, List.not_mem_nil, or_false] at h
    rcases h with rfl | rfl
    · decide
    · decide
  | unknown code => exact h.elim

/-- An error that cites a token and its kind. -/
theorem Token.isOneLine_cited {t : Token} (h : IsOneLine t.text) :
    ∀ w ∈ [t.kind.label, t.text], IsOneLine w :=
  List.forall_mem_cons.mpr ⟨t.kind.isOneLine_label, List.forall_mem_singleton.mpr h⟩

theorem Head.ofToken_raises {t : Token} (h : IsOneLine t.text) :
    Raises Error.IsPlain (Head.ofToken t) := by
  have hcited : (Error.invalidHead t).IsPlain := List.forall_mem_singleton.mpr h
  cases t with
  | operator op => exact raises_ok _
  | name n => exact raises_ok _
  | literal x => exact raises_error hcited
  | openPar => exact raises_error hcited
  | closePar => exact raises_error hcited
  | keyword k => exact raises_error hcited
  | unknown code => exact raises_error hcited

theorem parseArgs_raises {around : List OpenCall} {inner : OpenCall} {ts : List Token}
    (h : ∀ t ∈ ts, IsOneLine t.text) :
    Raises Error.IsPlain (Expr.parseArgs around inner ts) := by
  fun_induction Expr.parseArgs around inner ts with
  | case1 => exact raises_error (List.forall_mem_nil _)
  | case2 => exact raises_ok _
  | case3 inner ts outer others ih => exact ih (List.forall_mem_cons.mp h).2
  | case4 around inner x ts ih => exact ih (List.forall_mem_cons.mp h).2
  | case5 around inner n ts ih => exact ih (List.forall_mem_cons.mp h).2
  | case6 => exact raises_error (List.forall_mem_nil _)
  | case7 around inner t ts head hhead ih =>
    exact ih (List.forall_mem_cons.mp (List.forall_mem_cons.mp h).2).2
  | case8 around inner t ts e hhead =>
    have ht : IsOneLine t.text := h t (by simp)
    exact raises_error (Head.ofToken_raises ht e hhead)
  | case9 around inner op ts =>
    exact raises_error (List.forall_mem_singleton.mpr op.isOneLine_symbol)
  | case10 around inner k ts =>
    have hk : IsOneLine k.name := h (.keyword k) List.mem_cons_self
    exact raises_error (List.forall_mem_singleton.mpr hk)
  | case11 around inner code ts =>
    exact raises_error (List.forall_mem_singleton.mpr (TokenKind.unknown code).isOneLine_label)

theorem parseCall_raises {ts : List Token} (h : ∀ t ∈ ts, IsOneLine t.text) :
    Raises Error.IsPlain (Expr.parseCall ts) := by
  cases ts with
  | nil => exact raises_error (List.forall_mem_nil _)
  | cons t ts =>
    obtain ⟨ht, hts⟩ := List.forall_mem_cons.mp h
    exact (Head.ofToken_raises ht).bind fun head _ => parseArgs_raises hts

theorem parseValue_raises {ts : List Token} (h : ∀ t ∈ ts, IsOneLine t.text) :
    Raises Error.IsPlain (Statement.parseValue ts) := by
  fun_cases Statement.parseValue ts with
  | case1 => exact raises_error (List.forall_mem_nil _)
  | case2 ts => exact parseCall_raises (List.forall_mem_cons.mp h).2
  | case3 => exact raises_ok _
  | case4 t ts =>
    exact raises_error (Token.isOneLine_cited (h t List.mem_cons_self))

theorem parseAssign_raises {ts : List Token} (h : ∀ t ∈ ts, IsOneLine t.text) :
    Raises Error.IsPlain (Statement.parseAssign ts) := by
  fun_cases Statement.parseAssign ts with
  | case1 => exact raises_error (List.forall_mem_nil _)
  | case2 target ts =>
    have hts := (List.forall_mem_cons.mp h).2
    refine (parseValue_raises hts).bind fun read hread => ?_
    obtain ⟨value, rest⟩ := read
    -- the token behind the value is one of the tokens
    obtain ⟨us, rfl, -⟩ := parseValue_iff.mp hread
    dsimp only
    split
    · exact raises_error (List.forall_mem_nil _)
    · exact raises_ok _
    · next t rest _ =>
      have ht : IsOneLine t.text := hts t (by simp)
      exact raises_error (Token.isOneLine_cited ht)
  | case3 t ts =>
    exact raises_error (Token.isOneLine_cited (h t List.mem_cons_self))

theorem parseInner_raises {ts : List Token} (h : ∀ t ∈ ts, IsOneLine t.text) :
    Raises Error.IsPlain (Form.parseInner ts) := by
  fun_cases Form.parseInner ts with
  | case1 k ts =>
    obtain ⟨hk, hts⟩ := List.forall_mem_cons.mp h
    refine Raises.bind ?_ fun _ _ => raises_ok _
    cases k with
    | set => exact parseAssign_raises hts
    | define => exact raises_error (List.forall_mem_nil _)
    | unknown code =>
      exact raises_error (List.forall_mem_singleton.mpr hk)
  | case2 ts => exact (parseCall_raises h).bind fun _ _ => raises_ok _

theorem parse_raises {ts : List Token} (h : ∀ t ∈ ts, IsOneLine t.text) :
    Raises Error.IsPlain (Form.parse ts) := by
  fun_cases Form.parse ts with
  | case1 ts =>
    have hts := (List.forall_mem_cons.mp h).2
    refine (parseInner_raises hts).bind fun read hread => ?_
    obtain ⟨form, rest⟩ := read
    obtain ⟨us, rfl, -⟩ := parseInner_iff.mp hread
    cases rest with
    | nil => exact raises_ok _
    | cons t rest =>
      have ht : IsOneLine t.text := hts t (by simp)
      exact raises_error (List.forall_mem_singleton.mpr ht)
  | case2 => exact raises_error (List.forall_mem_nil _)

theorem ofLine_raises (line : Bytes) : Raises Error.IsPlain (Form.ofLine line) := by
  refine (scan_raises (Utf8.trim line)).bind fun ts hscan => parse_raises fun t ht => ?_
  exact (isLawful_of_scan hscan t ht).isOneLine_text

/-! ## Evaluation -/

theorem Arity.check_raises (a : Arity) {name : String} (h : IsOneLine name) (n : Int) :
    Raises Fault.IsPlain (a.check name n) := by
  rw [Arity.check]
  split
  · exact raises_ok ()
  · exact raises_error
      (List.forall_mem_cons.mpr ⟨h, List.forall_mem_singleton.mpr a.isOneLine_words⟩)

theorem Operator.check_raises (op : Operator) (n : Nat) :
    Raises Fault.IsPlain (op.check n) := by
  rw [check]
  cases op.arity? with
  | none => exact raises_error (List.forall_mem_singleton.mpr op.isOneLine_symbol)
  | some a => exact a.check_raises op.isOneLine_symbol n

theorem Operator.combine_raises (op : Operator) (xs : List Float) :
    Raises Fault.IsPlain (op.combine xs) := by
  fun_cases Operator.combine op xs with
  | case4 => exact raises_error (List.forall_mem_nil _)
  | case12 => exact raises_error trivial
  | _ => exact raises_ok _

theorem Builtin.check_raises (f : Builtin) (n : Nat) : Raises Fault.IsPlain (f.check n) := by
  rw [check]
  cases f.arity? with
  | none => exact raises_error (List.forall_mem_singleton.mpr f.isOneLine_name)
  | some a => exact a.check_raises f.isOneLine_name n

theorem Environment.lookup_raises (env : Environment) {name : String} (h : IsOneLine name) :
    Raises Fault.IsPlain (env.lookup name) := by
  rw [lookup]
  split
  · exact raises_ok _
  · split
    · exact raises_error (List.forall_mem_singleton.mpr h)
    · split
      · exact raises_ok _
      · exact raises_error trivial

namespace Expr

variable {env : Environment}

theorem evalAll_raises {args : List Expr} (h : ∀ e ∈ args, Raises Fault.IsPlain (e.eval env)) :
    Raises Fault.IsPlain (evalAll env args) := by
  induction args with
  | nil => exact raises_ok []
  | cons e args ih =>
    obtain ⟨he, hargs⟩ := List.forall_mem_cons.mp h
    rw [evalAll]
    exact he.bind fun x _ => (ih hargs).bind fun xs _ => raises_ok (x :: xs)

theorem evalBuiltin_raises (f : Builtin) {args : List Expr}
    (h : ∀ e ∈ args, Raises Fault.IsPlain (e.eval env)) :
    Raises Fault.IsPlain (evalBuiltin env f args) := by
  cases args with
  | nil =>
    rw [evalBuiltin]
    exact (f.check_raises 0).bind fun _ _ => raises_error trivial
  | cons e₁ rest =>
    obtain ⟨h₁, hrest⟩ := List.forall_mem_cons.mp h
    rw [evalBuiltin.eq_def]
    refine (f.check_raises (rest.length + 1)).bind fun _ _ => ?_
    split
    · exact h₁.bind fun x _ => raises_ok _
    · next e₂ _ _ =>
      have h₂ := hrest e₂ List.mem_cons_self
      exact h₁.bind fun x _ => h₂.bind fun y _ => raises_ok _
    · next e₂ e₃ _ _ =>
      refine h₁.bind fun x _ => ?_
      cases isTrue x with
      | true => exact hrest e₂ (by simp)
      | false => exact hrest e₃ (by simp)
    · exact raises_error trivial

/-- Evaluating an expression of the language cites names that stand in it, or names of operators and
    built-in functions. -/
theorem eval_raises (env : Environment) {e : Expr} (h : e.IsArgument) :
    Raises Fault.IsPlain (e.eval env) := by
  induction h with
  | @number x _ => exact raises_ok x
  | @var n hn => exact env.lookup_raises (isOneLine_of_isRun (isRun_of_scan_name hn))
  | @call head args hhead _ ih =>
    cases hhead with
    | @operator op _ =>
      rw [eval]
      refine (op.check_raises args.length).bind fun _ _ => ?_
      exact (evalAll_raises ih).bind fun xs _ => op.combine_raises xs
    | @function n hn =>
      rw [eval]
      cases env.function? n with
      | some f => exact evalBuiltin_raises f ih
      | none =>
        exact raises_error
          (List.forall_mem_singleton.mpr (isOneLine_of_isRun (isRun_of_scan_name hn)))

end Expr

theorem Form.IsLineTree.exec_raises {form : Form} (h : form.IsLineTree) (env : Environment) :
    Raises Fault.IsPlain (form.exec env).1 := by
  cases h with
  | call harg => exact Expr.eval_raises env harg
  | @assign n e _ hvalue =>
    have heval : Raises Fault.IsPlain (e.eval env) := by
      cases hvalue with
      | number harg => exact Expr.eval_raises env harg
      | call harg => exact Expr.eval_raises env harg
    rw [fst_exec_assign]
    exact heval.bind fun x _ => raises_ok _

/-- What is said of a line that fails, at whatever stage and in whatever environment, is one line. -/
theorem Environment.isOneLine_of_run {env : Environment} {line : Bytes} {e : Error}
    (h : (env.run line).1 = .error (.error e)) : IsOneLine e.message := by
  refine Error.isOneLine_message ?_
  rw [run] at h
  cases hline : Form.ofLine line with
  | error e' =>
    rw [hline] at h
    cases h
    exact ofLine_raises line e hline
  | ok form =>
    rw [hline] at h
    exact (isLineTree_of_ofLine hline).exec_raises env _ h

end PrefixCalc
