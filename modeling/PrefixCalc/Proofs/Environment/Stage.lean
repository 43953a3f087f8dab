/-
  The kind of an error names the stage that found it.

  1. **Stages** — a line is scanned as a whole, then parsed as a whole, then executed.  `FoundAt`
     says of a stage that all the errors it can end with are of its kind: scanning finds lexical
     errors (`scan_foundAt`), parsing finds errors of grammar (`parse_foundAt`), and execution, by
     `Concludes`, errors of evaluation.

  2. **The exception** — a definition is recognised by its keyword alone, when a line begins with
     it, and is then rejected as not implemented, whatever follows.

  3. **Assembly** — `Environment.run_cases` lists the four ways in which running a line can go.  The
     kinds and the conditions of the four exclude each other, so each kind belongs to its condition.
     Notes that are put around an error on its way out change nothing in it (`error?_annotated`).
-/
import PrefixCalc.Proofs.Environment.Outcome

namespace PrefixCalc

/-! ## Errors of one kind -/

/-- Only errors of this kind come out of it. -/
def FoundAt {α : Type} (k : ErrorKind) (r : Except Error α) : Prop :=
  ∀ e, r = .error e → e.kind = k

section FoundAt

variable {α β : Type} {k : ErrorKind}

theorem foundAt_ok (a : α) : FoundAt k (.ok a) := by
  intro e h
  nomatch h

theorem foundAt_error {e : Error} (h : e.kind = k) : FoundAt k (.error e : Except Error α) := by
  intro e' he
  rw [← Except.error.inj he]
  exact h

theorem FoundAt.bind {x : Except Error α} {next : α → Except Error β} (hx : FoundAt k x)
    (hnext : ∀ a, FoundAt k (next a)) : FoundAt k (x >>= next) := by
  intro e he
  cases x with
  | error e' => exact hx e (congrArg Except.error (Except.error.inj he))
  | ok a => exact hnext a e he

end FoundAt

/-! ## Scanning -/

theorem Token.ofWord_foundAt (first : Char) (rest : List Char) :
    FoundAt .lexical (Token.ofWord first rest) := by
  rw [ofWord]
  split
  · exact foundAt_ok _
  · split
    · split
      · exact foundAt_ok _
      · exact foundAt_error rfl
    · split
      · split
        · exact foundAt_ok _
        · exact foundAt_ok _
      · exact foundAt_error rfl

theorem Lexeme.token_foundAt (l : Lexeme) : FoundAt .lexical l.token := by
  cases l with
  | openPar => exact foundAt_ok _
  | closePar => exact foundAt_ok _
  | word first rest => exact Token.ofWord_foundAt first rest

theorem scan_foundAt (line : Bytes) : FoundAt .lexical (Token.scan line) := by
  intro e he
  rw [scan_eq] at he
  obtain ⟨_, l, _, -, -, hl⟩ := mapM_eq_error_iff.mp he
  exact l.token_foundAt e hl

/-! ## Parsing -/

theorem Head.ofToken_foundAt (t : Token) : FoundAt .grammar (Head.ofToken t) := by
  cases t with
  | operator op => exact foundAt_ok _
  | name n => exact foundAt_ok _
  | _ => exact foundAt_error rfl

theorem Expr.parseArgs_foundAt (around : List OpenCall) (inner : OpenCall) (ts : List Token) :
    FoundAt .grammar (Expr.parseArgs around inner ts) := by
  fun_induction Expr.parseArgs around inner ts with
  | case1 => exact foundAt_error rfl
  | case2 => exact foundAt_ok _
  | case3 _ _ _ _ ih => exact ih
  | case4 _ _ _ _ ih => exact ih
  | case5 _ _ _ _ ih => exact ih
  | case6 => exact foundAt_error rfl
  | case7 _ _ _ _ _ _ ih => exact ih
  | case8 _ _ t _ e he => exact foundAt_error (Head.ofToken_foundAt t e he)
  | case9 => exact foundAt_error rfl
  | case10 => exact foundAt_error rfl
  | case11 => exact foundAt_error rfl

theorem Expr.parseCall_foundAt (ts : List Token) : FoundAt .grammar (Expr.parseCall ts) := by
  cases ts with
  | nil => exact foundAt_error rfl
  | cons t ts => exact (Head.ofToken_foundAt t).bind fun head => parseArgs_foundAt _ _ ts

theorem Statement.parseValue_foundAt (ts : List Token) :
    FoundAt .grammar (Statement.parseValue ts) := by
  fun_cases Statement.parseValue ts with
  | case1 => exact foundAt_error rfl
  | case2 ts => exact Expr.parseCall_foundAt ts
  | case3 => exact foundAt_ok _
  | case4 => exact foundAt_error rfl

theorem Statement.parseAssign_foundAt (ts : List Token) :
    FoundAt .grammar (Statement.parseAssign ts) := by
  fun_cases Statement.parseAssign ts with
  | case1 => exact foundAt_error rfl
  | case2 target ts =>
    refine (parseValue_foundAt ts).bind fun read => ?_
    -- behind the value there must be the last parenthesis
    obtain ⟨value, rest⟩ := read
    dsimp only
    split
    · exact foundAt_error rfl
    · exact foundAt_ok _
    · exact foundAt_error rfl
  | case3 => exact foundAt_error rfl

/-- The tokens begin a definition. -/
def BeginsDefinition (ts : List Token) : Prop := ∃ rest, ts = .openPar :: .keyword .define :: rest

theorem Form.parseInner_foundAt {ts : List Token} (h : ¬ BeginsDefinition (.openPar :: ts)) :
    FoundAt .grammar (Form.parseInner ts) := by
  fun_cases Form.parseInner ts with
  | case1 k ts =>
    refine FoundAt.bind ?_ fun _ => foundAt_ok _
    cases k with
    | set => exact Statement.parseAssign_foundAt ts
    | define => exact absurd ⟨ts, rfl⟩ h
    | unknown code => exact foundAt_error rfl
  | case2 ts => exact (Expr.parseCall_foundAt ts).bind fun _ => foundAt_ok _

/-- Parsing finds errors of grammar, except in what begins as a definition. -/
theorem parse_foundAt {ts : List Token} (h : ¬ BeginsDefinition ts) :
    FoundAt .grammar (Form.parse ts) := by
  fun_cases Form.parse ts with
  | case1 ts =>
    refine (Form.parseInner_foundAt h).bind fun ⟨form, rest⟩ => ?_
    cases rest with
    | nil => exact foundAt_ok _
    | cons t rest => exact foundAt_error rfl
  | case2 => exact foundAt_error rfl

theorem parse_definition {ts : List Token} (h : BeginsDefinition ts) :
    Form.parse ts = .error .definition := by
  obtain ⟨rest, rfl⟩ := h
  rfl

/-! ## Running -/

/-- Running the line gives a value. -/
def Environment.Succeeds (env : Environment) (line : Bytes) : Prop := ∃ x, (env.run line).1 = .ok x

/-- Running the line gives an error of this kind. -/
def Environment.FailsAt (env : Environment) (line : Bytes) (k : ErrorKind) : Prop :=
  ∃ e, (env.run line).1 = .error (.error e) ∧ e.kind = k

theorem Environment.run_of_scan_error {line : Bytes} {e : Error}
    (h : Token.scan (Utf8.trim line) = .error e) (env : Environment) :
    (env.run line).1 = .error (.error e) := by
  have hline : Form.ofLine line = .error e := by rw [Form.ofLine, h]; rfl
  rw [run, hline]

theorem ofLine_of_scan {line : Bytes} {ts : List Token}
    (h : Token.scan (Utf8.trim line) = .ok ts) : Form.ofLine line = Form.parse ts := by
  rw [Form.ofLine, h]
  rfl

theorem Environment.run_of_parse_error {line : Bytes} {ts : List Token} {e : Error}
    (hscan : Token.scan (Utf8.trim line) = .ok ts) (hparse : Form.parse ts = .error e)
    (env : Environment) : (env.run line).1 = .error (.error e) := by
  rw [run, ofLine_of_scan hscan, hparse]

/-- The ways in which running a line can go. -/
theorem Environment.run_cases (env : Environment) (line : Bytes) :
    (∃ e, Token.scan (Utf8.trim line) = .error e ∧ e.kind = .lexical ∧
      (env.run line).1 = .error (.error e)) ∨
    (∃ ts, Token.scan (Utf8.trim line) = .ok ts ∧ BeginsDefinition ts ∧
      Form.parse ts = .error .definition ∧ (env.run line).1 = .error (.error .definition)) ∨
    (∃ ts e, Token.scan (Utf8.trim line) = .ok ts ∧ ¬ BeginsDefinition ts ∧
      Form.parse ts = .error e ∧ e.kind = .grammar ∧ (env.run line).1 = .error (.error e)) ∨
    (∃ ts form, Token.scan (Utf8.trim line) = .ok ts ∧ ¬ BeginsDefinition ts ∧
      Form.parse ts = .ok form ∧ Concludes (env.run line).1) := by
  cases hscan : Token.scan (Utf8.trim line) with
  | error e =>
    exact Or.inl ⟨e, rfl, scan_foundAt _ e hscan, run_of_scan_error hscan env⟩
  | ok ts =>
    right
    by_cases hdef : BeginsDefinition ts
    · have hparse := parse_definition hdef
      exact Or.inl ⟨ts, rfl, hdef, hparse, run_of_parse_error hscan hparse env⟩
    · right
      cases hparse : Form.parse ts with
      | error e =>
        exact Or.inl ⟨ts, e, rfl, hdef, hparse, parse_foundAt hdef e hparse,
          run_of_parse_error hscan hparse env⟩
      | ok form =>
        have hline : Form.ofLine line = .ok form := (ofLine_of_scan hscan).trans hparse
        exact Or.inr ⟨ts, form, rfl, hdef, hparse, run_concludes hline env⟩

/-! ## Reports -/

/-- A report with notes around it, the first note innermost. -/
def Report.annotated (r : Report) (notes : List String) : Report :=
  notes.foldl (fun r note => .noted note r) r

theorem Report.error?_annotated (r : Report) (notes : List String) :
    (r.annotated notes).error? = r.error? := by
  induction notes generalizing r with
  | nil => rfl
  | cons note notes ih => exact ih (.noted note r)

theorem Report.kind?_annotated (e : Error) (notes : List String) :
    ((Report.error e).annotated notes).kind? = some e.kind := by
  rw [kind?, error?_annotated]
  rfl

theorem Report.isNotImplemented_annotated (e : Error) (notes : List String) :
    ((Report.error e).annotated notes).isNotImplemented = true ↔ e.kind = .notImplemented := by
  rw [isNotImplemented, kind?_annotated, beq_iff_eq, Option.some.injEq]

/-- **The kind of an error names the stage.**  Running a line fails with a lexical error exactly if
    it cannot be scanned, as not implemented exactly if it is scanned and begins as a definition,
    and with an error of grammar exactly if it is scanned, begins otherwise and cannot be parsed.  A
    line that parses succeeds or fails with an error of evaluation.  A report of the error shows its
    kind through any notes, and shows the line as not implemented exactly if it begins as a
    definition. -/
theorem run_failure_iff (env : Environment) (line : Bytes) :
    (env.FailsAt line .lexical ↔ ∃ e, Token.scan (Utf8.trim line) = .error e) ∧
    (env.FailsAt line .notImplemented ↔
      ∃ ts, Token.scan (Utf8.trim line) = .ok ts ∧ BeginsDefinition ts) ∧
    (env.FailsAt line .grammar ↔
      ∃ ts, Token.scan (Utf8.trim line) = .ok ts ∧ ¬ BeginsDefinition ts ∧
        ∃ e, Form.parse ts = .error e) ∧
    (env.Succeeds line ∨ env.FailsAt line .eval ↔
      ∃ ts form, Token.scan (Utf8.trim line) = .ok ts ∧ Form.parse ts = .ok form) ∧
    (∀ e, (env.run line).1 = .error (.error e) → ∀ notes,
      ((Report.error e).annotated notes).kind? = some e.kind ∧
      (((Report.error e).annotated notes).isNotImplemented = true ↔
        ∃ ts, Token.scan (Utf8.trim line) = .ok ts ∧ BeginsDefinition ts)) := by
  simp only [Environment.FailsAt, Environment.Succeeds, Report.kind?_annotated,
    Report.isNotImplemented_annotated, true_and]
  -- in each case the tokens and the outcome are known, and every equivalence can be read off
  rcases env.run_cases line with ⟨e, hscan, hkind, hrun⟩ | ⟨ts, hscan, hdef, hparse, hrun⟩ |
    ⟨ts, e, hscan, hdef, hparse, hkind, hrun⟩ | ⟨ts, form, hscan, hdef, hparse, hrun⟩
  · simp [hscan, hrun, hkind]
  · have hkind : Error.definition.kind = .notImplemented := rfl
    simp [hscan, hrun, hkind, hdef, hparse]
  · simp [hscan, hrun, hkind, hdef, hparse]
  · cases hresult : (env.run line).1 with
    | ok x => simp [hscan, hdef, hparse]
    | error f =>
      obtain ⟨e, rfl, hkind⟩ := hrun f hresult
      simp [hscan, hkind, hdef, hparse]

end PrefixCalc
