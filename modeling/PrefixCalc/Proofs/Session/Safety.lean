/-
  No line can crash the calculator.

  1. **Where a line could crash** — evaluation has `Fault.crash` for an expression that is missing,
     for an argument that is not there, and for an operator, a function or a constant outside of its
     table.  Scanning has one such place too, the first character of a word, but `Token.scanFrom`
     takes that character before it takes the rest, and no empty word can be written down there.

  2. **Scanning by whole words** — `Token.scanWords` only looks at the next character, takes the
     whole word from where it begins, and then asks the word for its first character.  A word is
     only begun at a character that is no delimiter, so there always is one, and both ways of
     scanning are the same (`scanWords_eq`).

  3. **Evaluation** — a line that parses is a complete tree, in whatever session it is parsed, and
     complete trees conclude in every environment (`Environment.run_concludes`).
-/
import PrefixCalc.Proofs.Environment.Outcome
import PrefixCalc.Proofs.Session.Transparency

namespace PrefixCalc

/-! ## Scanning by whole words -/

/-- A symbol in front that does not stop the taking is taken first. -/
theorem Cursor.takeUntil_push {α : Type} {stop : α → Bool} {a : α} (h : stop a = false)
    (c : Cursor α) :
    (c.push a).takeUntil stop = (a :: (c.takeUntil stop).1, (c.takeUntil stop).2) := by
  have hpop : (c.push a).pop? = some (a, c) := rfl
  rw [takeUntil]
  split
  · next hnone => rw [hpop] at hnone; cases hnone
  · next b c' hsome =>
    obtain ⟨rfl, rfl⟩ := Prod.mk.inj (Option.some.inj (hpop.symm.trans hsome))
    rw [if_neg (by rw [h]; exact Bool.false_ne_true)]

/-- A character that is neither white space nor a parenthesis is no delimiter. -/
theorem isDelimiter_eq_false_of_tests {c : Char} (hblank : ¬ isBlank c = true)
    (hopen : ¬ (c == '(') = true) (hclose : ¬ (c == ')') = true) : isDelimiter c = false := by
  rw [isDelimiter_eq_false_iff]
  exact ⟨Bool.not_eq_true _ ▸ hblank, fun h => hopen (beq_of_eq h), fun h => hclose (beq_of_eq h)⟩

namespace Token

/-- The token of a whole word.  It is decided by the first character, and an empty word has none. -/
def ofWholeWord : List Char → Except Fault Token
  | [] => .error .crash
  | first :: rest => (ofWord first rest).mapError .error

/-- The tokens that a reading head has still to deliver.  The next character is looked at and left
    in place, and a word is taken as a whole. -/
def scanWords (c : Cursor Char) : Except Fault (List Token) :=
  match _h : c.pop? with
  | none => .ok []
  | some (first, left) =>
    if isBlank first then scanWords left
    else if first == '(' then do
      let ts ← scanWords left
      return .openPar :: ts
    else if first == ')' then do
      let ts ← scanWords left
      return .closePar :: ts
    else do
      let word := (left.push first).takeUntil isDelimiter
      let t ← ofWholeWord word.1
      let ts ← scanWords word.2
      return t :: ts
termination_by c.contents.length
decreasing_by
  all_goals have := Cursor.length_contents_lt_of_pop? _h
  · exact this
  · exact this
  · exact this
  · next hblank hopen hclose =>
    rw [Cursor.takeUntil_push (isDelimiter_eq_false_of_tests hblank hopen hclose)]
    exact Nat.lt_of_le_of_lt (Cursor.length_contents_takeUntil_le isDelimiter left) this

theorem mapError_mapM_cons (l : Lexeme) (ls : List Lexeme) :
    ((l :: ls).mapM Lexeme.token).mapError Fault.error = (do
      let t ← l.token.mapError Fault.error
      let ts ← (ls.mapM Lexeme.token).mapError Fault.error
      return t :: ts) := by
  rw [List.mapM_cons]
  cases l.token with
  | error e => rfl
  | ok t => cases ls.mapM Lexeme.token <;> rfl

/-- Words are never empty when they are taken as a whole: the lexemes are the same. -/
theorem scanWords_eq (c : Cursor Char) :
    scanWords c = ((lexemes c.contents).mapM Lexeme.token).mapError .error := by
  fun_induction scanWords c with
  | case1 c h =>
    rw [Cursor.contents_of_pop?_none h]
    rfl
  | case2 c first left h hblank ih =>
    rw [Cursor.contents_of_pop?_some h, lexemes_cons_blank hblank, ih]
  | case3 c first left h hblank hopen ih =>
    rw [Cursor.contents_of_pop?_some h, eq_of_beq hopen, lexemes_cons_openPar, mapError_mapM_cons,
      ih]
    rfl
  | case4 c first left h hblank hopen hclose ih =>
    rw [Cursor.contents_of_pop?_some h, eq_of_beq hclose, lexemes_cons_closePar,
      mapError_mapM_cons, ih]
    rfl
  | case5 c first left h hblank hopen hclose word ih =>
    have hfirst := isDelimiter_eq_false_of_tests hblank hopen hclose
    have hword : word = (first :: (left.takeUntil isDelimiter).1, (left.takeUntil isDelimiter).2) :=
      Cursor.takeUntil_push hfirst left
    rw [Cursor.contents_of_pop?_some h, lexemes_cons_word hfirst, mapError_mapM_cons, ih, hword,
      Cursor.contents_takeUntil, Cursor.takeUntil_taken]
    rfl

end Token

/-! ## Lines -/

/-- No part of the form is missing. -/
inductive Form.IsComplete : Form → Prop
  | expression {e : Expr} : e.IsComplete → IsComplete (.expression e)
  | statement {s : Statement} : s.value.IsComplete → IsComplete (.statement s)

theorem Form.isComplete_of_ofLine {line : Bytes} {form : Form} (h : Form.ofLine line = .ok form) :
    form.IsComplete := by
  cases isLineTree_of_ofLine h with
  | call harg => exact .expression harg.isComplete
  | assign _ hvalue => exact .statement hvalue.isComplete

theorem Environment.run_ne_crash (env : Environment) (line : Bytes) :
    (env.run line).1 ≠ .error .crash := by
  intro hcrash
  cases hline : Form.ofLine line with
  | error e =>
    rw [run, hline] at hcrash
    cases hcrash
  | ok form =>
    obtain ⟨e, he, -⟩ := run_concludes hline env .crash hcrash
    cases he

/-- **No line crashes.**  Whatever the bytes of a line are, each word that scanning takes from it
    has a first character, so that scanning gives tokens or an error; parsing gives a form of which
    no part is missing, or an error; and running it gives a value or an error, in every environment,
    with aliases of any kind, and in every session that actions can lead to. -/
theorem no_line_crashes (line : Bytes) :
    (Token.scanWords (Cursor.ofList (Utf8.decode line)) = (Token.scan line).mapError .error ∧
      Token.scanWords (Cursor.ofList (Utf8.decode line)) ≠ .error .crash) ∧
    (∀ form, Form.ofLine line = .ok form → form.IsComplete) ∧
    (∀ env : Environment, (env.run line).1 ≠ .error .crash) ∧
    (∀ size actions,
      (∀ form, (((Session.new size).after actions).parse line).answer = .ok form →
        form.IsComplete) ∧
      (((Session.new size).after actions).run line).answer ≠ .error .crash) := by
  have hscan : Token.scanWords (Cursor.ofList (Utf8.decode line)) =
      (Token.scan line).mapError .error := by
    rw [Token.scanWords_eq, scan_eq, Cursor.contents_ofList]
  refine ⟨⟨hscan, ?_⟩, fun form => Form.isComplete_of_ofLine, fun env => env.run_ne_crash line, ?_⟩
  · rw [hscan]
    cases Token.scan line <;> nofun
  · intro size actions
    have hsound := Session.sound_after_new size actions
    refine ⟨fun form hform => ?_, ?_⟩
    · rw [(Session.parse_spec hsound line).1] at hform
      exact Form.isComplete_of_ofLine hform
    · rw [(Session.run_spec hsound line).1]
      exact Environment.run_ne_crash _ line

end PrefixCalc
