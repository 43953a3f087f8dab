/-
  Lines that have nothing to do with each other can change places.

  1. **Specification** — `Environment.Spares`: what the first line assigns is neither mentioned nor
     assigned by the second.  An assignment whose right side has no value assigns nothing, and a line
     that is not read as a form mentions nothing.

  2. **Frame** (`run_setVariable`) — a line that neither mentions nor assigns a variable gives the
     same result whatever the variable is, and leaves it as it is.

  3. **Exchange** (`run_comm`) — what a line does is at most one assignment (`run_effect`), and that
     of the one line is a frame for the other.
-/
import PrefixCalc.Proofs.Environment.Agreement
import PrefixCalc.Proofs.Environment.Effect

namespace PrefixCalc

/-! ## What lines have to do with each other -/

/-- A variable of this name stands in the form. -/
def Form.Mentions (name : String) : Form → Prop
  | .expression e => e.Mentions name
  | .statement s => s.value.Mentions name
  | _ => False

/-- A variable of this name stands in the line. -/
def MentionsVariable (line : Bytes) (name : String) : Prop :=
  ∃ form, Form.ofLine line = .ok form ∧ form.Mentions name

namespace Environment

variable {env : Environment} {first second line : Bytes}

/-- What the first line assigns, the second neither mentions nor assigns. -/
def Spares (env : Environment) (first second : Bytes) : Prop :=
  ∀ name x, env.Assigns first name x →
    ¬ MentionsVariable second name ∧ ∀ y, ¬ env.Assigns second name y

/-- It does not take values to see that a line is spared: it is enough that it neither mentions the
    target of the other line nor has the same. -/
theorem spares_of_ofLine
    (h : ∀ name rhs, Form.ofLine first = .ok (.statement (.assign name rhs)) →
      ¬ MentionsVariable second name ∧
        ∀ rhs', Form.ofLine second ≠ .ok (.statement (.assign name rhs'))) :
    env.Spares first second := by
  rintro name x ⟨rhs, hline, -⟩
  obtain ⟨hmentions, htarget⟩ := h name rhs hline
  refine ⟨hmentions, ?_⟩
  rintro y ⟨rhs', hline', -⟩
  exact htarget rhs' hline'

/-! ## Frame -/

theorem setVariable_comm (env : Environment) {name other : String} (h : name ≠ other)
    (x y : Float) : (env.setVariable name x).setVariable other y =
      (env.setVariable other y).setVariable name x := by
  simp only [setVariable, env.vars.insert_comm h]

/-- Executing a form neither sees nor disturbs a variable with which it has nothing to do. -/
theorem exec_setVariable {form : Form} {name : String} (x : Float)
    (hmentions : ¬ form.Mentions name)
    (hassigns : ∀ rhs y, form = .statement (.assign name rhs) → rhs.eval env ≠ .ok y) :
    (env.setVariable name x).exec form =
      ((env.exec form).1, (env.exec form).2.setVariable name x) := by
  cases form with
  | nothing => rfl
  | missingStatement => rfl
  | expression e =>
    rw [exec_expression, exec_expression, Expr.eval_setVariable_of_not_mentions x hmentions]
  | statement s =>
    obtain ⟨kind, target, rhs⟩ := s
    cases kind with
    | define => rfl
    | unknown code => rfl
    | assign =>
      have hexec (env : Environment) := env.exec_assign target rhs
      simp only [Statement.assign] at hexec
      rw [hexec, hexec, Expr.eval_setVariable_of_not_mentions x hmentions]
      cases hvalue : rhs.eval env with
      | error f => rfl
      | ok y =>
        have hne : name ≠ target := by
          rintro rfl
          exact hassigns rhs y rfl hvalue
        show (Except.ok 0, (env.setVariable name x).setVariable target y) =
          (.ok 0, (env.setVariable target y).setVariable name x)
        rw [setVariable_comm env hne]

/-- Running a line neither sees nor disturbs a variable with which it has nothing to do. -/
theorem run_setVariable {name : String} (x : Float) (hmentions : ¬ MentionsVariable line name)
    (hassigns : ∀ y, ¬ env.Assigns line name y) :
    (env.setVariable name x).run line =
      ((env.run line).1, (env.run line).2.setVariable name x) := by
  rw [run, run]
  cases hline : Form.ofLine line with
  | error e => rfl
  | ok form =>
    refine exec_setVariable x (fun h => hmentions ⟨form, hline, h⟩) fun rhs y hform hvalue => ?_
    exact hassigns y ⟨rhs, hform ▸ hline, hvalue⟩

/-! ## Exchange -/

/-- After a line that spares it, a line has the result that it has at once. -/
theorem fst_run_of_spares (h : env.Spares first second) :
    ((env.run first).2.run second).1 = (env.run second).1 := by
  rcases env.run_effect first with ⟨name, x, hassign, hrun⟩ | ⟨-, hsame⟩
  · obtain ⟨hmentions, hassigns⟩ := h name x hassign
    rw [hrun, run_setVariable x hmentions hassigns]
  · rw [hsame]

/-- **Lines that have nothing to do with each other commute.**  Where neither line assigns a variable
    that the other assigns or mentions, they can be run in either order: each has the same result
    or the same error, and the environment is the same in the end.  A line may be an expression, an
    assignment, or be rejected at whatever stage. -/
theorem run_comm (h : env.Spares first second) (h' : env.Spares second first) :
    ((env.run first).2.run second).1 = (env.run second).1 ∧
    ((env.run second).2.run first).1 = (env.run first).1 ∧
    ((env.run first).2.run second).2 = ((env.run second).2.run first).2 := by
  refine ⟨fst_run_of_spares h, fst_run_of_spares h', ?_⟩
  rcases env.run_effect first with ⟨name, x, hassign, hrun⟩ | ⟨-, hsame⟩
  · obtain ⟨hmentions, hassigns⟩ := h name x hassign
    rw [hrun, run_setVariable x hmentions hassigns]
    rcases env.run_effect second with ⟨other, y, hassign', hrun'⟩ | ⟨-, hsame'⟩
    · obtain ⟨hmentions', hassigns'⟩ := h' other y hassign'
      have hne : other ≠ name := by
        rintro rfl
        exact hassigns y hassign'
      rw [hrun', run_setVariable y hmentions' hassigns', hrun]
      exact setVariable_comm env hne y x
    · rw [hsame', hrun]
  · rw [hsame]
    rcases env.run_effect second with ⟨other, y, hassign', hrun'⟩ | ⟨-, hsame'⟩
    · obtain ⟨hmentions', hassigns'⟩ := h' other y hassign'
      rw [hrun', run_setVariable y hmentions' hassigns', hsame]
    · rw [hsame', hsame]

/-- Two assignments that look at the same variable, of which one has no value. -/
theorem run_comm_of_two_assignments :
    let env := Environment.empty.setVariable "z" 2
    let first := Utf8.ofString "(set x (+ z pi))"
    let second := Utf8.ofString "(set y (- z y))"
    env.Spares first second ∧ env.Spares second first ∧
    ((env.run first).2.run second).1 = (env.run second).1 ∧
    ((env.run second).2.run first).1 = (env.run first).1 ∧
    ((env.run first).2.run second).2 = ((env.run second).2.run first).2 := by
  intro env first second
  have hfirst : Form.ofLine (Utf8.ofString "(set x (+ z pi))") =
      .ok (.statement (.assign "x" (.call (.operator .add) [.var "z", .var "pi"]))) := by cbv
  have hsecond : Form.ofLine (Utf8.ofString "(set y (- z y))") =
      .ok (.statement (.assign "y" (.call (.operator .sub) [.var "z", .var "y"]))) := by cbv
  have h : env.Spares first second := by
    refine spares_of_ofLine ?_
    simp [first, second, MentionsVariable, hfirst, hsecond, Form.Mentions, Statement.assign]
  have h' : env.Spares second first := by
    refine spares_of_ofLine ?_
    simp [first, second, MentionsVariable, hfirst, hsecond, Form.Mentions, Statement.assign]
  exact ⟨h, h', run_comm h h'⟩

end Environment

end PrefixCalc
