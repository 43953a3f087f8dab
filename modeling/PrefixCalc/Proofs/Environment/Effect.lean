/-
  What a run of lines does to an environment.

  1. **Specification** — `Environment.Assigns`: a line is read as an assignment, and its right side
     has a value before the line is run.  `Environment.Bindings` collects the assignments along a
     list of lines: a line that assigns adds one binding, which the lines after it can see, and
     every other line is passed over.

  2. **Program** — `Environment.run`, one line after another (`Environment.after`).

  3. **Step and run** — a line either assigns, and then it answers zero and has no other effect, or
     it has no effect at all, whether it is an expression or fails at any stage
     (`Environment.run_effect`).  Executing a form gives an environment back even where it fails;
     that it is the one from before has to be proved (`Environment.exec_of_error`).  By induction
     the variables after a run are those before it with the bindings inserted one after another, and
     the aliases are those before it.
-/
import PrefixCalc.Environment.Evaluate

namespace PrefixCalc

namespace Environment

/-! ## Assignments -/

/-- The line is an assignment to a name, and its right side has a value. -/
def Assigns (env : Environment) (line : Bytes) (name : String) (x : Float) : Prop :=
  ∃ rhs : Expr, Form.ofLine line = .ok (.statement (.assign name rhs)) ∧ rhs.eval env = .ok x

/-- The bindings that lines make one after another, each line in the environment that the bindings
    before it have led to. -/
inductive Bindings : Environment → List Bytes → List (String × Float) → Prop
  | nil (env : Environment) : Bindings env [] []
  | assigned {env : Environment} {line : Bytes} {name : String} {x : Float} {lines : List Bytes}
      {bs : List (String × Float)} : env.Assigns line name x →
      Bindings (env.setVariable name x) lines bs → Bindings env (line :: lines) ((name, x) :: bs)
  | passed {env : Environment} {line : Bytes} {lines : List Bytes} {bs : List (String × Float)} :
      (∀ name x, ¬ env.Assigns line name x) → Bindings env lines bs →
      Bindings env (line :: lines) bs

/-- A line assigns one value to one name. -/
theorem Assigns.unique {env : Environment} {line : Bytes} {name name' : String} {x x' : Float}
    (h : env.Assigns line name x) (h' : env.Assigns line name' x') : name = name' ∧ x = x' := by
  obtain ⟨rhs, hline, hvalue⟩ := h
  obtain ⟨rhs', hline', hvalue'⟩ := h'
  have hform := Except.ok.inj (hline.symm.trans hline')
  injection hform with hstatement
  injection hstatement with _ hname hrhs
  subst hrhs
  exact ⟨hname, Except.ok.inj (hvalue.symm.trans hvalue')⟩

theorem Bindings.unique {env : Environment} {lines : List Bytes} {bs bs' : List (String × Float)}
    (h : env.Bindings lines bs) (h' : env.Bindings lines bs') : bs' = bs := by
  induction h generalizing bs' with
  | nil => cases h'; rfl
  | assigned hassign _ ih =>
    cases h' with
    | assigned hassign' hrest' =>
      obtain ⟨rfl, rfl⟩ := hassign.unique hassign'
      rw [ih hrest']
    | passed hpass _ => exact absurd hassign (hpass _ _)
  | passed hpass _ ih =>
    cases h' with
    | assigned hassign' _ => exact absurd hassign' (hpass _ _)
    | passed _ hrest' => exact ih hrest'

/-! ## One line -/

/-- An expression is evaluated, and nothing else. -/
theorem exec_expression (env : Environment) (e : Expr) :
    env.exec (.expression e) = (e.eval env, env) := rfl

/-- An assignment takes place after its right side has been evaluated. -/
theorem exec_assign (env : Environment) (name : String) (rhs : Expr) :
    env.exec (.statement (.assign name rhs)) =
      match rhs.eval env with
      | .ok x => (.ok 0, env.setVariable name x)
      | .error f => (.error f, env) := by
  simp only [exec, Form.exec, Statement.exec, Statement.assign]
  cases rhs.eval env with
  | ok x => rfl
  | error f => rfl

/-- Executing a form assigns a value that its right side has, or leaves everything as it is. -/
theorem exec_effect (env : Environment) (form : Form) :
    (∃ name rhs x, form = .statement (.assign name rhs) ∧ rhs.eval env = .ok x ∧
      env.exec form = (.ok 0, env.setVariable name x)) ∨
    ((∀ name rhs x, form = .statement (.assign name rhs) → rhs.eval env ≠ .ok x) ∧
      (env.exec form).2 = env) := by
  cases form with
  | expression e => exact Or.inr ⟨nofun, by rw [exec_expression]⟩
  | statement s =>
    obtain ⟨kind, name, rhs⟩ := s
    cases kind with
    | assign =>
      have hexec := env.exec_assign name rhs
      cases hvalue : rhs.eval env with
      | ok x =>
        left
        rw [hvalue] at hexec
        exact ⟨name, rhs, x, rfl, hvalue, hexec⟩
      | error f =>
        right
        rw [hvalue] at hexec
        refine ⟨?_, congrArg Prod.snd hexec⟩
        intro name' rhs' x hform
        injection hform with hstatement
        injection hstatement with _ _ hrhs
        rw [← hrhs, hvalue]
        nofun
    | define => exact Or.inr ⟨nofun, rfl⟩
    | unknown code => exact Or.inr ⟨nofun, rfl⟩
  | missingStatement => exact Or.inr ⟨nofun, rfl⟩
  | nothing => exact Or.inr ⟨nofun, rfl⟩

/-- A form that fails leaves everything as it is. -/
theorem exec_of_error {env : Environment} {form : Form} {f : Fault}
    (h : (env.exec form).1 = .error f) : (env.exec form).2 = env := by
  rcases env.exec_effect form with ⟨name, rhs, x, -, -, hexec⟩ | ⟨-, hsame⟩
  · rw [hexec] at h
    cases h
  · exact hsame

/-- Running a line assigns a value, or leaves everything as it is. -/
theorem run_effect (env : Environment) (line : Bytes) :
    (∃ name x, env.Assigns line name x ∧ env.run line = (.ok 0, env.setVariable name x)) ∨
    ((∀ name x, ¬ env.Assigns line name x) ∧ (env.run line).2 = env) := by
  rw [run]
  cases hline : Form.ofLine line with
  | error e =>
    right
    refine ⟨?_, rfl⟩
    rintro name x ⟨rhs, hform, -⟩
    rw [hline] at hform
    nomatch hform
  | ok form =>
    rcases env.exec_effect form with ⟨name, rhs, x, rfl, hvalue, hexec⟩ | ⟨hnone, hsame⟩
    · exact Or.inl ⟨name, x, ⟨rhs, hline, hvalue⟩, hexec⟩
    · right
      refine ⟨?_, hsame⟩
      rintro name x ⟨rhs, hform, hvalue⟩
      rw [hline] at hform
      exact hnone name rhs x (Except.ok.inj hform) hvalue

/-- A line that does not assign leaves everything as it is. -/
theorem run_of_not_assigns {env : Environment} {line : Bytes}
    (h : ∀ name x, ¬ env.Assigns line name x) : (env.run line).2 = env := by
  rcases env.run_effect line with ⟨name, x, hassign, -⟩ | ⟨-, hsame⟩
  · exact absurd hassign (h name x)
  · exact hsame

/-- A line that assigns answers zero, and has no other effect. -/
theorem run_of_assigns {env : Environment} {line : Bytes} {name : String} {x : Float}
    (h : env.Assigns line name x) : env.run line = (.ok 0, env.setVariable name x) := by
  rcases env.run_effect line with ⟨name', x', hassign, hrun⟩ | ⟨hnone, -⟩
  · obtain ⟨rfl, rfl⟩ := h.unique hassign
    exact hrun
  · exact absurd h (hnone name x)

/-- A line that fails, at whatever stage, leaves everything as it is. -/
theorem run_of_error {env : Environment} {line : Bytes} {f : Fault}
    (h : (env.run line).1 = .error f) : (env.run line).2 = env := by
  rw [run] at h ⊢
  cases hline : Form.ofLine line with
  | error e => rfl
  | ok form =>
    rw [hline] at h
    exact exec_of_error h

/-! ## Lines one after another -/

/-- The environment after lines have been run. -/
def after (env : Environment) (lines : List Bytes) : Environment :=
  lines.foldl (fun env line => (env.run line).2) env

/-- The environment with bindings inserted, the later over the earlier. -/
def bindAll (env : Environment) (bs : List (String × Float)) : Environment :=
  { env with vars := env.vars.insertAll bs }

/-- Every run makes its bindings, and does nothing else. -/
theorem exists_bindings_after (env : Environment) (lines : List Bytes) :
    ∃ bs, env.Bindings lines bs ∧ env.after lines = env.bindAll bs := by
  induction lines generalizing env with
  | nil => exact ⟨[], .nil env, rfl⟩
  | cons line lines ih =>
    have hafter : env.after (line :: lines) = (env.run line).2.after lines := rfl
    rw [hafter]
    rcases env.run_effect line with ⟨name, x, hassign, hrun⟩ | ⟨hnone, hsame⟩
    · obtain ⟨bs, hbs, hbound⟩ := ih (env.setVariable name x)
      rw [hrun]
      exact ⟨(name, x) :: bs, .assigned hassign hbs, hbound⟩
    · obtain ⟨bs, hbs, hbound⟩ := ih env
      rw [hsame]
      exact ⟨bs, .passed hnone hbs, hbound⟩

/-- **The effect of a run of lines** is one binding for each line that is an assignment whose right
    side has a value when its turn comes: the variables after the run are those before it with
    these bindings inserted in order, so that the last binding of a name decides, and the aliases
    are those before it.  A line that assigns answers zero; expressions, and lines that fail at
    whatever stage, change nothing. -/
theorem after_eq_bindAll (env : Environment) (lines : List Bytes) :
    (∃ bs, env.Bindings lines bs ∧ (∀ bs', env.Bindings lines bs' → bs' = bs) ∧
      (env.after lines).aliases = env.aliases ∧
      (env.after lines).vars = env.vars.insertAll bs ∧
      ∀ name, (env.after lines).vars.find? name =
        (bs.reverse.lookup name).or (env.vars.find? name)) ∧
    (∀ line,
      (∀ name x, env.Assigns line name x → env.run line = (.ok 0, env.setVariable name x)) ∧
      (∀ e, Form.ofLine line = .ok (.expression e) → (env.run line).2 = env) ∧
      (∀ f, (env.run line).1 = .error f → (env.run line).2 = env)) := by
  refine ⟨?_, fun line => ⟨fun name x => run_of_assigns, ?_, fun f => run_of_error⟩⟩
  · obtain ⟨bs, hbs, hafter⟩ := env.exists_bindings_after lines
    refine ⟨bs, hbs, fun bs' hbs' => hbs.unique hbs', ?_, ?_, fun name => ?_⟩
    · rw [hafter]; rfl
    · rw [hafter]; rfl
    · rw [hafter]
      exact env.vars.find?_insertAll bs name
  · intro e hline
    refine run_of_not_assigns ?_
    rintro name x ⟨rhs, hform, -⟩
    rw [hline] at hform
    nomatch hform

end Environment

end PrefixCalc
