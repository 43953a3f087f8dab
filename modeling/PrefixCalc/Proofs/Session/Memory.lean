/-
  A session answers as if it remembered no line, whatever it remembers them with.

  1. **Two runs** — `Environment.trace` performs actions on an environment alone, where every line is
     scanned and parsed anew, and `Memory.trace` performs the same actions with a memory in which
     forms are looked up first.  Both list what each action answers and the environment it leaves.

  2. **The law** — `Memory.FindsLastAdded`: whatever has been done with a memory, to look a line up in
     it finds nothing, or the form that was added last under this line since the memory was
     cleared.  What it forgets, and when, is its own affair.

  3. **The invariant** — `Memory.Parsed`: what was added last under a line is the form that parsing
     gives.  Forms keep names and not what the names mean, so the invariant says nothing about the
     environment, and nothing that happens to the environment can break it.

  4. **Step and run** — one action does with the memory what keeps the invariant, and answers as the
     environment alone does (`Memory.act_spec`); by induction so does any list of actions
     (`Memory.trace_new_eq`).
-/
import PrefixCalc.Environment.Evaluate
import PrefixCalc.Proofs.Text.Encoding

namespace PrefixCalc

/-- The form of a line and of the line without the white space around it. -/
theorem ofLine_trim (line : Bytes) : Form.ofLine (Utf8.trim line) = Form.ofLine line := by
  rw [Form.ofLine, Form.ofLine, Utf8.trim_trim]

/-! ## Actions -/

/-- What can be done with a session and its environment.  A line can be any bytes, the names that are
    given from outside are texts of characters. -/
inductive Action
  | run (line : Bytes)
  | parse (line : Bytes)
  | reset
  | setVariable (name : String) (value : Float)
  | setAlias (name : String) (f : Builtin)
  | clear

/-- What an action answers. -/
inductive Answer
  | value (result : Except Fault Float)
  | form (result : Except Error Form)
  | done

/-- An action where no line is remembered: the answer, and the environment after it. -/
def Environment.act (env : Environment) : Action → Answer × Environment
  | .run line => (.value (env.run line).1, (env.run line).2)
  | .parse line => (.form (Form.ofLine line), env)
  | .reset => (.done, .empty)
  | .setVariable name value => (.done, env.setVariable name value)
  | .setAlias name f => (.done, env.setAlias name f)
  | .clear => (.done, .empty)

/-- The answers of a list of actions where no line is remembered, each with the environment after
    it. -/
def Environment.trace (env : Environment) : List Action → List (Answer × Environment)
  | [] => []
  | action :: rest => env.act action :: (env.act action).2.trace rest

/-! ## Memories -/

/-- Something that keeps forms under their lines.  To look a line up may change it. -/
structure Memory where
  State : Type
  new : State
  find? : State → Bytes → Option Form × State
  add : State → Bytes → Form → State
  clear : State → State

namespace Memory

/-- What can be done with a memory. -/
inductive Use
  | find (line : Bytes)
  | add (line : Bytes) (form : Form)
  | clear

/-- The form under a line is the one that is added, and there is none after clearing. -/
def Use.added? (line : Bytes) (before : Option Form) : Use → Option Form
  | .find _ => before
  | .add other form => if other = line then some form else before
  | .clear => none

/-- The form that was added last under a line, unless everything was cleared since. -/
def lastAdded? (uses : List Use) (line : Bytes) : Option Form :=
  uses.foldl (fun before use => use.added? line before) none

/-- What was added last under a line is the form that parsing the line gives. -/
def Parsed (uses : List Use) : Prop :=
  ∀ line form, lastAdded? uses line = some form → Form.ofLine line = .ok form

variable (m : Memory)

/-- The memory after one use of it. -/
def use (state : m.State) : Use → m.State
  | .find line => (m.find? state line).2
  | .add line form => m.add state line form
  | .clear => m.clear state

/-- A new memory after it has been used. -/
def after (uses : List Use) : m.State := uses.foldl m.use m.new

/-- However a memory has been used, it finds nothing under a line, or what was added last. -/
def FindsLastAdded : Prop :=
  ∀ uses line form, (m.find? (m.after uses) line).1 = some form → lastAdded? uses line = some form

/-- The form of a line: what is found under the line without the white space around it, and else what
    parsing gives, which is then added. -/
def parse (state : m.State) (line : Bytes) : Except Error Form × m.State :=
  let key := Utf8.trim line
  match m.find? state key with
  | (some form, state) => (.ok form, state)
  | (none, state) =>
    match Form.ofLine line with
    | .ok form => (.ok form, m.add state key form)
    | .error e => (.error e, state)

/-- Runs a line: the answer, and the environment and the memory after it. -/
def run (env : Environment) (state : m.State) (line : Bytes) :
    Except Fault Float × Environment × m.State :=
  match m.parse state line with
  | (.ok form, state) => ((env.exec form).1, (env.exec form).2, state)
  | (.error e, state) => (.error (.error e), env, state)

/-- An action on an environment and a memory. -/
def act (env : Environment) (state : m.State) : Action → Answer × Environment × m.State
  | .run line =>
    let (answer, env, state) := m.run env state line
    (.value answer, env, state)
  | .parse line =>
    let (answer, state) := m.parse state line
    (.form answer, env, state)
  | .reset => (.done, .empty, m.clear state)
  | .setVariable name value => (.done, env.setVariable name value, state)
  | .setAlias name f => (.done, env.setAlias name f, state)
  | .clear => (.done, .empty, state)

/-- The answers of a list of actions, each with the environment after it. -/
def trace (env : Environment) (state : m.State) : List Action → List (Answer × Environment)
  | [] => []
  | action :: rest =>
    let (answer, env, state) := m.act env state action
    (answer, env) :: trace env state rest

/-! ## Uses one after another -/

theorem lastAdded?_concat (uses : List Use) (use : Use) (line : Bytes) :
    lastAdded? (uses ++ [use]) line = use.added? line (lastAdded? uses line) := by
  rw [lastAdded?, List.foldl_append]
  rfl

theorem after_concat (uses : List Use) (use : Use) :
    m.after (uses ++ [use]) = m.use (m.after uses) use := by
  rw [after, List.foldl_append]
  rfl

theorem parsed_nil : Parsed [] := by
  intro line form h
  cases h

variable {uses : List Use}

theorem Parsed.find (h : Parsed uses) (line : Bytes) : Parsed (uses ++ [.find line]) := by
  intro other form hadded
  rw [lastAdded?_concat] at hadded
  exact h other form hadded

theorem Parsed.add (h : Parsed uses) {line : Bytes} {form : Form}
    (hform : Form.ofLine line = .ok form) : Parsed (uses ++ [.add line form]) := by
  intro other form' hadded
  rw [lastAdded?_concat, Use.added?] at hadded
  split at hadded
  · next hline =>
    cases hadded
    exact hline ▸ hform
  · -- another line keeps what it had
    exact h other form' hadded

theorem Parsed.clear : Parsed (uses ++ [.clear]) := by
  intro line form hadded
  rw [lastAdded?_concat] at hadded
  cases hadded

/-! ## Steps and runs -/

variable {m}

/-- To look a line up in a memory or to parse it comes to the same form. -/
theorem parse_spec (hm : m.FindsLastAdded) (h : Parsed uses) (line : Bytes) :
    ∃ uses', Parsed uses' ∧ m.parse (m.after uses) line = (Form.ofLine line, m.after uses') := by
  have hfound := hm uses (Utf8.trim line)
  have hstate := m.after_concat uses (.find (Utf8.trim line))
  rw [use] at hstate
  rw [parse]
  cases hlook : m.find? (m.after uses) (Utf8.trim line) with
  | mk found state =>
    rw [hlook] at hfound hstate
    cases found with
    | some form =>
      -- what is found was added last, and so it was parsed
      have hform := h _ form (hfound form rfl)
      rw [ofLine_trim] at hform
      exact ⟨_, h.find (Utf8.trim line), by rw [hform, hstate]⟩
    | none =>
      cases hform : Form.ofLine line with
      | ok form =>
        refine ⟨_, (h.find (Utf8.trim line)).add ((ofLine_trim line).trans hform), ?_⟩
        rw [after_concat, hstate]
        rfl
      | error e => exact ⟨_, h.find (Utf8.trim line), by rw [hstate]⟩

theorem run_spec (hm : m.FindsLastAdded) (h : Parsed uses) (env : Environment) (line : Bytes) :
    ∃ uses', Parsed uses' ∧
      m.run env (m.after uses) line = ((env.run line).1, (env.run line).2, m.after uses') := by
  obtain ⟨uses', h', hparse⟩ := parse_spec hm h line
  refine ⟨uses', h', ?_⟩
  rw [run, hparse, Environment.run]
  cases Form.ofLine line with
  | ok form => rfl
  | error e => rfl

/-- One action: the same answer and the same environment, and what is done with the memory keeps the
    invariant. -/
theorem act_spec (hm : m.FindsLastAdded) (h : Parsed uses) (env : Environment) (action : Action) :
    ∃ uses', Parsed uses' ∧
      m.act env (m.after uses) action = ((env.act action).1, (env.act action).2, m.after uses') := by
  cases action with
  | run line =>
    obtain ⟨uses', h', hrun⟩ := run_spec hm h env line
    exact ⟨uses', h', by rw [act, hrun]; rfl⟩
  | parse line =>
    obtain ⟨uses', h', hparse⟩ := parse_spec hm h line
    exact ⟨uses', h', by rw [act, hparse]; rfl⟩
  | reset => exact ⟨_, Parsed.clear, by rw [after_concat]; rfl⟩
  | setVariable name value => exact ⟨uses, h, rfl⟩
  | setAlias name f => exact ⟨uses, h, rfl⟩
  | clear => exact ⟨uses, h, rfl⟩

theorem trace_eq (hm : m.FindsLastAdded) (h : Parsed uses) (env : Environment)
    (actions : List Action) : m.trace env (m.after uses) actions = env.trace actions := by
  induction actions generalizing env uses with
  | nil => rfl
  | cons action rest ih =>
    obtain ⟨uses', h', hact⟩ := act_spec hm h env action
    rw [trace, hact]
    show env.act action :: m.trace (env.act action).2 (m.after uses') rest =
      env.act action :: (env.act action).2.trace rest
    rw [ih h']

/-- **A memory cannot be noticed**, whatever it is: if to look a line up finds nothing but what was
    added last under the line, every list of actions answers step by step as it does without a
    memory, and leaves the same environments. -/
theorem trace_new_eq (hm : m.FindsLastAdded) (actions : List Action) :
    m.trace .empty m.new actions = Environment.empty.trace actions :=
  trace_eq hm parsed_nil .empty actions

end Memory

end PrefixCalc
