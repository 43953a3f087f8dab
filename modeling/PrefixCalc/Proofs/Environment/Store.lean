/-
  What an environment holds is what its history last wrote.

  1. **Specification** — `Environment.Defines`: an action gives a name a meaning, a variable its value
     or an alias its function; a line does so when it assigns.  `LastDefines`: somewhere in a history an
     action makes this definition, and no later one clears the environment or defines the same name in
     the same table.

  2. **Program** — `Environment.act`, one action after another on a new environment, and the listings
     of its two tables with the rows that the console prints of them.

  3. **Step and run** — an action clears everything, makes one definition, or does nothing
     (`Environment.act_cases`); so what holds after it was just defined, or held before and was
     retained (`Environment.holds_act_iff`).  By induction from the end of the history this adds up
     to `LastDefines` (`Environment.holds_afterAll_iff`).
-/
import Mathlib.Data.List.Basic
import Mathlib.Data.List.Induction
import PrefixCalc.Proofs.Environment.Effect
import PrefixCalc.Proofs.Session.Transparency
import PrefixCalc.Proofs.Text.ByteOrder
import PrefixCalc.Console.Basic

namespace PrefixCalc

/-! ## Definitions -/

/-- A name in one of the two tables, with what it means there. -/
inductive Definition
  | ofVariable (name : String) (value : Float)
  | ofAlias (name : String) (f : Builtin)

/-- The table and the name that a definition is for: variables on the left, aliases on the right. -/
def Definition.place : Definition → String ⊕ String
  | .ofVariable name _ => .inl name
  | .ofAlias name _ => .inr name

/-- The action leaves nothing defined. -/
def Action.clears : Action → Bool
  | .clear | .reset => true
  | _ => false

namespace Environment

/-- The environment with one more definition, in the place of an earlier one. -/
def define (env : Environment) : Definition → Environment
  | .ofVariable name value => env.setVariable name value
  | .ofAlias name f => env.setAlias name f

/-- The definition is in force. -/
def Holds (env : Environment) : Definition → Prop
  | .ofVariable name value => env.vars.find? name = some value
  | .ofAlias name f => env.aliases.find? name = some f

/-- The action makes a definition.  A line makes the one of its assignment, whose value is that of
    the right side in the environment before. -/
inductive Defines (env : Environment) : Action → Definition → Prop
  | setVariable (name : String) (value : Float) :
      Defines env (.setVariable name value) (.ofVariable name value)
  | setAlias (name : String) (f : Builtin) : Defines env (.setAlias name f) (.ofAlias name f)
  | run {line : Bytes} {name : String} {x : Float} : env.Assigns line name x →
      Defines env (.run line) (.ofVariable name x)

/-- The action neither clears the environment nor puts something in the place of the definition. -/
def Retains (env : Environment) (action : Action) (d : Definition) : Prop :=
  action.clears = false ∧ ∀ d', env.Defines action d' → d'.place ≠ d.place

/-- The environment after a list of actions. -/
def afterAll (env : Environment) (actions : List Action) : Environment :=
  actions.foldl (fun env action => (env.act action).2) env

end Environment

/-- The last word of a history on a place: an action makes the definition, and every action after it
    retains the definition.  Each action is seen in the environment that those before it lead to. -/
def LastDefines (actions : List Action) (d : Definition) : Prop :=
  ∃ before action later, actions = before ++ action :: later ∧
    (Environment.empty.afterAll before).Defines action d ∧
    ∀ between next rest, later = between ++ next :: rest →
      (Environment.empty.afterAll (before ++ action :: between)).Retains next d

/-! ## One action -/

namespace Environment

theorem not_holds_empty (d : Definition) : ¬ empty.Holds d := by
  intro h
  cases d with
  | ofVariable name value => cases h
  | ofAlias name f => cases h

/-- A definition comes into force, and those in other places stay. -/
theorem holds_define_iff (env : Environment) (d' d : Definition) :
    (env.define d').Holds d ↔ d = d' ∨ env.Holds d ∧ d'.place ≠ d.place := by
  cases d' with
  | ofVariable name value =>
    cases d with
    | ofVariable other x =>
      simp only [define, setVariable, Holds, NameTable.find?_insert_eq_some_iff,
        Definition.ofVariable.injEq, Definition.place, ne_eq, Sum.inl.injEq]
    | ofAlias other g => simp [define, setVariable, Holds, Definition.place]
  | ofAlias name f =>
    cases d with
    | ofVariable other x => simp [define, setAlias, Holds, Definition.place]
    | ofAlias other g =>
      simp only [define, setAlias, Holds, NameTable.find?_insert_eq_some_iff,
        Definition.ofAlias.injEq, Definition.place, ne_eq, Sum.inr.injEq]

/-- What an action can do: clear everything, make one definition, or nothing. -/
theorem act_cases (env : Environment) (action : Action) :
    (action.clears = true ∧ (∀ d, ¬ env.Defines action d) ∧ (env.act action).2 = empty) ∨
    (action.clears = false ∧ ∃ d', (∀ d, env.Defines action d ↔ d = d') ∧
      (env.act action).2 = env.define d') ∨
    (action.clears = false ∧ (∀ d, ¬ env.Defines action d) ∧ (env.act action).2 = env) := by
  cases action with
  | run line =>
    right
    rcases env.run_effect line with ⟨name, x, hassign, hrun⟩ | ⟨hnone, hsame⟩
    · left
      refine ⟨rfl, .ofVariable name x, fun d => ⟨?_, ?_⟩, congrArg Prod.snd hrun⟩
      · rintro ⟨⟩
        next hassign' =>
        obtain ⟨rfl, rfl⟩ := hassign.unique hassign'
        rfl
      · rintro rfl
        exact .run hassign
    · right
      refine ⟨rfl, ?_, hsame⟩
      rintro d ⟨⟩
      next hassign => exact hnone _ _ hassign
  | parse line =>
    right; right
    refine ⟨rfl, ?_, rfl⟩
    rintro d ⟨⟩
  | reset =>
    left
    refine ⟨rfl, ?_, rfl⟩
    rintro d ⟨⟩
  | clear =>
    left
    refine ⟨rfl, ?_, rfl⟩
    rintro d ⟨⟩
  | setVariable name value =>
    right; left
    refine ⟨rfl, .ofVariable name value, fun d => ⟨?_, ?_⟩, rfl⟩
    · rintro ⟨⟩
      rfl
    · rintro rfl
      exact .setVariable name value
  | setAlias name f =>
    right; left
    refine ⟨rfl, .ofAlias name f, fun d => ⟨?_, ?_⟩, rfl⟩
    · rintro ⟨⟩
      rfl
    · rintro rfl
      exact .setAlias name f

/-- What is in force after an action was just defined, or was in force before and is retained. -/
theorem holds_act_iff (env : Environment) (action : Action) (d : Definition) :
    (env.act action).2.Holds d ↔ env.Defines action d ∨ env.Holds d ∧ env.Retains action d := by
  rcases env.act_cases action with ⟨hclears, hnone, hact⟩ | ⟨hclears, d', hdefines, hact⟩ |
    ⟨hclears, hnone, hact⟩
  · -- everything is cleared
    rw [hact]
    constructor
    · intro h
      exact absurd h (not_holds_empty d)
    · rintro (h | ⟨-, hkept, -⟩)
      · exact absurd h (hnone d)
      · rw [hclears] at hkept
        cases hkept
  · -- one definition is made, so retaining is being in another place
    have hretains : env.Retains action d ↔ d'.place ≠ d.place := by
      simp only [Retains, hclears, true_and, hdefines, forall_eq]
    rw [hact, holds_define_iff, hdefines, hretains]
  · have hretains : env.Retains action d := ⟨hclears, fun d' h => absurd h (hnone d')⟩
    rw [hact]
    constructor
    · intro h
      exact Or.inr ⟨h, hretains⟩
    · rintro (h | ⟨h, -⟩)
      · exact absurd h (hnone d)
      · exact h

/-! ## Whole histories -/

theorem afterAll_concat (env : Environment) (actions : List Action) (action : Action) :
    env.afterAll (actions ++ [action]) = ((env.afterAll actions).act action).2 := by
  rw [afterAll, List.foldl_append]
  rfl

end Environment

/-- Where a list with one more element at its end is cut in front of an element: at the new one, or
    where the list itself is cut. -/
theorem concat_eq_append_cons_iff {α : Type} {l before later : List α} {a b : α} :
    l ++ [a] = before ++ b :: later ↔
      before = l ∧ b = a ∧ later = [] ∨ ∃ rest, later = rest ++ [a] ∧ l = before ++ b :: rest := by
  constructor
  · intro h
    rcases List.eq_nil_or_concat' later with rfl | ⟨rest, last, rfl⟩
    · obtain ⟨rfl, hlast⟩ := List.append_inj' h rfl
      exact Or.inl ⟨rfl, (List.cons.inj hlast).1.symm, rfl⟩
    · have hcut : l ++ [a] = (before ++ b :: rest) ++ [last] := by
        rw [h, List.append_assoc, List.cons_append]
      obtain ⟨rfl, hlast⟩ := List.append_inj' hcut rfl
      exact Or.inr ⟨rest, by rw [hlast], rfl⟩
  · rintro (⟨rfl, rfl, rfl⟩ | ⟨rest, rfl, rfl⟩)
    · rfl
    · rw [List.append_assoc, List.cons_append]

/-- One more action: the last word is its own, or the one before it that it retains. -/
theorem lastDefines_concat_iff (actions : List Action) (action : Action) (d : Definition) :
    LastDefines (actions ++ [action]) d ↔
      (Environment.empty.afterAll actions).Defines action d ∨
        LastDefines actions d ∧ (Environment.empty.afterAll actions).Retains action d := by
  constructor
  · rintro ⟨before, definer, later, hcut, hdefines, hlater⟩
    rcases concat_eq_append_cons_iff.1 hcut with ⟨rfl, rfl, rfl⟩ | ⟨later', rfl, rfl⟩
    · exact Or.inl hdefines
    · right
      refine ⟨⟨before, definer, later', rfl, hdefines, fun between next rest hcut => ?_⟩, ?_⟩
      · have hcut' : later' ++ [action] = between ++ next :: (rest ++ [action]) :=
          concat_eq_append_cons_iff.2 (Or.inr ⟨rest, rfl, hcut⟩)
        exact hlater between next (rest ++ [action]) hcut'
      · exact hlater later' action [] rfl
  · rintro (hdefines | ⟨⟨before, definer, later, rfl, hdefines, hlater⟩, hretains⟩)
    · refine ⟨actions, action, [], rfl, hdefines, fun between next rest hcut => ?_⟩
      cases between with
      | nil => cases hcut
      | cons _ _ => cases hcut
    · refine ⟨before, definer, later ++ [action], ?_, hdefines, fun between next rest hcut => ?_⟩
      · rw [List.append_assoc, List.cons_append]
      -- a later action is the new one, or was there before
      rcases concat_eq_append_cons_iff.1 hcut with ⟨rfl, rfl, rfl⟩ | ⟨rest', -, hcut'⟩
      · exact hretains
      · exact hlater between next rest' hcut'

/-- What is in force after a history on a new environment is the last word of the history. -/
theorem Environment.holds_afterAll_iff (actions : List Action) (d : Definition) :
    (empty.afterAll actions).Holds d ↔ LastDefines actions d := by
  induction actions using List.reverseRecOn with
  | nil =>
    constructor
    · intro h
      exact absurd h (not_holds_empty d)
    · rintro ⟨before, action, later, hsplit, -⟩
      cases before with
      | nil => cases hsplit
      | cons _ _ => cases hsplit
  | append_singleton actions action ih =>
    rw [afterAll_concat, holds_act_iff, lastDefines_concat_iff, ih]

/-! ## Listings -/

/-- The entries are those with this property, in strictly increasing order of the bytes of their
    names, so that no name is listed twice. -/
structure Lists {α : Type} (entries : List (String × α)) (p : String → α → Prop) : Prop where
  mem_iff : ∀ name value, (name, value) ∈ entries ↔ p name value
  increasing : entries.Pairwise fun a b => Utf8.ofString a.1 < Utf8.ofString b.1

/-- A table lists the names that are found in it. -/
theorem NameTable.lists_entries {α : Type} (t : NameTable α) :
    Lists t.entries fun name value => t.find? name = some value where
  mem_iff _ _ := mem_entries_iff
  increasing := t.increasing.imp Utf8.ofString_lt_ofString

/-- The rows that the console prints are those of the two tables. -/
theorem Environment.rows_eq (env : Environment) :
    Console.rows env = env.listVariables.map (fun entry => (entry.1, numberText entry.2)) ++
      env.aliases.entries.map fun entry => (entry.1, "-> " ++ entry.2.name) := by
  rw [Console.rows, listFunctions, env.aliases.filterMap_names fun name f => (name, "-> " ++ f.name)]

/-- **An environment is a store of what was last written.**  After any actions on a new environment,
    lines that fail among them, a name has as a variable the value that was last given to it since
    everything was last cleared, and none if there was no such value; and the same for aliases, in a
    table apart.  Both listings are in strictly increasing order of the bytes of the names, with what
    is defined and nothing else, and the console's command lists the variables with their values and
    after them the aliases with their functions. -/
theorem Environment.afterAll_last_written (actions : List Action) :
    let env := empty.afterAll actions
    (∀ name x, env.vars.find? name = some x ↔ LastDefines actions (.ofVariable name x)) ∧
    (∀ name f, env.aliases.find? name = some f ↔ LastDefines actions (.ofAlias name f)) ∧
    Lists env.listVariables (fun name x => LastDefines actions (.ofVariable name x)) ∧
    (∀ name, name ∈ env.listFunctions ↔ ∃ f, LastDefines actions (.ofAlias name f)) ∧
    env.listFunctions.Pairwise (fun a b => Utf8.ofString a < Utf8.ofString b) ∧
    ∃ aliases, Lists aliases (fun name f => LastDefines actions (.ofAlias name f)) ∧
      ∀ c : Console, c.session.env = env →
        (c.handle (Utf8.ofString ".vars")).output =
          [.listing (env.listVariables.map (fun entry => (entry.1, numberText entry.2)) ++
            aliases.map fun entry => (entry.1, "-> " ++ entry.2.name))] := by
  intro env
  have hvars : ∀ name x, env.vars.find? name = some x ↔ LastDefines actions (.ofVariable name x) :=
    fun name x => holds_afterAll_iff actions (.ofVariable name x)
  have haliases : ∀ name f, env.aliases.find? name = some f ↔
      LastDefines actions (.ofAlias name f) :=
    fun name f => holds_afterAll_iff actions (.ofAlias name f)
  have hlisted : Lists env.aliases.entries fun name f => LastDefines actions (.ofAlias name f) := by
    simpa only [haliases] using env.aliases.lists_entries
  refine ⟨hvars, haliases, ?_, fun name => ?_, ?_, env.aliases.entries, hlisted, ?_⟩
  · simpa only [hvars, listVariables] using env.vars.lists_entries
  · simpa only [haliases, listFunctions] using NameTable.mem_names_iff (t := env.aliases)
  · exact List.pairwise_map.2 hlisted.increasing
  · intro c hc
    rw [← env.rows_eq, ← hc]
    rfl

end PrefixCalc
