/-
  Environments that agree on what is asked of them.

  1. **Nodes** — `Expr.MeansSame`: a node by itself means the same in two environments.  A variable
     has the same value there and a head calls the same; whatever else the environments hold has
     no part in it, nor have the arguments.

  2. **The crux** (`eval_congr_of_reaches`) — by induction on the tree: if every node that the
     evaluation comes to means the same in both environments, the result is the same.  The arguments
     that a call demands come to the same by induction, and the others do not matter.

  3. **Names in the tree** (`eval_congr_of_names`) — so the result depends on nothing but the
     variables that stand in the tree and the functions that are called in it.

  4. **Names that are new** (`eval_of_isExtendedBy`) — a successful evaluation has found a meaning for
     every name that it came to.  Names that had none before can be defined without any effect on
     it, also if they stand in parts of the tree that it did not come to.
-/
import PrefixCalc.Proofs.Environment.Demand

namespace PrefixCalc

variable {env env' : Environment}

/-! ## Nodes -/

/-- By itself a node means the same in both environments. -/
def Expr.MeansSame (env env' : Environment) : Expr → Prop
  | .var name => env.lookup name = env'.lookup name
  | .call head _ => env.callee head = env'.callee head
  | _ => True

namespace Expr

/-- Evaluation depends only on what the nodes mean that it comes to. -/
theorem eval_congr_of_reaches {e : Expr}
    (h : ∀ p a, e.Reaches env (.node p) → e.at? p = some a → a.MeansSame env env') :
    e.eval env = e.eval env' := by
  have hroot : e.MeansSame env env' := h [] e (reaches_root env e) rfl
  induction e with
  | number x => rfl
  | missing => rfl
  | var name =>
    rw [eval, eval]
    exact hroot
  | call head args ih =>
    refine eval_call_congr_of_demands hroot rfl fun hlocal i a a' ha ha' hdemands => ?_
    obtain rfl : a = a' := Option.some.inj (ha.symm.trans ha')
    have hbelow : ∀ p b, a.Reaches env (.node p) → a.at? p = some b → b.MeansSame env env' := by
      intro p b hp hb
      refine h (i :: p) b (reaches_argument_iff.mpr ⟨hlocal, hdemands, a, ha, hp⟩) ?_
      rwa [at?_cons ha]
    exact ih a (List.mem_of_getElem? ha) hbelow (hbelow [] a (reaches_root env a) rfl)

end Expr

/-! ## Names in the tree -/

/-- A variable of this name stands in the tree. -/
def Expr.Mentions (e : Expr) (name : String) : Prop := ∃ p, e.at? p = some (.var name)

@[simp] theorem Expr.mentions_var {n name : String} : (Expr.var n).Mentions name ↔ n = name := by
  constructor
  · rintro ⟨_ | ⟨i, p⟩, hp⟩
    · exact Expr.var.inj (Option.some.inj hp)
    · cases hp
  · rintro rfl
    exact ⟨[], rfl⟩

@[simp] theorem Expr.mentions_call {head : Head} {args : List Expr} {name : String} :
    (Expr.call head args).Mentions name ↔ ∃ a ∈ args, a.Mentions name := by
  constructor
  · rintro ⟨_ | ⟨i, p⟩, hp⟩
    · cases hp
    · obtain ⟨a, ha, hp⟩ := Option.bind_eq_some_iff.mp hp
      exact ⟨a, List.mem_of_getElem? ha, p, hp⟩
  · rintro ⟨a, ha, p, hp⟩
    obtain ⟨i, hi⟩ := List.mem_iff_getElem?.mp ha
    exact ⟨i :: p, by rwa [Expr.at?_cons hi]⟩

/-- A function of this name is called in the tree. -/
def Expr.Calls (e : Expr) (name : String) : Prop :=
  ∃ p args, e.at? p = some (.call (.function name) args)

@[simp] theorem Expr.not_calls_var {n name : String} : ¬ (Expr.var n).Calls name := by
  rintro ⟨_ | ⟨i, p⟩, args, hp⟩
  · cases hp
  · cases hp

@[simp] theorem Expr.calls_call {head : Head} {args : List Expr} {name : String} :
    (Expr.call head args).Calls name ↔ head = .function name ∨ ∃ a ∈ args, a.Calls name := by
  constructor
  · rintro ⟨_ | ⟨i, p⟩, args', hp⟩
    · obtain ⟨hhead, -⟩ := Expr.call.inj (Option.some.inj hp)
      exact Or.inl hhead
    · obtain ⟨a, ha, hp⟩ := Option.bind_eq_some_iff.mp hp
      exact Or.inr ⟨a, List.mem_of_getElem? ha, p, args', hp⟩
  · rintro (rfl | ⟨a, ha, p, args', hp⟩)
    · exact ⟨[], args, rfl⟩
    · obtain ⟨i, hi⟩ := List.mem_iff_getElem?.mp ha
      exact ⟨i :: p, args', by rwa [Expr.at?_cons hi]⟩

theorem Environment.lookup_congr {name : String}
    (h : env.vars.find? name = env'.vars.find? name) : env.lookup name = env'.lookup name := by
  rw [lookup, lookup, h]

theorem Environment.callee_congr {name : String}
    (h : env.aliases.find? name = env'.aliases.find? name) :
    env.callee (.function name) = env'.callee (.function name) := by
  rw [callee, callee, function?, function?, h]

namespace Expr

/-- Environments that agree on the variables and the functions of a tree give it the same result. -/
theorem eval_congr_of_names {e : Expr}
    (hvars : ∀ name, e.Mentions name → env.vars.find? name = env'.vars.find? name)
    (haliases : ∀ name, e.Calls name → env.aliases.find? name = env'.aliases.find? name) :
    e.eval env = e.eval env' := by
  refine eval_congr_of_reaches fun p a _ ha => ?_
  cases a with
  | number x => trivial
  | missing => trivial
  | var name => exact Environment.lookup_congr (hvars name ⟨p, ha⟩)
  | call head args =>
    cases head with
    | operator op => rfl
    | unknown code name => rfl
    | function name =>
      exact Environment.callee_congr (haliases name ⟨p, args, ha⟩)

theorem eval_setVariable_of_not_mentions {e : Expr} {name : String} (x : Float)
    (h : ¬ e.Mentions name) : e.eval (env.setVariable name x) = e.eval env := by
  refine eval_congr_of_names (fun other hother => ?_) fun _ _ => rfl
  have hne : other ≠ name := by
    rintro rfl
    exact h hother
  rw [Environment.setVariable, NameTable.find?_insert, if_neg hne]

theorem eval_setAlias_of_not_calls {e : Expr} {name : String} (f : Builtin) (h : ¬ e.Calls name) :
    e.eval (env.setAlias name f) = e.eval env := by
  refine eval_congr_of_names (fun _ _ => rfl) fun other hother => ?_
  have hne : other ≠ name := by
    rintro rfl
    exact h hother
  rw [Environment.setAlias, NameTable.find?_insert, if_neg hne]

/-- **Only the names in the tree matter.**  Two environments that agree on the variables that stand in
    a tree and on the aliases among the functions that are called in it give it the same value or
    the same error.  So assigning a variable has no effect where no variable of that name stands,
    even if a function of that name is called, and making an alias has none where no function of
    that name is called, even if a variable of that name stands there. -/
theorem eval_depends_on_names (e : Expr) :
    (∀ env env' : Environment,
      (∀ name, e.Mentions name → env.vars.find? name = env'.vars.find? name) →
      (∀ name, e.Calls name → env.aliases.find? name = env'.aliases.find? name) →
      e.eval env = e.eval env') ∧
    (∀ (env : Environment) name x, ¬ e.Mentions name →
      e.eval (env.setVariable name x) = e.eval env) ∧
    (∀ (env : Environment) name f, ¬ e.Calls name →
      e.eval (env.setAlias name f) = e.eval env) :=
  ⟨fun _ _ => eval_congr_of_names, fun _ _ x => eval_setVariable_of_not_mentions x,
    fun _ _ f => eval_setAlias_of_not_calls f⟩

/-- Where a function `root` is called on a variable `x`, a variable `root` and an alias `x` have no
    effect. -/
theorem eval_depends_on_names_root :
    let env := (Environment.empty.setVariable "x" 9).setAlias "root" .sqrt
    let env' := (env.setVariable "root" 5).setAlias "x" .pow
    let e : Expr := .call (.function "root") [.var "x"]
    e.eval env = .ok 3 ∧ e.eval env' = .ok 3 := by
  intro env env' e
  obtain ⟨hagree, -, -⟩ := eval_depends_on_names e
  have hvars : ∀ name, e.Mentions name → env.vars.find? name = env'.vars.find? name := by
    intro name hname
    obtain rfl : "x" = name := by simpa [e] using hname
    decide
  have haliases : ∀ name, e.Calls name → env.aliases.find? name = env'.aliases.find? name := by
    intro name hname
    obtain rfl : "root" = name := by simpa [e] using hname
    decide
  have heval : e.eval env = .ok 3 := by decide +kernel
  exact ⟨heval, by rw [← hagree env env' hvars haliases, heval]⟩

end Expr

/-! ## Names that are new -/

/-- The second environment defines more names than the first.  A name that means something else in
    it meant nothing before: a variable was neither defined nor a constant, and an alias was no
    alias and no built-in function. -/
structure Environment.IsExtendedBy (env env' : Environment) : Prop where
  vars : ∀ name, env'.vars.find? name ≠ env.vars.find? name →
    env.vars.find? name = none ∧ Constant.ofName? name = none
  aliases : ∀ name, env'.aliases.find? name ≠ env.aliases.find? name →
    env.aliases.find? name = none ∧ Builtin.ofName? name = none

namespace Environment.IsExtendedBy

theorem refl (env : Environment) : env.IsExtendedBy env :=
  ⟨fun _ h => absurd rfl h, fun _ h => absurd rfl h⟩

theorem setVariable (h : env.IsExtendedBy env') {name : String} (x : Float)
    (hvar : env.vars.find? name = none) (hconst : Constant.ofName? name = none) :
    env.IsExtendedBy (env'.setVariable name x) := by
  refine ⟨fun other hother => ?_, h.aliases⟩
  by_cases heq : other = name
  · rw [heq]
    exact ⟨hvar, hconst⟩
  · rw [Environment.setVariable, NameTable.find?_insert, if_neg heq] at hother
    exact h.vars other hother

theorem setAlias (h : env.IsExtendedBy env') {name : String} (f : Builtin)
    (halias : env.aliases.find? name = none) (hbuiltin : Builtin.ofName? name = none) :
    env.IsExtendedBy (env'.setAlias name f) := by
  refine ⟨h.vars, fun other hother => ?_⟩
  by_cases heq : other = name
  · rw [heq]
    exact ⟨halias, hbuiltin⟩
  · rw [Environment.setAlias, NameTable.find?_insert, if_neg heq] at hother
    exact h.aliases other hother

/-- A node with which nothing is wrong keeps its meaning: its name means something already. -/
theorem meansSame (h : env.IsExtendedBy env') {a : Expr} (ha : a.fault? env = none) :
    a.MeansSame env env' := by
  cases a with
  | number x => trivial
  | missing => trivial
  | var name =>
    refine Environment.lookup_congr ?_
    by_contra hne
    obtain ⟨hvar, hconst⟩ := h.vars name (Ne.symm hne)
    rw [Expr.fault?, hvar, hconst] at ha
    cases ha
  | call head args =>
    cases head with
    | operator op => rfl
    | unknown code name => rfl
    | function name =>
      refine Environment.callee_congr ?_
      by_contra hne
      obtain ⟨halias, hbuiltin⟩ := h.aliases name (Ne.symm hne)
      have hcallee : env.callee (.function name) = .nothing (.unknownFunction name) := by
        simp [Environment.callee, Environment.function?, halias, hbuiltin]
      rw [Expr.fault?, hcallee] at ha
      cases ha

end Environment.IsExtendedBy

/-- **New definitions do not disturb what works.**  What has a value keeps it in every environment
    with more definitions, provided that these are of variables that were neither defined nor
    constants, and of aliases that were neither aliases nor built-in functions.  The new names may
    stand in the tree, where the evaluation did not come to. -/
theorem Expr.eval_of_isExtendedBy {e : Expr} {x : Float} (h : env.IsExtendedBy env')
    (hx : e.eval env = .ok x) : e.eval env' = .ok x := by
  rw [← hx]
  refine (eval_congr_of_reaches fun p a hp ha => h.meansSame ?_).symm
  obtain ⟨before, after, hvisits, -⟩ := hp
  have hnone := fault?_eq_none_of_eval hx (.node p) (by rw [hvisits]; simp)
  rwa [Visit.fault?, ha] at hnone

/-- The branch that is not selected holds a new variable and calls a new alias. -/
theorem Expr.eval_of_isExtendedBy_unselected :
    let env := Environment.empty.setVariable "x" 4
    let env' := (env.setVariable "y" 9).setAlias "root" .sqrt
    let e : Expr :=
      .call (.function "if") [.number 0, .call (.function "root") [.var "y"], .var "x"]
    env.IsExtendedBy env' ∧ e.eval env = .ok 4 ∧ e.eval env' = .ok 4 := by
  intro env env' e
  have h : env.IsExtendedBy env' :=
    ((Environment.IsExtendedBy.refl env).setVariable 9 (by decide) (by decide)).setAlias .sqrt
      (by decide) (by decide)
  have hx : e.eval env = .ok 4 := by decide +kernel
  exact ⟨h, hx, eval_of_isExtendedBy h hx⟩

end PrefixCalc
