/-
  What an environment says can be written into the tree instead.

  1. **Rewriting** — `Expr.rewrite` puts an expression in place of every variable and another head
     in place of every head.  If each variable comes to the same as what is put there, and each head
     calls the same as its new one, then the tree comes to the same, whatever shape it has and
     whichever of its parts are evaluated (`eval_rewrite`).  The two environments need not be the
     same, and no more than this is said of them.

  2. **Assignments** (`eval_setVariable`) — a variable can be assigned, or its value be written
     wherever the variable stands.  Heads of the same name stay, as they are looked up elsewhere.

  3. **Aliases** (`eval_resolveAliases`) — aliases can be made, or the functions that they stand for
     be called by their own names.  One step is enough: an alias stands for a function and never for
     another alias, so it does not matter if two of them exchange names.
-/
import PrefixCalc.Proofs.Environment.Calls

namespace PrefixCalc

/-! ## Rewriting -/

mutual

/-- The expression with `leaf` of each variable in its place and with `rename` of each head. -/
def Expr.rewrite (leaf : String → Expr) (rename : Head → Head) : Expr → Expr
  | .number x => .number x
  | .var name => leaf name
  | .call head args => .call (rename head) (Expr.rewriteAll leaf rename args)
  | .missing => .missing

/-- The same of each argument. -/
def Expr.rewriteAll (leaf : String → Expr) (rename : Head → Head) : List Expr → List Expr
  | [] => []
  | e :: es => e.rewrite leaf rename :: Expr.rewriteAll leaf rename es

end

namespace Expr

variable {leaf : String → Expr} {rename : Head → Head}

theorem rewriteAll_eq_map (es : List Expr) :
    rewriteAll leaf rename es = es.map (rewrite leaf rename) := by
  induction es with
  | nil => rfl
  | cons e es ih => rw [rewriteAll, ih, List.map_cons]

/-- Rewriting keeps the result if every variable and every head keeps its meaning. -/
theorem eval_rewrite {env env' : Environment}
    (hleaf : ∀ name, (leaf name).eval env' = env.lookup name)
    (hrename : ∀ head, env'.callee (rename head) = env.callee head) (e : Expr) :
    (e.rewrite leaf rename).eval env' = e.eval env := by
  induction e with
  | number x => rfl
  | missing => rfl
  | var name => rw [rewrite, hleaf, eval]
  | call head args ih =>
    rw [rewrite]
    refine eval_call_congr (hrename head) ?_
    rw [rewriteAll_eq_map, List.map_map]
    exact List.map_congr_left ih

end Expr

/-! ## Assignments -/

/-- The expression with a number wherever a variable of this name stands. -/
def Expr.substitute (name : String) (x : Float) : Expr → Expr :=
  Expr.rewrite (fun n => if n = name then .number x else .var n) id

theorem Environment.lookup_setVariable (env : Environment) (name : String) (x : Float)
    (other : String) :
    (env.setVariable name x).lookup other = if other = name then .ok x else env.lookup other := by
  rw [lookup, lookup, setVariable, NameTable.find?_insert]
  by_cases h : other = name
  · simp only [if_pos h]
  · simp only [if_neg h]

/-- **Assigning is substituting.**  An expression comes to the same after a variable has been
    assigned as it does before with the value in place of the variable, also where the variable
    hides a constant; what is called under the same name is another thing. -/
theorem Expr.eval_setVariable (env : Environment) (name : String) (x : Float) (e : Expr) :
    e.eval (env.setVariable name x) = (e.substitute name x).eval env := by
  refine (eval_rewrite (fun other => ?_) (fun head => ?_) e).symm
  · rw [Environment.lookup_setVariable]
    split
    · rfl
    · rw [eval]
  · cases head with
    | operator op => rfl
    | function f => rfl
    | unknown code f => rfl

/-! ## Aliases -/

/-- The head by the own name of the function that it calls, if it is an alias. -/
def Head.resolve (env : Environment) : Head → Head
  | .function name =>
    match env.aliases.find? name with
    | some f => .function f.name
    | none => .function name
  | head => head

/-- The expression with each alias that is called replaced by the function that it stands for. -/
def Expr.resolveAliases (env : Environment) : Expr → Expr := Expr.rewrite .var (Head.resolve env)

/-- The same variables and no alias. -/
def Environment.dropAliases (env : Environment) : Environment := { env with aliases := .empty }

/-- Every alias stands for a function that exists. -/
def Environment.KnowsAliases (env : Environment) : Prop :=
  ∀ name f, env.aliases.find? name = some f → f ∈ Builtin.all

theorem Environment.knowsAliases_empty : Environment.empty.KnowsAliases := by
  intro name f h
  cases h

theorem Environment.KnowsAliases.setAlias {env : Environment} (h : env.KnowsAliases) (name : String)
    {f : Builtin} (hf : f ∈ Builtin.all) : (env.setAlias name f).KnowsAliases := by
  intro other g hg
  rw [Environment.setAlias, NameTable.find?_insert] at hg
  split at hg
  · exact Option.some.inj hg ▸ hf
  · exact h other g hg

/-- A function that exists is what its own name calls where there is no alias. -/
theorem Environment.callee_dropAliases {env : Environment} (h : env.KnowsAliases) (head : Head) :
    env.dropAliases.callee (head.resolve env) = env.callee head := by
  cases head with
  | operator op => rfl
  | unknown code name => rfl
  | function name =>
    rw [Head.resolve, callee, function?]
    cases halias : env.aliases.find? name with
    | none =>
      show env.dropAliases.callee (.function name) = _
      rw [callee, function?]
      rfl
    | some f =>
      show env.dropAliases.callee (.function f.name) = .builtin f
      have hfind : env.dropAliases.function? f.name = some f :=
        Builtin.ofName?_name (h name f halias)
      rw [callee, hfind]

/-- Calling an alias with a number of arguments that its function does not take is refused in the
    name of the function. -/
theorem Expr.eval_alias_wrongCount {env : Environment} {name : String} {f : Builtin} {a : Arity}
    {args : List Expr} (halias : env.aliases.find? name = some f) (harity : f.arity? = some a)
    (hcount : a.admits args.length = false) :
    eval env (.call (.function name) args) = .error (.error (.wrongCount f.name a)) := by
  refine eval_of_fault? ?_
  have hcallee : env.callee (.function name) = .builtin f := by
    rw [Environment.callee, Environment.function?, halias]
  simp [fault?, hcallee, Callee.fault?, callFault?, harity, hcount]

/-- **Aliases can be eliminated.**  Where all aliases stand for functions that exist, an expression
    comes to the same as the one in which these functions are called by their own names, with no
    alias in the environment: the same value, or the same error with the same message.  So a wrong
    number of arguments for an alias is reported in the name of the function. -/
theorem Expr.eval_resolveAliases {env : Environment} (h : env.KnowsAliases) (e : Expr) :
    e.eval env = (e.resolveAliases env).eval env.dropAliases ∧
    (∀ name f a args, env.aliases.find? name = some f → f.arity? = some a →
      a.admits args.length = false → ∃ err, eval env (.call (.function name) args) =
        .error (.error err) ∧ err.kind = .eval ∧
        err.message = "'" ++ f.name ++ "'" ++ " requires " ++ a.words) := by
  refine ⟨(eval_rewrite (fun name => ?_) (Environment.callee_dropAliases h) e).symm, ?_⟩
  · rw [eval]
    rfl
  · intro name f a args halias harity hcount
    exact ⟨_, eval_alias_wrongCount halias harity hcount, rfl, rfl⟩

/-- Two aliases of which one has the name of the function that the other stands for. -/
theorem Expr.eval_resolveAliases_shifted :
    let env := (Environment.empty.setAlias "sqrt" .pow).setAlias "root" .sqrt
    let e : Expr := .call (.function "if") [.var "x",
      .call (.function "sqrt") [.number 2, .call (.function "root") [.number 9]], .number 0]
    env.KnowsAliases ∧
    e.resolveAliases env = .call (.function "if") [.var "x",
      .call (.function "pow") [.number 2, .call (.function "sqrt") [.number 9]], .number 0] ∧
    e.eval env = (e.resolveAliases env).eval env.dropAliases := by
  intro env e
  have hsqrt := Environment.knowsAliases_empty.setAlias "sqrt" (show Builtin.pow ∈ _ by decide)
  have h : env.KnowsAliases := hsqrt.setAlias "root" (by decide)
  exact ⟨h, rfl, (eval_resolveAliases h e).1⟩

end PrefixCalc
