/-
  Evaluation.  A call is judged first (what is called must exist and take that many arguments), then
  its arguments are evaluated from left to right; the first error ends it all.  The choice function
  evaluates its condition and then only the argument that the condition selects.

  Executing a form may change the environment; there is an environment after it also where it fails.

  Zero stands for false, everything else for true.
-/
import PrefixCalc.Environment.Basic
import PrefixCalc.Language.Form.Parse
import PrefixCalc.Number.Power

namespace PrefixCalc

/-- The number that stands for a truth value. -/
def ofTruth (b : Bool) : Float := if b then 1 else 0

/-- The truth value that a number stands for. -/
def isTrue (x : Float) : Bool := x != 0

/-- Refuses an argument count that is not accepted. -/
def Arity.check (a : Arity) (name : String) (n : Int) : Except Fault Unit :=
  if a.admits n then .ok () else .error (.error (.wrongCount name a))

namespace Operator

/-- The operator exists and takes this many arguments. -/
def check (op : Operator) (n : Nat) : Except Fault Unit :=
  match op.arity? with
  | none => .error (.error (.unknownOperator op))
  | some a => a.check op.symbol n

/-- What an operator computes, provided that it takes this many arguments. -/
def combine : Operator → List Float → Except Fault Float
  | add, xs => .ok (xs.foldl (· + ·) 0)
  | sub, x :: xs => .ok (xs.foldl (· - ·) x)
  | mul, xs => .ok (xs.foldl (· * ·) 1)
  | div, x :: y :: _ => if y == 0 then .error (.error .divisionByZero) else .ok (x / y)
  | eq, x :: xs => .ok (ofTruth (xs.all (· == x)))
  | ne, x :: xs => .ok (ofTruth (!xs.all (· == x)))
  | lt, x :: y :: _ => .ok (ofTruth (x < y))
  | le, x :: y :: _ => .ok (ofTruth (!(y < x)))
  | gt, x :: y :: _ => .ok (ofTruth (y < x))
  | ge, x :: y :: _ => .ok (ofTruth (!(x < y)))
  | _, _ => .error .crash

/-- Applies an operator to arguments that are already evaluated. -/
def apply (op : Operator) (xs : List Float) : Except Fault Float := do
  op.check xs.length
  op.combine xs

end Operator

/-- The function exists and takes this many arguments. -/
def Builtin.check (f : Builtin) (n : Nat) : Except Fault Unit :=
  match f.arity? with
  | none => .error (.error (.unknownBuiltin f))
  | some a => a.check f.name n

mutual

/-- The value of an expression. -/
def Expr.eval (env : Environment) : Expr → Except Fault Float
  | .number x => .ok x
  | .var name => env.lookup name
  | .call (.operator op) args => do
    op.check args.length
    let xs ← Expr.evalAll env args
    op.combine xs
  | .call (.function name) args =>
    match env.function? name with
    | some f => Expr.evalBuiltin env f args
    | none => .error (.error (.unknownFunction name))
  | .call (.unknown code _) _ => .error (.error (.invalidExpression (.unknown code)))
  | .missing => .error .crash

/-- The values of expressions, from left to right. -/
def Expr.evalAll (env : Environment) : List Expr → Except Fault (List Float)
  | [] => .ok []
  | e :: es => do
    let x ← Expr.eval env e
    let xs ← Expr.evalAll env es
    return x :: xs

/-- Calls a built-in function with arguments that are not evaluated yet. -/
def Expr.evalBuiltin (env : Environment) (f : Builtin) : List Expr → Except Fault Float
  | [] => do
    f.check 0
    .error .crash
  | e₁ :: rest => do
    f.check (rest.length + 1)
    match f, rest with
    | .sqrt, _ =>
      let x ← Expr.eval env e₁
      return x.sqrt
    | .pow, e₂ :: _ =>
      let x ← Expr.eval env e₁
      let y ← Expr.eval env e₂
      return Power.power x y
    | .choose, e₂ :: e₃ :: _ =>
      let x ← Expr.eval env e₁
      if isTrue x then Expr.eval env e₂ else Expr.eval env e₃
    | _, _ => .error .crash

end

/-- Calls a built-in function with arguments that are not evaluated yet. -/
def Builtin.call (f : Builtin) (env : Environment) (args : List Expr) : Except Fault Float :=
  Expr.evalBuiltin env f args

/-- Whether a statement succeeds, and the environment after it in either case. -/
def Statement.exec (env : Environment) (s : Statement) : Except Fault Unit × Environment :=
  match s.kind with
  | .assign =>
    match s.value.eval env with
    | .ok x => (.ok (), env.setVariable s.target x)
    | .error f => (.error f, env)
  | .define => (.error (.error .definition), env)
  | .unknown code => (.error (.error (.invalidStatement (.unknown code))), env)

/-- The value of a form, and the environment after it, whether it has a value or fails.  Statements
    have the value zero. -/
def Form.exec (env : Environment) : Form → Except Fault Float × Environment
  | .expression e => (e.eval env, env)
  | .statement s =>
    match s.exec env with
    | (.ok (), env) => (.ok 0, env)
    | (.error f, env) => (.error f, env)
  | .missingStatement => (.error .crash, env)
  | .nothing => (.error (.error .nothingToEvaluate), env)

/-- An assignment has a value where its right side has one. -/
theorem Form.fst_exec_assign (env : Environment) (name : String) (rhs : Expr) :
    (exec env (.statement (.assign name rhs))).1 = rhs.eval env >>= fun _ => .ok 0 := by
  simp only [exec, Statement.exec, Statement.assign]
  cases rhs.eval env with
  | ok x => rfl
  | error f => rfl

namespace Environment

/-- Executes a form. -/
def exec (env : Environment) (form : Form) : Except Fault Float × Environment := form.exec env

/-- Runs one line. -/
def run (env : Environment) (line : Bytes) : Except Fault Float × Environment :=
  match Form.ofLine line with
  | .ok form => env.exec form
  | .error e => (.error (.error e), env)

end Environment

/-- The value of a line by itself. -/
def evalLine (line : Bytes) : Except Fault Float := (Environment.empty.run line).1

end PrefixCalc
