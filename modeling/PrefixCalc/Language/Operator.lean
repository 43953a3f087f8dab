/-
  The symbolic operators: their spelling, how many arguments they take, and what they compute from
  arguments that are already evaluated.

  An operator given by a code that names none is kept as it is, so that a tree built from such a code
  can still be shown; it computes nothing.
-/
import PrefixCalc.Language.Arity

namespace PrefixCalc

/-- The operators. -/
inductive Operator
  | add
  | sub
  | mul
  | div
  | eq
  | lt
  | le
  | gt
  | ge
  | ne
  /-- A code that names no operator. -/
  | unknown (code : Int)
deriving Repr, DecidableEq

namespace Operator

/-- All operators, in the order of their codes. -/
def all : List Operator := [add, sub, mul, div, eq, lt, le, gt, ge, ne]

/-- The operator with this code. -/
def ofCode (code : Int) : Operator :=
  match code with
  | .ofNat n => all.getD n (unknown code)
  | .negSucc _ => unknown code

/-- The code of an operator. -/
def code : Operator → Int
  | add => 0
  | sub => 1
  | mul => 2
  | div => 3
  | eq => 4
  | lt => 5
  | le => 6
  | gt => 7
  | ge => 8
  | ne => 9
  | unknown code => code

/-- How an operator is written. -/
def symbol : Operator → String
  | add => "+"
  | sub => "-"
  | mul => "*"
  | div => "/"
  | eq => "=="
  | lt => "<"
  | le => "<="
  | gt => ">"
  | ge => ">="
  | ne => "!="
  | unknown code => "Operator(" ++ code.repr ++ ")"

/-- The operator that is written so. -/
def ofSymbol? (s : String) : Option Operator := all.find? fun op => op.symbol == s

/-- The argument counts an operator takes; an unknown operator has none. -/
def arity? : Operator → Option Arity
  | add => some (.atLeast 0)
  | sub => some (.atLeast 1)
  | mul => some (.atLeast 0)
  | div => some (.exactly 2)
  | eq => some (.atLeast 2)
  | lt => some (.exactly 2)
  | le => some (.exactly 2)
  | gt => some (.exactly 2)
  | ge => some (.exactly 2)
  | ne => some (.exactly 2)
  | unknown _ => none

theorem ofSymbol?_symbol {op : Operator} (h : op ∈ all) : ofSymbol? op.symbol = some op := by
  revert op
  decide

end Operator

end PrefixCalc
