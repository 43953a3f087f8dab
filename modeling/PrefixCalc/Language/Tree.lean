/-
  The trees of the language, and how they are written: an expression is a number, a variable or a
  call with its arguments, a statement gives a variable a value.  A tree is written with a pair of
  parentheses around every call and one space between its parts.

  Trees can also be built by hand, and then a part may be missing or be of a kind that the language
  does not have.  Such trees are written too; they do not come out of reading a line.
-/
import PrefixCalc.Language.Token

namespace PrefixCalc

/-- The kinds of expressions. -/
inductive ExprKind
  | operator
  | function
  | number
  | var
  /-- A code that names no kind. -/
  | unknown (code : Int)
deriving Repr, DecidableEq

namespace ExprKind

/-- All kinds, in the order of their codes. -/
def all : List ExprKind := [operator, function, number, var]

/-- The kind with this code. -/
def ofCode (code : Int) : ExprKind :=
  match code with
  | .ofNat n => all.getD n (unknown code)
  | .negSucc _ => unknown code

/-- What a kind is called in messages. -/
def label : ExprKind → String
  | operator => "Operator"
  | function => "Function"
  | number => "Number"
  | var => "Variable"
  | unknown code => "ExprKind(" ++ code.repr ++ ")"

end ExprKind

/-- The head of a call: what is called. -/
inductive Head
  | operator (op : Operator)
  | function (name : String)
  /-- The head of a call of a kind that the language does not have. -/
  | unknown (code : Int) (name : String)
deriving Repr, DecidableEq

namespace Head

/-- How a head is written. -/
def text : Head → String
  | operator op => op.symbol
  | function name => name
  | unknown _ name => name

end Head

/-- Expressions. -/
inductive Expr
  | number (value : Float)
  | var (name : String)
  | call (head : Head) (args : List Expr)
  /-- No expression at all, in a tree built by hand. -/
  | missing
deriving Repr, Inhabited

mutual

/-- An expression the way it is written in a line. -/
def Expr.text : Expr → String
  | .number x => numberText x
  | .var name => name
  | .call head args => "(" ++ head.text ++ Expr.argsText args ++ ")"
  | .missing => "nil"

/-- Arguments, each after a space. -/
def Expr.argsText : List Expr → String
  | [] => ""
  | e :: es => " " ++ e.text ++ Expr.argsText es

end

/-- The kinds of statements. -/
inductive StatementKind
  | assign
  | define
  /-- A code that names no kind. -/
  | unknown (code : Int)
deriving Repr, DecidableEq

namespace StatementKind

/-- All kinds, in the order of their codes. -/
def all : List StatementKind := [assign, define]

/-- The kind with this code. -/
def ofCode (code : Int) : StatementKind :=
  match code with
  | .ofNat n => all.getD n (unknown code)
  | .negSucc _ => unknown code

/-- What a kind is called in messages. -/
def label : StatementKind → String
  | assign => "Assign"
  | define => "FuncDef"
  | unknown code => "StmtKind(" ++ code.repr ++ ")"

/-- The keyword a statement is written with. -/
def keyword : StatementKind → Keyword
  | define => .define
  | _ => .set

end StatementKind

/-- Statements: they change what names mean, and have no value of their own. -/
structure Statement where
  kind : StatementKind
  target : String
  value : Expr
deriving Repr

namespace Statement

/-- The statement that gives `target` the value of an expression. -/
def assign (target : String) (value : Expr) : Statement := ⟨.assign, target, value⟩

/-- A statement the way it is written in a line. -/
def text (s : Statement) : String :=
  "(" ++ s.kind.keyword.name ++ " " ++ s.target ++ " " ++ s.value.text ++ ")"

end Statement

/-- What one line says. -/
inductive Form
  | expression (e : Expr)
  | statement (s : Statement)
  /-- No statement where there should be one, in a form built by hand. -/
  | missingStatement
  /-- Nothing at all. -/
  | nothing
deriving Repr

namespace Form

/-- A form the way it is written in a line. -/
def text : Form → String
  | expression e => e.text
  | statement s => s.text
  | missingStatement => "nil"
  | nothing => "nil"

end Form

end PrefixCalc
