/-
  What can be wrong with a line.  An error is its cause; `kind` tells which stage found it and
  `message` says it to the user.
-/
import PrefixCalc.Language.Tree

namespace PrefixCalc

/-- The stage at which a line is rejected. -/
inductive ErrorKind
  | lexical
  | grammar
  | eval
  | notImplemented
  /-- A code that names no stage. -/
  | unknown (code : Int)
deriving Repr, DecidableEq

namespace ErrorKind

/-- All stages, in the order of their codes. -/
def all : List ErrorKind := [lexical, grammar, eval, notImplemented]

/-- The stage with this code. -/
def ofCode (code : Int) : ErrorKind :=
  match code with
  | .ofNat n => all.getD n (unknown code)
  | .negSucc _ => unknown code

/-- The code of a stage. -/
def code : ErrorKind → Int
  | lexical => 0
  | grammar => 1
  | eval => 2
  | notImplemented => 3
  | unknown code => code

/-- What a stage is called. -/
def label : ErrorKind → String
  | lexical => "lexical"
  | grammar => "syntax"
  | eval => "eval"
  | notImplemented => "not implemented"
  | unknown code => "ErrorKind(" ++ code.repr ++ ")"

end ErrorKind

/-- The causes for which a line is rejected. -/
inductive Error
  -- of words
  | invalidNumber (word : String)
  | unrecognizedWord (word : String)
  -- of the order of words
  | notParenthesized
  | unclosedExpression
  | invalidHead (t : Token)
  | misplacedOperator (op : Operator)
  | misplacedKeyword (k : Keyword)
  | unexpectedKind (kind : TokenKind)
  | unknownKeyword (k : Keyword)
  | unexpectedEnd
  | expectedName (found : Token)
  | expectedValue (found : Token)
  | expectedClose (found : Token)
  | unclosedStatement
  | trailingToken (t : Token)
  -- of forms that the language has in mind only
  | definition
  -- of evaluation
  | wrongCount (name : String) (arity : Arity)
  | unknownOperator (op : Operator)
  | unknownBuiltin (f : Builtin)
  | unknownFunction (name : String)
  | undefinedName (name : String)
  | divisionByZero
  | invalidExpression (kind : ExprKind)
  | invalidStatement (kind : StatementKind)
  | nothingToEvaluate
deriving Repr, DecidableEq

namespace Error

/-- The stage that finds an error. -/
def kind : Error → ErrorKind
  | invalidNumber _ | unrecognizedWord _ => .lexical
  | notParenthesized | unclosedExpression | invalidHead _ | misplacedOperator _
  | misplacedKeyword _ | unexpectedKind _ | unknownKeyword _ | unexpectedEnd | expectedName _
  | expectedValue _ | expectedClose _ | unclosedStatement | trailingToken _ => .grammar
  | definition => .notImplemented
  | wrongCount _ _ | unknownOperator _ | unknownBuiltin _ | unknownFunction _ | undefinedName _
  | divisionByZero | invalidExpression _ | invalidStatement _ | nothingToEvaluate => .eval

/-- A text between quotation marks. -/
def quoted (s : String) : String := "'" ++ s ++ "'"

/-- A token where another was expected. -/
def insteadOf (found : Token) (expected : String) : String :=
  "Unexpected " ++ found.kind.label ++ " " ++ quoted found.text ++ ", expecting " ++ expected

/-- An error as it is told to the user. -/
def message : Error → String
  | invalidNumber word => "Invalid number " ++ quoted word
  | unrecognizedWord word => "Unrecognized token " ++ quoted word
  | notParenthesized => "Parentheses not present or wrongly formatted"
  | unclosedExpression => "Unable to find last parentheses of expression"
  | invalidHead t => "Invalid first token " ++ quoted t.text
  | misplacedOperator op => "Operator " ++ quoted op.symbol ++ " in wrong position"
  | misplacedKeyword k => "Keyword " ++ quoted k.name ++ " in wrong position"
  | unexpectedKind kind => "Unexpected token " ++ kind.label
  | unknownKeyword k => "Unknown keyword " ++ k.name
  | unexpectedEnd => "Unexpected end of token-stream"
  | expectedName found => insteadOf found "Name"
  | expectedValue found => insteadOf found "LPar or Literal"
  | expectedClose found => insteadOf found "RPar"
  | unclosedStatement => "Unable to find last parentheses of statement"
  | trailingToken t => "Unexpected token " ++ quoted t.text ++ " after end of expression"
  | definition => "Function definition is not yet implemented"
  | wrongCount name arity => quoted name ++ " requires " ++ arity.words
  | unknownOperator op => "Unknown operator " ++ op.symbol
  | unknownBuiltin f => "Unknown function " ++ f.name
  | unknownFunction name => "Unknown function " ++ quoted name
  | undefinedName name => "Undefined constant " ++ quoted name
  | divisionByZero => "Cannot divide by 0"
  | invalidExpression kind => "Invalid expression kind " ++ kind.label
  | invalidStatement kind => "Invalid statement kind " ++ kind.label
  | nothingToEvaluate => "Nothing to evaluate"

end Error

/-- What stops an evaluation: an error of the line, or a step that has no meaning at all, such as
    evaluating an expression that is not there. -/
inductive Fault
  | error (e : Error)
  | crash
deriving Repr, DecidableEq

/-- Errors on their way out: each place they pass may add a note in front. -/
inductive Report
  /-- An error of the calculator. -/
  | error (e : Error)
  /-- An error from elsewhere. -/
  | foreign (message : String)
  | noted (note : String) (inner : Report)
deriving Repr, DecidableEq

namespace Report

/-- The calculator's error inside a report. -/
def error? : Report → Option Error
  | error e => some e
  | foreign _ => none
  | noted _ inner => inner.error?

/-- The stage that found the error; an error from elsewhere has none. -/
def kind? (r : Report) : Option ErrorKind := r.error?.map Error.kind

/-- The report is about a form that the language has in mind only. -/
def isNotImplemented (r : Report) : Bool := r.kind? == some .notImplemented

/-- The notes, the last one first, and the error. -/
def message : Report → String
  | error e => e.message
  | foreign m => m
  | noted note inner => note ++ ": " ++ inner.message

end Report

end PrefixCalc
