/-
  From tokens to the form that a line says.

    line  ::=  '(' head argument* ')'  |  '(' set name value ')'
    head  ::=  operator | name
    argument  ::=  literal | name | '(' head argument* ')'
    value  ::=  literal | '(' head argument* ')'

  Calls are read with a stack of the calls that are still open around the innermost one, so that
  reading goes through the tokens once, from left to right, whatever the depth.  Every token has to
  be used: a line that goes on after its form is rejected.
-/
import PrefixCalc.Language.Error
import PrefixCalc.Language.Token.Scan

namespace PrefixCalc

/-- A call whose closing parenthesis has not been read yet. -/
structure OpenCall where
  head : Head
  /-- The arguments read so far, the last one first. -/
  reversedArgs : List Expr := []
deriving Repr

namespace OpenCall

/-- The call with one more argument. -/
def add (c : OpenCall) (e : Expr) : OpenCall := { c with reversedArgs := e :: c.reversedArgs }

/-- The call once its parenthesis is closed. -/
def close (c : OpenCall) : Expr := .call c.head c.reversedArgs.reverse

end OpenCall

/-- The head that a token is, after an opening parenthesis. -/
def Head.ofToken : Token → Except Error Head
  | .operator op => .ok (.operator op)
  | .name n => .ok (.function n)
  | t => .error (.invalidHead t)

namespace Expr

/-- Reads the rest of the innermost open call, and of the calls around it, and gives the outermost
    one with the tokens after it. -/
def parseArgs (around : List OpenCall) (inner : OpenCall) :
    List Token → Except Error (Expr × List Token)
  | [] => .error .unclosedExpression
  | .closePar :: ts =>
    match around with
    | [] => .ok (inner.close, ts)
    | outer :: others => parseArgs others (outer.add inner.close) ts
  | .literal x :: ts => parseArgs around (inner.add (.number x)) ts
  | .name n :: ts => parseArgs around (inner.add (.var n)) ts
  | [.openPar] => .error .unclosedExpression
  | .openPar :: t :: ts =>
    match Head.ofToken t with
    | .ok head => parseArgs (inner :: around) { head := head } ts
    | .error e => .error e
  | .operator op :: _ => .error (.misplacedOperator op)
  | .keyword k :: _ => .error (.misplacedKeyword k)
  | .unknown code :: _ => .error (.unexpectedKind (.unknown code))

/-- Reads a call whose opening parenthesis has been read. -/
def parseCall : List Token → Except Error (Expr × List Token)
  | [] => .error .unclosedExpression
  | t :: ts => do
    let head ← Head.ofToken t
    parseArgs [] { head := head } ts

end Expr

namespace Statement

/-- Reads the value of an assignment: a literal or a call. -/
def parseValue : List Token → Except Error (Expr × List Token)
  | [] => .error .unexpectedEnd
  | .openPar :: ts => Expr.parseCall ts
  | .literal x :: ts => .ok (.number x, ts)
  | t :: _ => .error (.expectedValue t)

/-- Reads an assignment whose keyword has been read, up to its closing parenthesis. -/
def parseAssign : List Token → Except Error (Statement × List Token)
  | [] => .error .unexpectedEnd
  | .name target :: ts => do
    let (value, rest) ← parseValue ts
    match rest with
    | [] => .error .unclosedStatement
    | .closePar :: rest => .ok (.assign target value, rest)
    | t :: _ => .error (.expectedClose t)
  | t :: _ => .error (.expectedName t)

/-- Reads a statement whose keyword has been read. -/
def parse (k : Keyword) (ts : List Token) : Except Error (Statement × List Token) :=
  match k with
  | .set => parseAssign ts
  | .define => .error .definition
  | .unknown code => .error (.unknownKeyword (.unknown code))

end Statement

namespace Form

/-- Reads a form whose opening parenthesis has been read. -/
def parseInner : List Token → Except Error (Form × List Token)
  | .keyword k :: ts => do
    let (s, rest) ← Statement.parse k ts
    return (.statement s, rest)
  | ts => do
    let (e, rest) ← Expr.parseCall ts
    return (.expression e, rest)

/-- The form that tokens make up. -/
def parse : List Token → Except Error Form
  | .openPar :: ts => do
    let (form, rest) ← parseInner ts
    match rest with
    | [] => return form
    | t :: _ => .error (.trailingToken t)
  | _ => .error .notParenthesized

/-- The form that a line says. -/
def ofLine (line : Bytes) : Except Error Form := do
  parse (← Token.scan (Utf8.trim line))

end Form

end PrefixCalc
