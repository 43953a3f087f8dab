/-
  Tokens, the words of a line with their meaning, and how they are written.
-/
import PrefixCalc.Language.Operator
import PrefixCalc.Language.Builtin
import PrefixCalc.Number.Text

namespace PrefixCalc

/-- The kinds of tokens. -/
inductive TokenKind
  | literal
  | openPar
  | closePar
  | operator
  | name
  | keyword
  /-- A code that names no kind. -/
  | unknown (code : Int)
deriving Repr, DecidableEq

namespace TokenKind

/-- All kinds, in the order of their codes. -/
def all : List TokenKind := [literal, openPar, closePar, operator, name, keyword]

/-- The kind with this code. -/
def ofCode (code : Int) : TokenKind :=
  match code with
  | .ofNat n => all.getD n (unknown code)
  | .negSucc _ => unknown code

/-- What a kind is called in messages. -/
def label : TokenKind → String
  | literal => "Literal"
  | openPar => "LPar"
  | closePar => "RPar"
  | operator => "Operator"
  | name => "Name"
  | keyword => "Keyword"
  | unknown code => "TokenKind(" ++ code.repr ++ ")"

end TokenKind

/-- One word of a line. -/
inductive Token
  | literal (value : Float)
  | openPar
  | closePar
  | operator (op : Operator)
  | name (word : String)
  | keyword (k : Keyword)
  /-- A token of a kind that the language does not have. -/
  | unknown (code : Int)
deriving Repr, DecidableEq

namespace Token

/-- The kind of a token. -/
def kind : Token → TokenKind
  | literal _ => .literal
  | openPar => .openPar
  | closePar => .closePar
  | operator _ => .operator
  | name _ => .name
  | keyword _ => .keyword
  | unknown code => .unknown code

/-- A token the way it is written in a line. -/
def text : Token → String
  | literal x => numberText x
  | openPar => "("
  | closePar => ")"
  | operator op => op.symbol
  | name word => word
  | keyword k => k.name
  | unknown code => "Token(" ++ code.repr ++ ")"

/-- Tokens written with one space between them. -/
def joined (ts : List Token) : String := " ".intercalate (ts.map text)

end Token

/-- A token built by hand: a record with a field for every kind, all of them given by codes. -/
structure TokenRecord where
  kind : Int
  value : Float
  op : Int
  name : String
  keyword : Int
deriving Repr

/-- The token that a record stands for: only the field of its own kind counts. -/
def TokenRecord.token (r : TokenRecord) : Token :=
  match TokenKind.ofCode r.kind with
  | .literal => .literal r.value
  | .openPar => .openPar
  | .closePar => .closePar
  | .operator => .operator (.ofCode r.op)
  | .name => .name r.name
  | .keyword => .keyword (.ofCode r.keyword)
  | .unknown code => .unknown code

end PrefixCalc
