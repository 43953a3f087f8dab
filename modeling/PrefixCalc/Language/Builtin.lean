/-
  The built-in functions, the constants and the keywords: the names that mean something before
  anything has been defined.  A code that names none of them is kept as it is.
-/
import PrefixCalc.Language.Arity
import PrefixCalc.Number.Binary64

namespace PrefixCalc

/-- The built-in functions. -/
inductive Builtin
  | sqrt
  | pow
  /-- Selects one of two arguments, the only one of the two that is evaluated. -/
  | choose
  /-- A code that names no function. -/
  | unknown (code : Int)
deriving Repr, DecidableEq

namespace Builtin

/-- All built-in functions, in the order of their codes. -/
def all : List Builtin := [sqrt, pow, choose]

/-- The function with this code. -/
def ofCode (code : Int) : Builtin :=
  match code with
  | .ofNat n => all.getD n (unknown code)
  | .negSucc _ => unknown code

/-- The code of a function. -/
def code : Builtin → Int
  | sqrt => 0
  | pow => 1
  | choose => 2
  | unknown code => code

/-- The name of a function. -/
def name : Builtin → String
  | sqrt => "sqrt"
  | pow => "pow"
  | choose => "if"
  | unknown code => "Function(" ++ code.repr ++ ")"

/-- The built-in function of this name. -/
def ofName? (s : String) : Option Builtin := all.find? fun f => f.name == s

/-- How many arguments a function takes; an unknown function has no count. -/
def arity? : Builtin → Option Arity
  | sqrt => some (.exactly 1)
  | pow => some (.exactly 2)
  | choose => some (.exactly 3)
  | unknown _ => none

theorem ofName?_name {f : Builtin} (h : f ∈ all) : ofName? f.name = some f := by
  revert f
  decide

end Builtin

/-- The named constants. -/
inductive Constant
  | pi
  | e
  /-- A code that names no constant. -/
  | unknown (code : Int)
deriving Repr, DecidableEq

namespace Constant

/-- All constants, in the order of their codes. -/
def all : List Constant := [pi, e]

/-- The constant with this code. -/
def ofCode (code : Int) : Constant :=
  match code with
  | .ofNat n => all.getD n (unknown code)
  | .negSucc _ => unknown code

/-- The code of a constant. -/
def code : Constant → Int
  | pi => 0
  | e => 1
  | unknown code => code

/-- The name of a constant. -/
def name : Constant → String
  | pi => "pi"
  | e => "e"
  | unknown code => "Constant(" ++ code.repr ++ ")"

/-- The constant of this name. -/
def ofName? (s : String) : Option Constant := all.find? fun c => c.name == s

/-- The value of a constant, the number nearest to it; an unknown constant has none. -/
def value? : Constant → Option Float
  | pi => some (Binary64.ofPattern false 0x400921FB54442D18)
  | e => some (Binary64.ofPattern false 0x4005BF0A8B145769)
  | unknown _ => none

end Constant

/-- The words that introduce a statement. -/
inductive Keyword
  | set
  | define
  /-- A code that names no keyword. -/
  | unknown (code : Int)
deriving Repr, DecidableEq

namespace Keyword

/-- All keywords, in the order of their codes. -/
def all : List Keyword := [set, define]

/-- The keyword with this code. -/
def ofCode (code : Int) : Keyword :=
  match code with
  | .ofNat n => all.getD n (unknown code)
  | .negSucc _ => unknown code

/-- How a keyword is written. -/
def name : Keyword → String
  | set => "set"
  | define => "def"
  | unknown code => "Keyword(" ++ code.repr ++ ")"

/-- The keyword that is written so. -/
def ofName? (s : String) : Option Keyword := all.find? fun k => k.name == s

end Keyword

end PrefixCalc
