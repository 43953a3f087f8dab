/-
  What names mean while lines are run: the variables with their values, and the aliases, which are
  names for built-in functions.  The two tables are apart: a variable never hides a function of the
  same name, nor an alias a variable.  A variable hides a constant, and an alias hides a built-in
  function.

  A name is a text of characters, although a line is raw bytes.  A byte that is not UTF-8 is read as a
  replacement character, so that no line can say a name which holds one; here such a name cannot be
  given from outside either.
-/
import PrefixCalc.Environment.NameTable
import PrefixCalc.Language.Error

namespace PrefixCalc

/-- Variables and aliases. -/
structure Environment where
  vars : NameTable Float := .empty
  aliases : NameTable Builtin := .empty

namespace Environment

/-- Nothing is defined. -/
def empty : Environment := {}

instance : Inhabited Environment := ⟨empty⟩

/-- Gives a variable a value. -/
def setVariable (env : Environment) (name : String) (value : Float) : Environment :=
  { env with vars := env.vars.insert name value }

/-- Makes a name call a built-in function. -/
def setAlias (env : Environment) (name : String) (f : Builtin) : Environment :=
  { env with aliases := env.aliases.insert name f }

/-- The variables with their values, in order of name. -/
def listVariables (env : Environment) : List (String × Float) := env.vars.entries

/-- The names of the aliases, in order. -/
def listFunctions (env : Environment) : List String := env.aliases.names

/-- The value of a name that stands as an argument. -/
def lookup (env : Environment) (name : String) : Except Fault Float :=
  match env.vars.find? name with
  | some x => .ok x
  | none =>
    match Constant.ofName? name with
    | none => .error (.error (.undefinedName name))
    | some c =>
      match c.value? with
      | some x => .ok x
      | none => .error .crash

/-- The function that a name calls. -/
def function? (env : Environment) (name : String) : Option Builtin :=
  match env.aliases.find? name with
  | some f => some f
  | none => Builtin.ofName? name

end Environment

end PrefixCalc
