/-
  The log.  What happens is noted at a level, and which notes are shown is decided when they are
  shown: notes below the chosen verbosity, and every warning.
-/
namespace PrefixCalc

/-- How important a note is. -/
inductive NoteLevel
  /-- Shown from this verbosity on. -/
  | verbose (n : Nat)
  | warning
deriving Repr, DecidableEq

/-- One line of the log. -/
structure Note where
  level : NoteLevel
  text : String
deriving Repr, DecidableEq

namespace Note

/-- A note of what was done with a line. -/
def line (text : String) : Note := ⟨.verbose 1, text⟩

/-- A note of how it was done. -/
def detail (text : String) : Note := ⟨.verbose 2, text⟩

/-- A warning. -/
def warn (text : String) : Note := ⟨.warning, text⟩

/-- The note is shown at this verbosity. -/
def isShown (verbosity : Int) (n : Note) : Bool :=
  match n.level with
  | .verbose k => k ≤ verbosity
  | .warning => true

/-- The letter in front of a note. -/
def mark (n : Note) : String :=
  match n.level with
  | .verbose _ => "I"
  | .warning => "W"

/-- The notes that are shown at a verbosity. -/
def shown (verbosity : Int) (notes : List Note) : List Note := notes.filter (isShown verbosity)

end Note

end PrefixCalc
