/-
  The lines parsed last, with their forms.  A look-up that finds its line makes it the most recent
  one, and so does adding a line; when there are more lines than the cache holds, the one not used
  for longest is dropped.  A cache of capacity zero holds nothing.
-/
import PrefixCalc.Language.Tree
import PrefixCalc.Text.Utf8

namespace PrefixCalc

/-- Parsed lines in order of use. -/
structure Cache where
  capacity : Nat
  /-- The lines with their forms, the most recently used first. -/
  entries : List (Bytes × Form) := []

namespace Cache

/-- A cache for this many lines; no lines for a negative number. -/
def ofSize (size : Int) : Cache := { capacity := size.toNat }

/-- The entries of other lines. -/
def others (c : Cache) (line : Bytes) : List (Bytes × Form) :=
  c.entries.filter fun entry => entry.1 != line

/-- The form of a line, if the line is held. -/
def find? (c : Cache) (line : Bytes) : Option Form :=
  (c.entries.find? fun entry => entry.1 == line).map (·.2)

/-- Makes a line with its form the most recent one, and drops what is then too much. -/
def add (c : Cache) (line : Bytes) (form : Form) : Cache :=
  { c with entries := ((line, form) :: c.others line).take c.capacity }

/-- Holds nothing any more. -/
def clear (c : Cache) : Cache := { c with entries := [] }

/-- How many lines are held. -/
def size (c : Cache) : Nat := c.entries.length

/-- The lines held, the least recently used first. -/
def lines (c : Cache) : List Bytes := (c.entries.map (·.1)).reverse

@[simp] theorem capacity_add (c : Cache) (line : Bytes) (form : Form) :
    (c.add line form).capacity = c.capacity := rfl

@[simp] theorem capacity_clear (c : Cache) : c.clear.capacity = c.capacity := rfl

end Cache

end PrefixCalc
