/-
  Ranges of code points, the form in which the tables of character properties are written.
-/
namespace PrefixCalc

/-- A range of code points, both ends included. -/
abbrev CodeRange := Nat × Nat

/-- The code point lies in the range. -/
def CodeRange.contains (r : CodeRange) (n : Nat) : Bool := r.1 ≤ n && n ≤ r.2

end PrefixCalc
