/-
  How many arguments something that can be called takes, and how that is said to the user.
-/
namespace PrefixCalc

/-- The argument counts that are accepted: from `least` on, up to `most` if there is a bound. -/
structure Arity where
  least : Int
  most : Option Nat
deriving Repr, DecidableEq

namespace Arity

/-- Exactly `n` arguments. -/
def exactly (n : Nat) : Arity := ⟨n, some n⟩

/-- At least `n` arguments. -/
def atLeast (n : Nat) : Arity := ⟨n, none⟩

/-- The count is accepted. -/
def admits (a : Arity) (n : Int) : Bool :=
  a.least ≤ n && (match a.most with
    | some m => n ≤ m
    | none => true)

/-- The first counts are spelled out. -/
def countWord (n : Nat) : String :=
  match n with
  | 0 => "no"
  | 1 => "one"
  | 2 => "two"
  | 3 => "three"
  | n => n.repr

/-- The arity in words.  There are no words for a negative count. -/
def words? (a : Arity) : Option String :=
  match a.least with
  | .negSucc _ => none
  | .ofNat n =>
    let noun := if n = 1 then "argument" else "arguments"
    let count := countWord n ++ " " ++ noun
    some (match a.most with
      | some _ => count
      | none => "at least " ++ count)

/-- The arity in words, nothing if there are none. -/
def words (a : Arity) : String := a.words?.getD ""

@[simp] theorem admits_exactly (n : Nat) (k : Nat) : (exactly n).admits k = decide (k = n) := by
  rw [Bool.eq_iff_iff]
  simp [admits, exactly]
  omega

@[simp] theorem admits_atLeast (n : Nat) (k : Nat) : (atLeast n).admits k = decide (n ≤ k) := by
  simp [admits, atLeast]

end Arity

end PrefixCalc
