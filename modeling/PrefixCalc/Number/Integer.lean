/-
  Whole numbers as they are written in settings and on the command line: an optional sign, and digits
  in a base that the spelling tells.
-/
namespace PrefixCalc.Integer

/-- A sign in front (`true` for a minus), and what follows it. -/
def unsigned (cs : List Char) : Option Bool × List Char :=
  match cs with
  | '-' :: rest => (some true, rest)
  | '+' :: rest => (some false, rest)
  | _ => (none, cs)

/-- The digit's value in a base of at most sixteen. -/
def digit? (base : Nat) (c : Char) : Option Nat :=
  let n :=
    if c.isDigit then c.toNat - '0'.toNat
    else if 'a' ≤ c ∧ c ≤ 'f' then c.toNat - 'a'.toNat + 10
    else if 'A' ≤ c ∧ c ≤ 'F' then c.toNat - 'A'.toNat + 10
    else base
  if n < base then some n else none

/-- Why a spelling is no number. -/
inductive Fault
  | malformed
  /-- The number needs more than 64 bits. -/
  | tooLarge
deriving Repr, DecidableEq

/-- The natural that digits in a base add to `n`.  Underscores do not count.  The first digit that is
    none, or that makes the number too large, decides what is wrong. -/
def natural (base n : Nat) : List Char → Except Fault Nat
  | [] => .ok n
  | '_' :: rest => natural base n rest
  | c :: rest =>
    match digit? base c with
    | none => .error .malformed
    | some d => if base * n + d < Nat.pow 2 64 then natural base (base * n + d) rest else .error .tooLarge

/-- Every underscore has a digit on both sides; `afterDigit` tells that one stands before. -/
def isSeparated (afterDigit : Bool) : List Char → Bool
  | [] => true
  | ['_'] => false
  | '_' :: rest => afterDigit && isSeparated false rest
  | _ :: rest => isSeparated true rest

/-- The base that a spelling tells, and the digits: hexadecimal after `0x`, octal after `0o` or `0`,
    binary after `0b`, else decimal.  A letter for the base counts as a digit before an underscore. -/
def digitsOf (cs : List Char) : Nat × List Char :=
  match cs with
  | '0' :: mark :: c :: rest =>
    match mark.toLower with
    | 'x' => (16, c :: rest)
    | 'o' => (8, c :: rest)
    | 'b' => (2, c :: rest)
    | _ => (8, mark :: c :: rest)
  | '0' :: rest => (8, rest)
  | cs => (10, cs)

/-- A number of 64 bits without a sign. -/
def magnitude (cs : List Char) : Except Fault Nat := do
  if cs.isEmpty then .error .malformed
  let (base, digits) := digitsOf cs
  let n ← natural base 0 digits
  if isSeparated (base != 10) digits then return n else .error .malformed

/-- A number of 64 bits with a sign. -/
def read (cs : List Char) : Except Fault Int := do
  let (sign, rest) := unsigned cs
  let n ← magnitude rest
  if sign == some true then
    if n ≤ Nat.pow 2 63 then return -(n : Int) else .error .tooLarge
  else if n < Nat.pow 2 63 then return n
  else .error .tooLarge

end PrefixCalc.Integer
