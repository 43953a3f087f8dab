/-
  Points in time as they are written in a YAML text: a day, or a day and a time of day.  Months, days,
  hours, minutes and seconds have one digit or two.
-/
import PrefixCalc.Text.Utf8

namespace PrefixCalc.Yaml.Timestamp

/-- The value of a decimal digit. -/
def digit? (c : Char) : Option Nat := if c.isDigit then some (c.toNat - '0'.toNat) else none

/-- Reads a number of one digit or two. -/
def number? : List Char → Option (Nat × List Char)
  | a :: b :: rest =>
    match digit? a, digit? b with
    | some m, some n => some (10 * m + n, rest)
    | some m, none => some (m, b :: rest)
    | none, _ => none
  | [a] => (digit? a).map fun n => (n, [])
  | [] => none

/-- Reads a number of two digits. -/
def twoDigits? : List Char → Option (Nat × List Char)
  | a :: b :: rest => do return (10 * (← digit? a) + (← digit? b), rest)
  | _ => none

/-- Reads one character. -/
def expect? (c : Char) : List Char → Option (List Char)
  | d :: rest => if c == d then some rest else none
  | [] => none

/-- A leap year. -/
def isLeap (year : Nat) : Bool := year % 4 == 0 && (year % 100 != 0 || year % 400 == 0)

/-- How many days a month has. -/
def daysIn (year month : Nat) : Nat :=
  if month == 2 then (if isLeap year then 29 else 28)
  else if month == 4 || month == 6 || month == 9 || month == 11 then 30
  else 31

/-- Reads a day. -/
def day? (cs : List Char) : Option (List Char) := do
  let digits := cs.takeWhile Char.isDigit
  if digits.length != 4 then none
  let year := digits.foldl (fun n c => 10 * n + (c.toNat - '0'.toNat)) 0
  let (month, rest) ← number? (← expect? '-' (cs.drop 4))
  let (day, rest) ← number? (← expect? '-' rest)
  if 1 ≤ month && month ≤ 12 && 1 ≤ day && day ≤ daysIn year month then some rest else none

/-- Leaves out a fraction of a second. -/
def dropFraction : List Char → List Char
  | c :: d :: rest =>
    if (c == '.' || c == ',') && d.isDigit then rest.dropWhile Char.isDigit else c :: d :: rest
  | cs => cs

/-- Reads a time of day. -/
def time? (cs : List Char) : Option (List Char) := do
  let (hour, rest) ← number? cs
  let (minute, rest) ← number? (← expect? ':' rest)
  let (second, rest) ← number? (← expect? ':' rest)
  if hour < 24 && minute < 60 && second < 60 then some (dropFraction rest) else none

/-- A time zone: a `Z`, or how far it is from there. -/
def isZone : List Char → Bool
  | ['Z'] => true
  | sign :: rest =>
    (sign == '+' || sign == '-') &&
      match twoDigits? rest with
      | some (hours, ':' :: rest) =>
        match twoDigits? rest with
        | some (minutes, []) => hours ≤ 24 && minutes ≤ 60
        | _ => false
      | _ => false
  | [] => false

/-- A point in time.  With a letter between day and time there is a time zone, with spaces there is
    none. -/
def isTimestamp (s : String) : Bool :=
  match day? s.toList with
  | none => false
  | some [] => true
  | some (c :: rest) =>
    if c == 'T' || c == 't' then (time? rest).any isZone
    else c == ' ' && (time? (rest.dropWhile (· == ' '))).any (·.isEmpty)

end PrefixCalc.Yaml.Timestamp
