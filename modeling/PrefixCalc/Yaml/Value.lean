/-
  What scalars mean.  A plain scalar may be nothing, a truth value, a whole number or a number with a
  point or an exponent; a scalar in quotation marks, and a plain one that is none of these, is a text.
  A tag says what a scalar has to be, whether it stands in quotation marks or not.

  A text is made of characters.  Bytes that are written in base 64 (`!!binary`) can be any, but they
  are taken only if they are the UTF-8 of a text; others do not fit the tag.
-/
import PrefixCalc.Number.Decimal
import PrefixCalc.Number.Integer
import PrefixCalc.Text.Base64
import PrefixCalc.Yaml.Timestamp

namespace PrefixCalc.Yaml

/-- The meaning of a scalar. -/
inductive Value
  | null
  | bool (b : Bool)
  | int (n : Int)
  | float (x : Float)
  | text (s : String)
  /-- As a key, it merges other mappings into its own; elsewhere it is a text. -/
  | merge
deriving Repr

namespace Value

/-- The spellings of nothing. -/
def isNull (s : String) : Bool := ["", "~", "null", "Null", "NULL"].contains s

/-- The spellings of truth values. -/
def bool? (s : String) : Option Bool :=
  if ["true", "True", "TRUE"].contains s then some true
  else if ["false", "False", "FALSE"].contains s then some false
  else none

/-- The numbers that are written with letters. -/
def special? (s : String) : Option Float :=
  if [".nan", ".NaN", ".NAN"].contains s then some Binary64.nan
  else if [".inf", ".Inf", ".INF", "+.inf", "+.Inf", "+.INF"].contains s then
    some Binary64.infinity
  else if ["-.inf", "-.Inf", "-.INF"].contains s then
    some (Binary64.ofPattern true Binary64.infinityPattern)
  else none

/-- A whole number, in 64 bits with a sign or without one. -/
def int? (cs : List Char) : Option Int :=
  match Integer.read cs, Integer.magnitude cs with
  | .ok n, _ => some n
  | .error _, .ok n => some n
  | .error _, .error _ => none

/-- A number with an optional sign. -/
def float? (cs : List Char) : Option Float := do
  let (sign, rest) := Integer.unsigned cs
  (← Decimal.read rest).toFloat? (sign.getD false)

/-- What a plain scalar means.  Underscores between digits do not count. -/
def ofPlain (s : String) : Value :=
  if isNull s then .null
  else
    match bool? s, special? s with
    | some b, _ => .bool b
    | none, some x => .float x
    | none, none =>
      match s.toList with
      | [] => .null
      | c :: rest =>
        if c == '.' then
          match float? (c :: rest) with
          | some x => .float x
          | none => .text s
        else if c.isDigit || c == '+' || c == '-' then
          let plain := (c :: rest).filter (· != '_')
          match int? plain, float? plain with
          | some n, _ => .int n
          | none, some x => .float x
          | none, none => .text s
        else .text s

/-- The spelling of the key that merges mappings. -/
def mergeKey : String := "<<"

/-- What a scalar without a tag means. -/
def ofUntagged (s : String) (isPlain : Bool) : Value :=
  if !isPlain then .text s
  else if s == mergeKey then .merge
  else .ofPlain s

/-- A whole number of 64 bits with a sign as a number with a point. -/
def toFloat? : Value → Option Float
  | .float x => some x
  | .int n => if n < 9223372036854775808 then some (Binary64.nearest (n < 0) n.natAbs 1) else none
  | _ => none

/-- What a scalar with a tag means, if the tag fits.  A tag that is not known makes it a text. -/
def ofTagged (tag s : String) : Option Value :=
  let plain := ofPlain s
  match tag with
  | "!!null" => if plain matches .null then some plain else none
  | "!!bool" => if plain matches .bool _ then some plain else none
  | "!!int" => if plain matches .int _ then some plain else none
  | "!!float" => plain.toFloat?.map .float
  | "!!timestamp" => if Timestamp.isTimestamp s then some (.text s) else none
  | "!!binary" => (Base64.decode? s.toList).bind fun bs =>
    if Utf8.isLawful bs then some (.text (Utf8.toString bs)) else none
  | "!!merge" => some (if s == mergeKey then .merge else .text s)
  | _ => some (.text s)

end Value

end PrefixCalc.Yaml
