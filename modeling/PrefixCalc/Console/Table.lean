/-
  Tables of two columns in a frame.  Headings stand in the middle of their column, numbers to the
  right, all else to the left.  A cell that is too wide is broken between words into lines as even as
  possible, and a cell with fewer lines than its neighbour is filled up with blank ones.
-/
import PrefixCalc.Text.Columns
import PrefixCalc.Text.Blank

namespace PrefixCalc.Table

/-! ## Breaking cells into lines -/

/-- Cells wider than this are broken, if they have more than one word. -/
def widestCell : Nat := 30

/-- What a line longer than it should be costs. -/
def penalty : Nat := 100000

/-- What the best way to break a text costs while none is known. -/
def unknownCost : Nat := Nat.pow 2 31 - 1

/-- Cuts a text at a character. -/
def splitAt (stop : Char) (current : List Char) : List Char → List (List Char)
  | [] => [current.reverse]
  | c :: rest =>
    if c == stop then current.reverse :: splitAt stop [] rest else splitAt stop (c :: current) rest

/-- A way to break the words from some place on: what it costs and the lines it gives. -/
structure Breaking where
  cost : Nat
  lines : List (List (List Char))

/-- The width of words on one line, one space between them. -/
def lineWidth (words : List (List Char)) : Nat :=
  (words.map Columns.ofText).foldl (· + ·) (words.length - 1)

/-- What a line costs that is not the last one. -/
def lineCost (limit width : Nat) : Nat :=
  let d := if width ≤ limit then limit - width else width - limit
  d * d + (if limit < width then penalty else 0)

/-- Tries every end of the first line: `line` is what stands on it so far, and `later` holds for each
    further word the best way to break from that word on. -/
def bestBreak (limit : Nat) (line : List (List Char)) (best : Breaking) :
    List (List Char) → List Breaking → Breaking
  | w :: words, b :: later =>
    let cost := lineCost limit (lineWidth line) + b.cost
    let best := if cost < best.cost then ⟨cost, line :: b.lines⟩ else best
    bestBreak limit (line ++ [w]) best words later
  | _, _ => best

/-- The best ways to break a list of words from each of its words on. -/
def breakings (limit : Nat) : List (List Char) → List Breaking
  | [] => []
  | w :: words =>
    let later := breakings limit words
    let here : Breaking :=
      if lineWidth (w :: words) ≤ limit then ⟨0, [w :: words]⟩
      else bestBreak limit [w] ⟨unknownCost, [w :: words]⟩ words later
    here :: later

/-- Words with a space between them. -/
def joinWords (words : List (List Char)) : List Char := [' '].intercalate words

/-- The parts of a text that start with an escape character and change how a terminal shows what
    follows take no columns.  This is the length of such a part after its escape character and
    bracket, if one stands there: numbers of up to three digits with semicolons, and a letter. -/
def escapeLength? : Nat → Nat → List Char → Option Nat
  | _, _, [] => none
  | digits, length, c :: rest =>
    if c.isDigit then
      if digits < 3 then escapeLength? (digits + 1) (length + 1) rest else none
    else if c == ';' then if digits == 0 then none else escapeLength? 0 (length + 1) rest
    else if c == 'm' || c == '|' || c == 'K' then
      if digits == 0 && length != 0 then none else some (length + 1)
    else none

/-- A text without the parts that take no columns; `skip` characters belong to such a part. -/
def withoutEscapes : Nat → List Char → List Char
  | _, [] => []
  | skip + 1, _ :: rest => withoutEscapes skip rest
  | 0, c :: rest =>
    match c, rest with
    | '\x1B', '[' :: more =>
      match escapeLength? 0 0 more with
      | some n => withoutEscapes (n + 1) rest
      | none => c :: withoutEscapes 0 rest
    | _, _ => c :: withoutEscapes 0 rest

/-- The columns that a cell's text takes. -/
def width (cs : List Char) : Nat := Columns.ofText (withoutEscapes 0 cs)

/-- The greatest of some widths. -/
def widest (ns : List Nat) : Nat := ns.foldl max 0

/-- The lines of a cell. -/
def cellLines (text : String) : List (List Char) :=
  let raw := splitAt '\n' [] text.toList
  let words := splitAt ' ' [] (joinWords raw)
  let limit := widest (min (widest (raw.map width)) widestCell :: words.map Columns.ofText)
  match breakings limit words with
  | b :: _ => b.lines.map joinWords
  | [] => []

/-- The width that a cell asks for. -/
def cellWidth (text : String) : Nat :=
  let raw := splitAt '\n' [] text.toList
  widest (min (widest (raw.map width)) widestCell :: (cellLines text).map width)

/-! ## Laying out -/

/-- Digits in groups of three with commas between them, or without commas; then perhaps a point and
    more digits.  `group` counts the digits since the last comma, `isGrouped` tells that there was
    one. -/
def isDecimalFrom (isGrouped : Bool) (group : Nat) : List Char → Bool
  | [] => if isGrouped then group == 3 else group != 0
  | c :: rest =>
    if c.isDigit then isDecimalFrom isGrouped (group + 1) rest
    else if c == ',' then
      (if isGrouped then group == 3 else group != 0 && group ≤ 3) && isDecimalFrom true 0 rest
    else if c == '.' then
      (if isGrouped then group == 3 else group != 0) && !rest.isEmpty && rest.all Char.isDigit
    else false

/-- A text without white space around it. -/
def trimmed (cs : List Char) : List Char :=
  ((cs.dropWhile isBlank).reverse.dropWhile isBlank).reverse

/-- A number, which stands to the right of its cell. -/
def isDecimal (cs : List Char) : Bool :=
  match cs with
  | '-' :: rest => isDecimalFrom false 0 rest
  | _ => isDecimalFrom false 0 cs

/-- So many spaces. -/
def spaces (n : Nat) : List Char := List.replicate n ' '

/-- A text in the middle of a column. -/
def centered (column : Nat) (cs : List Char) : List Char :=
  let gap := column - width cs
  spaces (gap / 2) ++ cs ++ spaces (gap - gap / 2)

/-- A text at its side of a column. -/
def aligned (column : Nat) (cs : List Char) : List Char :=
  if isDecimal (trimmed cs) then spaces (column - width cs) ++ cs
  else cs ++ spaces (column - width cs)

/-- A cell between the lines of the frame. -/
def framed (cs : List Char) : List Char := '|' :: ' ' :: cs ++ [' ']

/-- One printed line of a row. -/
def rowLine (left right : List Char) : List Char := framed left ++ framed right ++ ['|', '\n']

/-- A horizontal line of the frame. -/
def rule (left right : Nat) : List Char :=
  '+' :: List.replicate (left + 2) '-' ++ '+' :: List.replicate (right + 2) '-' ++ ['+', '\n']

/-- The lines of two cells side by side, the shorter one filled up. -/
def sideBySide : List (List Char) → List (List Char) → List (List Char × List Char)
  | l :: ls, r :: rs => (l, r) :: sideBySide ls rs
  | [], rs => rs.map fun r => (spaces 2, r)
  | ls, [] => ls.map fun l => (l, spaces 2)

/-- The printed lines of a row. -/
def row (left right : Nat) (cells : String × String) : List Char :=
  (sideBySide (cellLines cells.1) (cellLines cells.2)).flatMap fun (l, r) =>
    rowLine (aligned left l) (aligned right r)

/-- A table with headings. -/
def render (headings : String × String) (rows : List (String × String)) : String :=
  let left := widest (cellWidth headings.1 :: rows.map fun r => cellWidth r.1)
  let right := widest (cellWidth headings.2 :: rows.map fun r => cellWidth r.2)
  let heading := rowLine (centered left headings.1.toList) (centered right headings.2.toList)
  String.ofList (rule left right ++ heading ++ rule left right ++
    rows.flatMap (row left right) ++ rule left right)

end PrefixCalc.Table
