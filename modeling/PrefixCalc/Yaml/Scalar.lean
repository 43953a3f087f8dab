/-
  The texts of scalars.  A scalar may go over several lines; then a single line break between two
  parts reads as a space, and further breaks stay.  In quotation marks white space at the end of the
  last line stays too; in a double quoted scalar there are escapes, and a line break after a backslash
  is no break at all.  A block scalar keeps or folds the lines that are indented below it.
-/
import PrefixCalc.Yaml.Reader

namespace PrefixCalc.Yaml

/-- White space met inside a scalar, which counts only if more text follows. -/
structure Space where
  /-- Spaces and tabs before the first line break, the last one first. -/
  gaps : List Char := []
  /-- A line has come to its end. -/
  lineEnded : Bool := false
  /-- The break that ended it, unless a backslash stood before it. -/
  first : Option Char := none
  /-- Further breaks, the last one first. -/
  more : List Char := []

namespace Space

/-- Nothing was met. -/
def none : Space := {}

/-- One more character of white space. -/
def add (s : Space) (c : Char) : Space :=
  if isBreak c then
    if s.lineEnded then { s with more := c :: s.more }
    else { gaps := [], lineEnded := true, first := some c }
  else if s.lineEnded then s
  else { s with gaps := c :: s.gaps }

/-- A line break that a backslash takes back. -/
def escapedBreak : Space := { lineEnded := true }

/-- Something was met. -/
def isMet (s : Space) : Bool := s.lineEnded || !s.gaps.isEmpty

/-- What the white space reads as, the last character first. -/
def reversedText (s : Space) : List Char :=
  if s.lineEnded then
    match s.first with
    | some '\n' => if s.more.isEmpty then [' '] else s.more
    | some c => s.more ++ [c]
    | Option.none => s.more
  else s.gaps

end Space

/-- A scalar that has been read, and what follows it. -/
structure ScalarEnd where
  text : String
  reader : Reader
  /-- The scalar ended with the end of a line. -/
  lineEnded : Bool := false

/-! ## Plain scalars -/

/-- A plain scalar ends before this character. -/
def endsPlain (inFlow : Bool) (c : Char) (rest : List Char) : Bool :=
  (c == ':' && atSpace rest) ||
    (inFlow && (c == ',' || c == '?' || c == '[' || c == ']' || c == '\x7b' || c == '\x7d'))

/-- Reads a plain scalar.  Outside of brackets its lines stand at column `indent` or to the right. -/
def readPlain (inFlow : Bool) (indent : Int) (text : List Char) (space : Space) (place : Place) :
    List Char → Option ScalarEnd
  | [] => some ⟨String.ofList text.reverse, ⟨[], place⟩, space.lineEnded⟩
  | c :: rest =>
    if isGap c || isBreak c then
      if c == '\t' && space.lineEnded && place.column < indent then none
      else readPlain inFlow indent text (space.add c) (place.after c) rest
    else
      let isOver := space.isMet &&
        ((!inFlow && place.column < indent) || c == '#' ||
          (place.column == 0 && atDocumentMark (c :: rest)))
      if isOver || endsPlain inFlow c rest then
        some ⟨String.ofList text.reverse, ⟨c :: rest, place⟩, space.lineEnded⟩
      else
        readPlain inFlow indent (c :: (space.reversedText ++ text)) .none (place.after c) rest

/-! ## Quoted scalars -/

/-- Reads a single quoted scalar whose first mark has been read. -/
def readSingle (text : List Char) (space : Space) (place : Place) : List Char → Option ScalarEnd
  | [] => none
  | c :: rest =>
    if isGap c || isBreak c then readSingle text (space.add c) (place.after c) rest
    else if place.column == 0 && atDocumentMark (c :: rest) then none
    else
      let text := space.reversedText ++ text
      if c == '\'' then
        match rest with
        | '\'' :: rest => readSingle ('\'' :: text) .none ((place.after c).after c) rest
        | _ => some ⟨String.ofList text.reverse, ⟨rest, place.after c⟩, false⟩
      else readSingle (c :: text) .none (place.after c) rest

/-- The character of a one letter escape. -/
def escape? (c : Char) : Option Char :=
  match c with
  | '0' => some '\x00'
  | 'a' => some '\x07'
  | 'b' => some '\x08'
  | 't' | '\t' => some '\t'
  | 'n' => some '\n'
  | 'v' => some '\x0B'
  | 'f' => some '\x0C'
  | 'r' => some '\r'
  | 'e' => some '\x1B'
  | ' ' | '"' | '\'' | '\\' => some c
  | 'N' => some '\u0085'
  | '_' => some '\u00A0'
  | 'L' => some '\u2028'
  | 'P' => some '\u2029'
  | _ => none

/-- How many digits a numeric escape has. -/
def codeLength? (c : Char) : Option Nat :=
  match c with
  | 'x' => some 2
  | 'u' => some 4
  | 'U' => some 8
  | _ => none

/-- The value of a hexadecimal digit. -/
def hexValue? (c : Char) : Option Nat :=
  if c.isDigit then some (c.toNat - '0'.toNat)
  else if 'a' ≤ c ∧ c ≤ 'f' then some (c.toNat - 'a'.toNat + 10)
  else if 'A' ≤ c ∧ c ≤ 'F' then some (c.toNat - 'A'.toNat + 10)
  else none

/-- The character with a code, if there is one. -/
def character? (n : Nat) : Option Char := if n.isValidChar then some (Char.ofNat n) else none

/-- What a double quoted scalar is in the middle of. -/
inductive Escaping
  | no
  /-- A backslash has been read. -/
  | started
  /-- Digits of a code have been read, and `left` more are to come. -/
  | code (left value : Nat)

/-- Reads a double quoted scalar whose first mark has been read. -/
def readDouble (text : List Char) (space : Space) (escaping : Escaping) (place : Place) :
    List Char → Option ScalarEnd
  | [] => none
  | c :: rest =>
    let after := place.after c
    match escaping with
    | .started =>
      if isBreak c then readDouble text .escapedBreak .no after rest
      else
        match escape? c, codeLength? c with
        | some d, _ => readDouble (d :: text) .none .no after rest
        | none, some n => readDouble text .none (.code n 0) after rest
        | none, none => none
    | .code left value =>
      match hexValue? c with
      | none => none
      | some d =>
        let value := 16 * value + d
        if left == 1 then
          match character? value with
          | some ch => readDouble (ch :: text) .none .no after rest
          | none => none
        else readDouble text .none (.code (left - 1) value) after rest
    | .no =>
      if isGap c || isBreak c then readDouble text (space.add c) .no after rest
      else if place.column == 0 && atDocumentMark (c :: rest) then none
      else
        let text := space.reversedText ++ text
        if c == '"' then some ⟨String.ofList text.reverse, ⟨rest, after⟩, false⟩
        else if c == '\\' then readDouble text .none .started after rest
        else readDouble (c :: text) .none .no after rest

/-! ## Block scalars -/

/-- What becomes of the line breaks at the end of a block scalar. -/
inductive Chomping
  | strip
  | clip
  | keep
deriving DecidableEq

/-- The sign of a block scalar's head that says what becomes of its last line breaks. -/
def chomping? : Char → Option Chomping
  | '+' => some .keep
  | '-' => some .strip
  | _ => none

/-- A digit other than zero. -/
def increment? (c : Char) : Option Nat :=
  if '1' ≤ c ∧ c ≤ '9' then some (c.toNat - '0'.toNat) else none

/-- Reads the head of a block scalar after its first character: how it is chomped, and by how many
    columns its lines are indented if that is said. -/
def readBlockHead (cs : List Char) : Chomping × Option Nat × Nat :=
  match cs with
  | [] => (.clip, none, 0)
  | c :: rest =>
    match chomping? c, increment? c with
    | some ch, _ =>
      match rest.head?.bind increment? with
      | some n => (ch, some n, 2)
      | none => (ch, none, 1)
    | none, some n =>
      match rest.head?.bind chomping? with
      | some ch => (ch, some n, 2)
      | none => (.clip, some n, 1)
    | none, none => (.clip, none, 0)

/-- A line of a text and the break after it, if there is one. -/
structure TextLine where
  text : List Char
  ending : Option Char

/-- Cuts a text into lines.  `current` holds the line that is being read, its last character first. -/
def cutLines (current : List Char) : List Char → List TextLine
  | [] => if current.isEmpty then [] else [⟨current.reverse, none⟩]
  | c :: rest =>
    if isBreak c then ⟨current.reverse, some c⟩ :: cutLines [] rest else cutLines (c :: current) rest

/-- How far a line is indented, up to `most` columns. -/
def indentation (most : Option Nat) (l : List Char) : Nat :=
  let n := (l.takeWhile (· == ' ')).length
  match most with
  | some k => min n k
  | none => n

/-- How far the lines of a block scalar are indented when its head does not say: as far as the first
    line with text or the widest line before it, but not less than `least`.  A tab is refused. -/
def detectIndent (least widest : Nat) : List TextLine → Option Nat
  | [] => some (max least widest)
  | l :: rest =>
    let n := indentation none l.text
    if (l.text.drop n).head? == some '\t' then none
    else if n == l.text.length && l.ending.isSome then detectIndent least (max widest n) rest
    else some (max least (max widest n))

/-- A block scalar in the middle of its lines. -/
structure BlockState where
  /-- The text so far, the last character first. -/
  text : List Char := []
  /-- The break after the last line with text. -/
  leading : List Char := []
  /-- The breaks after it, the last one first. -/
  trailing : List Char := []
  /-- The last line with text began with white space. -/
  wasIndented : Bool := false

/-- One more line with text. -/
def BlockState.addLine (folded : Bool) (s : BlockState) (text : List Char) (ending : Option Char) :
    BlockState :=
  let isIndented := match text with
    | c :: _ => isGap c
    | [] => false
  let joint : List Char :=
    if folded && !s.wasIndented && !isIndented && s.leading == ['\n'] then
      if s.trailing.isEmpty then [' '] else []
    else s.leading
  { text := text.reverse ++ (s.trailing ++ (joint ++ s.text))
    leading := ending.toList
    trailing := []
    wasIndented := isIndented }

/-- Reads the lines of a block scalar; gives what is left, with the columns of the next line that are
    already passed, and how many lines were taken.  A tab in the indentation is refused. -/
def readBlockLines (folded : Bool) (indent : Nat) (s : BlockState) (taken : Nat) :
    List TextLine → Option (BlockState × Nat × Nat × List TextLine)
  | [] => some (s, taken, 0, [])
  | l :: rest =>
    let n := indentation (some indent) l.text
    let left := l.text.drop n
    if n < indent && left.head? == some '\t' then none
    else if left.isEmpty && l.ending.isSome then
      readBlockLines folded indent { s with trailing := l.ending.toList ++ s.trailing } (taken + 1) rest
    else if n == indent && !left.isEmpty then
      readBlockLines folded indent (s.addLine folded left l.ending) (taken + 1) rest
    else some (s, taken, n, l :: rest)

/-- Lines put together again. -/
def joinLines (ls : List TextLine) : List Char := ls.flatMap fun l => l.text ++ l.ending.toList

/-- Reads a block scalar whose first character has been read; `parent` is the column of the block
    around it. -/
def readBlock (folded : Bool) (parent : Int) (r : Reader) : Option ScalarEnd :=
  let (chomping, increment, headLength) := readBlockHead r.rest
  let r := (r.skip headLength).skipWhile isGap
  let r := if r.rest.head? == some '#' then r.skipWhile (fun c => !isBreak c) else r
  if !atLineEnd r.rest then none
  else do
    let r := r.next
    let lines := cutLines [] r.rest
    let indent ← match increment with
      | some n => some ((max parent 0).toNat + n)
      | none => detectIndent (max (parent + 1) 1).toNat 0 lines
    let (s, taken, column, left) ← readBlockLines folded indent {} 0 lines
    let tail : List Char :=
      match chomping with
      | .strip => []
      | .clip => s.leading
      | .keep => s.trailing ++ s.leading
    let rest := joinLines left
    return ⟨String.ofList (tail ++ s.text).reverse,
      ⟨rest.drop column, ⟨r.place.line + taken, column,
        r.place.index + (r.rest.length - rest.length) + column⟩⟩, true⟩

end PrefixCalc.Yaml
