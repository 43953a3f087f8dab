/-
  A YAML text and the place that has been reached in it.  Line ends are made alike before reading:
  what is left as a line break is the line feed and the two Unicode separators.
-/
import PrefixCalc.Text.Utf16

namespace PrefixCalc.Yaml

/-- A line break. -/
def isBreak (c : Char) : Bool := c == '\n' || c == '\u2028' || c == '\u2029'

/-- A space or a tab. -/
def isGap (c : Char) : Bool := c == ' ' || c == '\t'

/-- A break, a gap or the end stands here. -/
def atSpace : List Char → Bool
  | [] => true
  | c :: _ => isGap c || isBreak c

/-- A break or the end stands here. -/
def atLineEnd : List Char → Bool
  | [] => true
  | c :: _ => isBreak c

/-- The marks `---` and `...` between documents stand here. -/
def atDocumentMark : List Char → Bool
  | '-' :: '-' :: '-' :: rest => atSpace rest
  | '.' :: '.' :: '.' :: rest => atSpace rest
  | _ => false

/-- The characters a text may hold. -/
def isAllowed (c : Char) : Bool :=
  let n := c.toNat
  n == 0x09 || n == 0x0A || n == 0x0D || (0x20 ≤ n && n ≤ 0x7E) || n == 0x85
    || (0xA0 ≤ n && n ≤ 0xD7FF) || (0xE000 ≤ n && n ≤ 0xFFFD) || 0x10000 ≤ n

/-- One kind of line feed for all. -/
def unifyBreaks : List Char → List Char
  | [] => []
  | '\r' :: '\n' :: rest => '\n' :: unifyBreaks rest
  | '\r' :: rest => '\n' :: unifyBreaks rest
  | '\u0085' :: rest => '\n' :: unifyBreaks rest
  | c :: rest => c :: unifyBreaks rest

/-- The characters of a raw text, if it is lawful.  A byte order mark in front tells the encoding and
    is not part of the text; without one, the text is UTF-8. -/
def decoded? (bs : Bytes) : Option (List Char) :=
  match bs with
  | 0xFF :: 0xFE :: rest => Utf16.decode? false rest
  | 0xFE :: 0xFF :: rest => Utf16.decode? true rest
  | 0xEF :: 0xBB :: 0xBF :: rest => if Utf8.isLawful rest then some (Utf8.decode rest) else none
  | bs => if Utf8.isLawful bs then some (Utf8.decode bs) else none

/-- The characters of a raw text with line ends made alike, if all of them are allowed. -/
def characters? (bs : Bytes) : Option (List Char) := do
  let cs ← decoded? bs
  if cs.all isAllowed then some (unifyBreaks cs) else none

/-- A place in a text, counted from zero. -/
structure Place where
  line : Nat := 0
  column : Nat := 0
  index : Nat := 0
deriving Repr

/-- The place after a character. -/
def Place.after (p : Place) (c : Char) : Place :=
  if isBreak c then ⟨p.line + 1, 0, p.index + 1⟩ else ⟨p.line, p.column + 1, p.index + 1⟩

/-- What is left of a text, and the place where it begins. -/
structure Reader where
  rest : List Char
  place : Place := {}
deriving Repr

namespace Reader

/-- Goes past one character. -/
def next (r : Reader) : Reader :=
  match r.rest with
  | [] => r
  | c :: rest => ⟨rest, r.place.after c⟩

/-- Goes past `n` characters. -/
def skip (r : Reader) : Nat → Reader
  | 0 => r
  | n + 1 => (r.next).skip n

/-- Goes past the characters of a kind. -/
def skipWhile (p : Char → Bool) (r : Reader) : Reader := r.skip (r.rest.takeWhile p).length

end Reader

end PrefixCalc.Yaml
