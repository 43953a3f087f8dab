/-
  The tokens of a YAML text.  Besides the indicators and scalars that are written there are tokens for
  what the layout says: where a block mapping or sequence begins, where it ends, and where a key
  stands.

  A key is recognized only by the colon after it.  So wherever a key might begin a slot is left among
  the tokens, and the colon fills it.  A key has to fit on one line; where the layout demands a key
  (at the column of the mapping) a slot that stays empty is an error.
-/
import PrefixCalc.Yaml.Property

namespace PrefixCalc.Yaml

/-- Tokens. -/
inductive Token
  | documentStart
  | documentEnd
  | mappingStart
  | sequenceStart
  | blockEnd
  /-- An opening brace. -/
  | braceOpen
  /-- A closing brace. -/
  | braceClose
  | bracketOpen
  | bracketClose
  | dash
  | comma
  | key
  | value
  | scalar (text : String) (isPlain : Bool)
  | anchor (name : String)
  | alias (name : String)
  | tag (tag : Tag)
  | directive (directive : Directive)
  | streamEnd
  /-- The text cannot be read any further. -/
  | invalid
deriving Repr, DecidableEq

/-- A place where a key might begin. -/
structure KeySlot where
  /-- The position of the slot among the tokens. -/
  slot : Nat
  place : Place
  /-- The layout demands a key here. -/
  isRequired : Bool

/-- A text in the middle of being cut into tokens. -/
structure Layout where
  reader : Reader
  /-- Tokens in slots, some of them empty. -/
  slots : Array (List Token) := #[]
  /-- The column of the innermost block, negative outside of all. -/
  indent : Int := -1
  /-- The columns of the blocks around it. -/
  outer : List Int := []
  /-- A key may begin here. -/
  keyAllowed : Bool := true
  /-- The place where a key might have begun, in the innermost brackets. -/
  pending : Option KeySlot := none
  /-- The same for the brackets around them; as many as there are open brackets. -/
  pendingOutside : List (Option KeySlot) := []

namespace Layout

/-- Inside of brackets. -/
def inFlow (l : Layout) : Bool := !l.pendingOutside.isEmpty

/-- One more token. -/
def push (l : Layout) (t : Token) : Layout := { l with slots := l.slots.push [t] }

/-- Goes past `n` characters. -/
def skip (l : Layout) (n : Nat) : Layout := { l with reader := l.reader.skip n }

/-- Closes the columns that lie to the right of `column`, given the columns around them. -/
def closedBlocks (column : Int) : Int → List Int → Nat × Int × List Int
  | indent, [] => (0, indent, [])
  | indent, o :: os =>
    if column < indent then
      let (n, i, r) := closedBlocks column o os
      (n + 1, i, r)
    else (0, indent, o :: os)

/-- Ends the blocks that lie to the right of `column`.  Inside of brackets columns do not matter. -/
def unroll (l : Layout) (column : Int) : Layout :=
  if l.inFlow then l
  else
    let (n, indent, outer) := closedBlocks column l.indent l.outer
    { l with
      slots := l.slots ++ Array.replicate n [.blockEnd]
      indent := indent
      outer := outer }

/-- A block begins at `column`, unless there is one already. -/
def roll? (l : Layout) (column : Int) : Option Layout :=
  if !l.inFlow && l.indent < column then
    some { l with indent := column, outer := l.indent :: l.outer }
  else none

/-- Gives up the place where a key might have begun. -/
def dropKey (l : Layout) : Option Layout :=
  match l.pending with
  | none => some l
  | some k => if k.isRequired then none else some { l with pending := none }

/-- A key might begin here. -/
def saveKey (l : Layout) : Option Layout :=
  if l.keyAllowed then do
    let l' ← l.dropKey
    return { l' with
      pending := some {
        slot := l'.slots.size
        place := l'.reader.place
        isRequired := !l'.inFlow && l'.indent == l'.reader.place.column }
      slots := l'.slots.push [] }
  else some l

/-- How far behind its beginning the colon of a key may stand. -/
def keyLength : Nat := 1024

/-- The place where a key began, if the colon at the current place can belong to it. -/
def currentKey? (l : Layout) : Option (Option KeySlot) :=
  match l.pending with
  | none => some none
  | some k =>
    let place := l.reader.place
    if k.place.line < place.line || k.place.index + keyLength < place.index then
      if k.isRequired then none else some none
    else some (some k)

/-- Reads a colon. -/
def fetchValue (l : Layout) : Option Layout := do
  match ← l.currentKey? with
  | some k =>
    let (l, tokens) := match l.roll? k.place.column with
      | some l => (l, [Token.mappingStart, .key])
      | none => (l, [.key])
    return { l.skip 1 with
      slots := (l.slots.setIfInBounds k.slot tokens).push [.value]
      pending := none
      keyAllowed := false }
  | none =>
    let l := { l with pending := none }
    if l.inFlow then
      return { (l.skip 1).push .value with keyAllowed := false }
    else if !l.keyAllowed then none
    else
      let l := match l.roll? l.reader.place.column with
        | some l => l.push .mappingStart
        | none => l
      return { (l.skip 1).push .value with keyAllowed := true }

/-- Reads the dash of a sequence entry. -/
def fetchDash (l : Layout) : Option Layout := do
  let l ← if l.inFlow then some l
    else if !l.keyAllowed then none
    else match l.roll? l.reader.place.column with
      | some l => some (l.push .sequenceStart)
      | none => some l
  let l ← l.dropKey
  return { (l.skip 1).push .dash with keyAllowed := true }

/-- Reads the question mark before a key. -/
def fetchKey (l : Layout) : Option Layout := do
  let l ← if l.inFlow then some l
    else if !l.keyAllowed then none
    else match l.roll? l.reader.place.column with
      | some l => some (l.push .mappingStart)
      | none => some l
  let l ← l.dropKey
  return { (l.skip 1).push .key with keyAllowed := !l.inFlow }

/-- Reads an opening bracket. -/
def fetchOpen (l : Layout) (t : Token) : Option Layout := do
  let l ← l.saveKey
  return { (l.skip 1).push t with
    pending := none
    pendingOutside := l.pending :: l.pendingOutside
    keyAllowed := true }

/-- Reads a closing bracket. -/
def fetchClose (l : Layout) (t : Token) : Option Layout := do
  let l ← l.dropKey
  let (pending, outside) := match l.pendingOutside with
    | p :: ps => (p, ps)
    | [] => (none, [])
  return { (l.skip 1).push t with
    pending := pending
    pendingOutside := outside
    keyAllowed := false }

/-- Reads a comma. -/
def fetchComma (l : Layout) : Option Layout := do
  let l ← l.dropKey
  return { (l.skip 1).push .comma with keyAllowed := true }

/-- Reads a mark between documents. -/
def fetchDocumentMark (l : Layout) (t : Token) : Option Layout := do
  let l ← (l.unroll (-1)).dropKey
  return { (l.skip 3).push t with keyAllowed := false }

/-- The end of the text. -/
def fetchEnd (l : Layout) : Option Layout := do
  let l ← (l.unroll (-1)).dropKey
  return { l.push .streamEnd with keyAllowed := false }

/-- Reads a directive. -/
def fetchDirective (l : Layout) : Option Layout := do
  let l ← (l.unroll (-1)).dropKey
  let (directive, r) ← readDirective l.reader.next
  return { l.push (.directive directive) with reader := r, keyAllowed := false }

/-- Reads an anchor or an alias, of which `mark` makes a token. -/
def fetchAnchor (l : Layout) (mark : String → Token) : Option Layout := do
  let l ← l.saveKey
  let (name, r) ← readAnchor l.reader.next
  return { l.push (mark name) with reader := r, keyAllowed := false }

/-- Reads a tag. -/
def fetchTag (l : Layout) : Option Layout := do
  let l ← l.saveKey
  let (tag, r) ← readTag l.reader.next
  return { l.push (.tag tag) with reader := r, keyAllowed := false }

/-- Takes over a scalar that has been read. -/
def takeScalar (l : Layout) (s : ScalarEnd) (isPlain keyAllowed : Bool) : Layout :=
  { l.push (.scalar s.text isPlain) with reader := s.reader, keyAllowed := keyAllowed }

/-- Reads a plain scalar. -/
def fetchPlain (l : Layout) : Option Layout := do
  let l ← l.saveKey
  let s ← readPlain l.inFlow (l.indent + 1) [] .none l.reader.place l.reader.rest
  return l.takeScalar s true s.lineEnded

/-- Reads a quoted scalar. -/
def fetchQuoted (l : Layout) (isSingle : Bool) : Option Layout := do
  let l ← l.saveKey
  let r := l.reader.next
  let s ← if isSingle then readSingle [] .none r.place r.rest
    else readDouble [] .none .no r.place r.rest
  return l.takeScalar s false false

/-- Reads a block scalar. -/
def fetchBlock (l : Layout) (folded : Bool) : Option Layout := do
  let l ← l.dropKey
  let s ← readBlock folded l.indent l.reader.next
  return l.takeScalar s false true

/-- Goes past white space and comments.  Each line that begins outside of brackets may begin with a
    key; where a key may begin, a tab is no white space. -/
def skipSpace (l : Layout) : Nat → Layout
  | 0 => l
  | fuel + 1 =>
    match l.reader.rest with
    | [] => l
    | c :: _ =>
      if c == ' ' || (c == '\t' && (l.inFlow || !l.keyAllowed)) then (l.skip 1).skipSpace fuel
      else if c == '#' then
        { l with reader := l.reader.skipWhile fun c => !isBreak c }.skipSpace fuel
      else if isBreak c then
        { l.skip 1 with keyAllowed := l.keyAllowed || !l.inFlow }.skipSpace fuel
      else l

/-- Indicators, with which no plain scalar begins. -/
def indicators : List Char :=
  ['-', '?', ':', ',', '[', ']', '\x7b', '\x7d', '#', '&', '*', '!', '|', '>', '\'', '"', '%', '@',
    '\x60']

/-- A plain scalar may begin here. -/
def beginsPlain (inFlow : Bool) (c : Char) (rest : List Char) : Bool :=
  if isGap c || isBreak c then false
  else if !indicators.contains c then true
  else if c == '-' then !(match rest with
    | d :: _ => isGap d
    | [] => false)
  else !inFlow && (c == '?' || c == ':') && !atSpace rest

/-- Reads one token. -/
def fetch (l : Layout) : Option Layout :=
  let l := l.skipSpace (l.reader.rest.length + 1)
  let l := l.unroll l.reader.place.column
  match l.reader.rest with
  | [] => l.fetchEnd
  | c :: rest =>
    let atLineStart := l.reader.place.column == 0
    if atLineStart && c == '%' then l.fetchDirective
    else if atLineStart && atDocumentMark (c :: rest) then
      l.fetchDocumentMark (if c == '-' then .documentStart else .documentEnd)
    else if c == '[' then l.fetchOpen .bracketOpen
    else if c == '\x7b' then l.fetchOpen .braceOpen
    else if c == ']' then l.fetchClose .bracketClose
    else if c == '\x7d' then l.fetchClose .braceClose
    else if c == ',' then l.fetchComma
    else if c == '-' && atSpace rest then l.fetchDash
    else if c == '?' && (l.inFlow || atSpace rest) then l.fetchKey
    else if c == ':' && (l.inFlow || atSpace rest) then l.fetchValue
    else if c == '*' then l.fetchAnchor .alias
    else if c == '&' then l.fetchAnchor .anchor
    else if c == '!' then l.fetchTag
    else if c == '|' && !l.inFlow then l.fetchBlock false
    else if c == '>' && !l.inFlow then l.fetchBlock true
    else if c == '\'' then l.fetchQuoted true
    else if c == '"' then l.fetchQuoted false
    else if beginsPlain l.inFlow c rest then l.fetchPlain
    else none

/-- The tokens written so far. -/
def tokens (l : Layout) : List Token := l.slots.toList.flatten

/-- Reads tokens to the end of the text, or to where it cannot be read any further. -/
def fetchAll (l : Layout) : Nat → List Token
  | 0 => l.tokens ++ [.invalid]
  | fuel + 1 =>
    match l.fetch with
    | none => l.tokens ++ [.invalid]
    | some l' => if l'.slots.back? == some [.streamEnd] then l'.tokens else l'.fetchAll fuel

end Layout

/-- The tokens of a text.  Each token but the last takes at least one character. -/
def tokens (cs : List Char) : List Token :=
  ({ reader := { rest := cs } } : Layout).fetchAll (cs.length + 1)

end PrefixCalc.Yaml
