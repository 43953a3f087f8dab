/-
  The tree of a YAML document as it is written: scalars, sequences, mappings and aliases, with anchors
  and tags on them.  Where a key or a value is left out, an empty plain scalar stands for it.
-/
import PrefixCalc.Yaml.Token

namespace PrefixCalc.Yaml

/-- What is said about a node in front of it. -/
structure Marks where
  anchor : Option String := none
  tag : Option Tag := none
deriving Repr, DecidableEq

/-- Trees. -/
inductive Tree
  | scalar (text : String) (isPlain : Bool)
  | sequence (items : List Tree)
  | mapping (entries : List (Tree × Tree))
  | alias (name : String)
  | marked (marks : Marks) (tree : Tree)
deriving Repr, Inhabited

namespace Tree

/-- What is left out. -/
def empty : Tree := .scalar "" true

/-- Reads an anchor, a tag or both, in any order. -/
def takeMarks : List Token → Marks × List Token
  | .anchor name :: .tag tag :: ts => (⟨name, tag⟩, ts)
  | .tag tag :: .anchor name :: ts => (⟨name, tag⟩, ts)
  | .anchor name :: ts => (⟨name, none⟩, ts)
  | .tag tag :: ts => (⟨none, tag⟩, ts)
  | ts => ({}, ts)

/-- Puts marks on what has been read. -/
def withMarks (marks : Marks) : Option (Tree × List Token) → Option (Tree × List Token)
  | some (tree, ts) => some (if marks = {} then tree else .marked marks tree, ts)
  | none => none

/-- Marks that nothing follows stand on an empty scalar. -/
def aloneMarks (marks : Marks) (ts : List Token) : Option (Tree × List Token) :=
  if marks = {} then none else some (.marked marks empty, ts)

/-- Nothing stands here in a block mapping. -/
def isAbsentInBlock : List Token → Bool
  | .key :: _ | .value :: _ | .blockEnd :: _ => true
  | _ => false

/-- Nothing stands here in a block sequence. -/
def isAbsentInItems : List Token → Bool
  | .dash :: _ | .key :: _ | .value :: _ | .blockEnd :: _ => true
  | _ => false

/-- Nothing stands here in brackets. -/
def isAbsentInFlow : List Token → Bool
  | .value :: _ | .comma :: _ | .braceClose :: _ | .bracketClose :: _ => true
  | _ => false

/-- A value, if a colon stands here, read with `parse` unless `isAbsent`. -/
def valueWith (isAbsent : List Token → Bool) (parse : List Token → Option (Tree × List Token)) :
    List Token → Option (Tree × List Token)
  | .value :: ts => if isAbsent ts then some (empty, ts) else parse ts
  | ts => some (empty, ts)

mutual

/-- Reads a tree.  Block collections are read only if `isBlock`, and a sequence at the column of the
    mapping around it only if `isIndentless`. -/
def parse : Nat → (isBlock isIndentless : Bool) → List Token → Option (Tree × List Token)
  | 0, _, _, _ => none
  | fuel + 1, isBlock, isIndentless, ts =>
    match ts with
    | .alias name :: ts => some (.alias name, ts)
    | ts =>
      let (marks, ts) := takeMarks ts
      match ts with
      | .scalar text isPlain :: rest => withMarks marks (some (.scalar text isPlain, rest))
      | .bracketOpen :: rest => withMarks marks (parseBrackets fuel true [] rest)
      | .braceOpen :: rest => withMarks marks (parseBraces fuel true [] rest)
      | .dash :: _ =>
        if isIndentless then withMarks marks (parseItems fuel false [] ts) else aloneMarks marks ts
      | .sequenceStart :: rest =>
        if isBlock then withMarks marks (parseItems fuel true [] rest) else aloneMarks marks ts
      | .mappingStart :: rest =>
        if isBlock then withMarks marks (parseMapping fuel [] rest) else aloneMarks marks ts
      | _ => aloneMarks marks ts

/-- Reads the entries of a block mapping. -/
def parseMapping : Nat → List (Tree × Tree) → List Token → Option (Tree × List Token)
  | 0, _, _ => none
  | fuel + 1, done, ts =>
    match ts with
    | .key :: ts => do
      let (k, ts) ← if isAbsentInBlock ts then some (empty, ts) else parse fuel true true ts
      let (v, ts) ← valueWith isAbsentInBlock (parse fuel true true) ts
      parseMapping fuel ((k, v) :: done) ts
    | .blockEnd :: ts => some (.mapping done.reverse, ts)
    | _ => none

/-- Reads the items of a block sequence, which has an end of its own if `isClosed`. -/
def parseItems : Nat → (isClosed : Bool) → List Tree → List Token → Option (Tree × List Token)
  | 0, _, _, _ => none
  | fuel + 1, isClosed, done, ts =>
    match ts with
    | .dash :: ts => do
      let (item, ts) ← if isAbsentInItems ts then some (empty, ts) else parse fuel true false ts
      parseItems fuel isClosed (item :: done) ts
    | .blockEnd :: rest => some (.sequence done.reverse, if isClosed then rest else ts)
    | _ => if isClosed then none else some (.sequence done.reverse, ts)

/-- Reads the entries between braces. -/
def parseBraces : Nat → (isFirst : Bool) → List (Tree × Tree) → List Token →
    Option (Tree × List Token)
  | 0, _, _, _ => none
  | fuel + 1, isFirst, done, ts =>
    match isFirst, ts with
    | _, .braceClose :: ts => some (.mapping done.reverse, ts)
    | false, .comma :: ts => parseBraceEntry fuel done ts
    | false, _ => none
    | true, ts => parseBraceEntry fuel done ts

/-- Reads one entry between braces, and the entries after it. -/
def parseBraceEntry : Nat → List (Tree × Tree) → List Token → Option (Tree × List Token)
  | 0, _, _ => none
  | fuel + 1, done, ts =>
    match ts with
    | .key :: ts => do
      let (k, ts) ← if isAbsentInFlow ts then some (empty, ts) else parse fuel false false ts
      let (v, ts) ← valueWith isAbsentInFlow (parse fuel false false) ts
      parseBraces fuel false ((k, v) :: done) ts
    | .braceClose :: ts => some (.mapping done.reverse, ts)
    | ts => do
      let (k, ts) ← parse fuel false false ts
      parseBraces fuel false ((k, empty) :: done) ts

/-- Reads the items between brackets. -/
def parseBrackets : Nat → (isFirst : Bool) → List Tree → List Token → Option (Tree × List Token)
  | 0, _, _, _ => none
  | fuel + 1, isFirst, done, ts =>
    match isFirst, ts with
    | _, .bracketClose :: ts => some (.sequence done.reverse, ts)
    | false, .comma :: ts => parseBracketItem fuel done ts
    | false, _ => none
    | true, ts => parseBracketItem fuel done ts

/-- Reads one item between brackets, and the items after it. -/
def parseBracketItem : Nat → List Tree → List Token → Option (Tree × List Token)
  | 0, _, _ => none
  | fuel + 1, done, ts =>
    match ts with
    | .key :: ts => do
      let (k, ts) ← if isAbsentInFlow ts then some (empty, ts) else parse fuel false false ts
      let (v, ts) ← valueWith isAbsentInFlow (parse fuel false false) ts
      parseBrackets fuel false (.mapping [(k, v)] :: done) ts
    | .bracketClose :: ts => some (.sequence done.reverse, ts)
    | ts => do
      let (item, ts) ← parse fuel false false ts
      parseBrackets fuel false (item :: done) ts

end

/-- Every token takes at most three steps to read. -/
def fuelFor (ts : List Token) : Nat := 3 * ts.length + 3

/-- Reads a tree in the middle of tokens, and gives those after it. -/
def ofTokens (ts : List Token) : Option (Tree × List Token) := parse (fuelFor ts) true false ts

end Tree

end PrefixCalc.Yaml
