/-
  What stands in front of a node or a document.  An anchor gives a node a name, which an alias calls
  later; a tag says what kind of node it is.  A tag is written in full between angle brackets, or in
  short with a handle that a directive in front of the document explains.
-/
import PrefixCalc.Yaml.Scalar

namespace PrefixCalc.Yaml

/-- A tag as it is written.  Without a handle, the suffix is the whole tag. -/
structure Tag where
  handle : String
  suffix : String
deriving Repr, DecidableEq

/-- What is said in front of a document. -/
inductive Directive
  /-- The version of the language that the text is written in. -/
  | version (major minor : Nat)
  /-- What a handle stands for. -/
  | handle (name expansion : String)
deriving Repr, DecidableEq

/-- Reads the characters of a kind. -/
def Reader.takeWhile (p : Char → Bool) (r : Reader) : String × Reader :=
  (String.ofList (r.rest.takeWhile p), r.skipWhile p)

/-- The characters of names: ASCII letters and digits, hyphen and underscore. -/
def isNameChar (c : Char) : Bool := c.isAlphanum || c == '-' || c == '_'

/-! ## Anchors and aliases -/

/-- The name of an anchor may end here. -/
def endsAnchor : List Char → Bool
  | [] => true
  | c :: _ => isGap c || isBreak c || ['?', ':', ',', ']', '\x7d', '%', '@', '\x60'].contains c

/-- Reads the name of an anchor or alias whose indicator has been read. -/
def readAnchor (r : Reader) : Option (String × Reader) :=
  let (name, r) := r.takeWhile isNameChar
  if name.isEmpty || !endsAnchor r.rest then none else some (name, r)

/-! ## Tags -/

/-- The characters of tags besides the percent sign, which begins an octet in hexadecimal. -/
def isTagChar (c : Char) : Bool :=
  isNameChar c || [';', '/', '?', ':', '@', '&', '=', '+', '$', ',', '.', '!', '~', '*', '\'', '(', ')',
    '[', ']'].contains c

/-- How many octets follow a first one in UTF-8. -/
def octetsAfter? (octet : Nat) : Option Nat :=
  if octet < 0x80 then some 0
  else if 0xC0 ≤ octet ∧ octet < 0xE0 then some 1
  else if 0xE0 ≤ octet ∧ octet < 0xF0 then some 2
  else if 0xF0 ≤ octet ∧ octet < 0xF8 then some 3
  else none

/-- Reads the text of a tag, octet by octet; `left` octets are missing to a whole character. -/
def readTagText (text : List Char) (left : Nat) (place : Place) :
    List Char → Option (String × Reader)
  | '%' :: a :: b :: rest => do
    let octet := 16 * (← hexValue? a) + (← hexValue? b)
    let left ← if left == 0 then octetsAfter? octet
      else if octet / 64 == 2 then some (left - 1)
      else none
    readTagText (Char.ofNat octet :: text) left (((place.after '%').after a).after b) rest
  | c :: rest =>
    if left != 0 || c == '%' then none
    else if isTagChar c then readTagText (c :: text) 0 (place.after c) rest
    else some (String.ofList text.reverse, ⟨c :: rest, place⟩)
  | [] => if left != 0 then none else some (String.ofList text.reverse, ⟨[], place⟩)

/-- Reads a text of a tag that is not empty. -/
def readSuffix (r : Reader) : Option (String × Reader) := do
  let (text, r) ← readTagText [] 0 r.place r.rest
  if text.isEmpty then none else some (text, r)

/-- Reads a tag whose exclamation mark has been read.  The mark alone is a tag too. -/
def readTagEnd (r : Reader) : Option (Tag × Reader) :=
  if r.rest.head? == some '<' then do
    let (text, r) ← readSuffix r.next
    if r.rest.head? == some '>' then some (⟨"", text⟩, r.next) else none
  else
    let (name, r) := r.takeWhile isNameChar
    if r.rest.head? == some '!' then do
      let (text, r) ← readSuffix r.next
      return (⟨"!" ++ name ++ "!", text⟩, r)
    else do
      let (text, r) ← readTagText [] 0 r.place r.rest
      let suffix := name ++ text
      return (if suffix.isEmpty then ⟨"", "!"⟩ else ⟨"!", suffix⟩, r)

/-- Reads a tag whose exclamation mark has been read, and which white space has to follow. -/
def readTag (r : Reader) : Option (Tag × Reader) := do
  let (tag, r) ← readTagEnd r
  if atSpace r.rest then some (tag, r) else none

/-! ## Directives -/

/-- Reads a number of one or two digits. -/
def readShortNumber (r : Reader) : Option (Nat × Reader) :=
  let (digits, r) := r.takeWhile Char.isDigit
  let n := digits.toList.foldl (fun n c => 10 * n + (c.toNat - '0'.toNat)) 0
  if digits.isEmpty || 2 < digits.length then none else some (n, r)

/-- Reads the number of a version. -/
def readVersion (r : Reader) : Option (Directive × Reader) := do
  let (major, r) ← readShortNumber r
  if r.rest.head? != some '.' then none
  let (minor, r) ← readShortNumber r.next
  return (.version major minor, r)

/-- Reads a handle.  It ends with an exclamation mark, which may be the one it begins with. -/
def readHandle (r : Reader) : Option (String × Reader) :=
  if r.rest.head? != some '!' then none
  else
    let (name, r) := r.next.takeWhile isNameChar
    if r.rest.head? == some '!' then some ("!" ++ name ++ "!", r.next)
    else if name.isEmpty then some ("!", r)
    else none

/-- Reads a handle and what it stands for. -/
def readExpansion (r : Reader) : Option (Directive × Reader) := do
  let (name, r) ← readHandle r
  if !r.rest.head?.any isGap then none
  let (text, r) ← readSuffix (r.skipWhile isGap)
  if atSpace r.rest then some (.handle name text, r) else none

/-- Reads a directive whose percent sign has been read, to the end of its line. -/
def readDirective (r : Reader) : Option (Directive × Reader) := do
  let (name, r) := r.takeWhile isNameChar
  if !atSpace r.rest then none
  let r := r.skipWhile isGap
  let (directive, r) ← match name with
    | "YAML" => readVersion r
    | "TAG" => readExpansion r
    | _ => none
  let r := r.skipWhile isGap
  let r := if r.rest.head? == some '#' then r.skipWhile fun c => !isBreak c else r
  if atLineEnd r.rest then some (directive, r.next) else none

end PrefixCalc.Yaml
