/-
  The nodes of a YAML document: its tree with every scalar read for what it means and every alias
  led to the node it names.

  A name means the last node before the alias that was given it.  A collection has its name from its
  beginning on, so an alias may stand inside of what it names; such an alias leads nowhere.

  Only the first document of a text is read.
-/
import PrefixCalc.Yaml.Tree
import PrefixCalc.Yaml.Value

namespace PrefixCalc.Yaml

/-- Nodes. -/
inductive Node
  /-- A scalar, and what it means unless its tag does not fit. -/
  | scalar (text : String) (value : Option Value)
  | sequence (items : List Node)
  | mapping (entries : List (Node × Node))
  | alias (name : String) (target : Node)
  /-- An alias inside of what it names. -/
  | innerAlias (name : String)
deriving Repr, Inhabited

/-! ## Tags -/

/-- What handles stand for. -/
abbrev Handles := List (String × String)

namespace Handles

/-- What the tags of the language begin with. -/
def language : String := "tag:yaml.org,2002:"

/-- The handles that need no explanation. -/
def default : Handles := [("!", "!"), ("!!", language)]

/-- The tag that is meant, with two exclamation marks for what the tags of the language begin with;
    none if the handle is not known. -/
def resolve? (handles : Handles) (tag : Tag) : Option String := do
  let full ← if tag.handle.isEmpty then some tag.suffix
    else (handles.lookup tag.handle).map (· ++ tag.suffix)
  let isOfLanguage := language.toList.isPrefixOf full.toList
  return if isOfLanguage then "!!" ++ String.ofList (full.toList.drop language.length) else full

/-- What the directives in front of a document say.  Only one version is read, and it is said at most
    once; no handle is explained twice. -/
def ofDirectives? (directives : List Directive) : Option Handles :=
  let versions := directives.filterMap fun
    | .version major minor => some (major, minor)
    | .handle _ _ => none
  let handles := directives.filterMap fun
    | .handle name expansion => some (name, expansion)
    | .version _ _ => none
  if (versions = [] ∨ versions = [(1, 1)]) ∧ (handles.map (·.1)).Nodup then some (handles ++ default)
  else none

end Handles

/-! ## Aliases -/

/-- The nodes that have names, the last one first.  A node that has not been read to its end is
    missing. -/
abbrev Anchors := List (String × Option Node)

namespace Anchors

/-- A node with a name begins. -/
def opened (anchors : Anchors) : Option String → Anchors
  | some name => (name, none) :: anchors
  | none => anchors

/-- The innermost node with a name that has not been read to its end is `node`. -/
def closedWith (node : Node) : Anchors → Anchors
  | [] => []
  | (name, none) :: rest => (name, some node) :: rest
  | entry :: rest => entry :: closedWith node rest

/-- A node ends that may have a name. -/
def closed (anchors : Anchors) (node : Node) : Option String → Anchors
  | some _ => anchors.closedWith node
  | none => anchors

end Anchors

namespace Tree

/-- What a scalar means, with or without a tag.  An exclamation mark alone says nothing. -/
def valueOf (tag : Option String) (text : String) (isPlain : Bool) : Option Value :=
  match tag with
  | none | some "!" => some (.ofUntagged text isPlain)
  | some tag => Value.ofTagged tag text

mutual

/-- The node that a tree with a tag describes, and the nodes that have names after it.  None if an
    alias or a handle is not known. -/
def link? (handles : Handles) (tag : Option String) (anchors : Anchors) :
    Tree → Option (Node × Anchors)
  | .scalar text isPlain => some (.scalar text (valueOf tag text isPlain), anchors)
  | .sequence items => do
    let (items, anchors) ← linkItems? handles anchors items
    return (.sequence items, anchors)
  | .mapping entries => do
    let (entries, anchors) ← linkEntries? handles anchors entries
    return (.mapping entries, anchors)
  | .alias name => do
    match ← anchors.lookup name with
    | some target => return (.alias name target, anchors)
    | none => return (.innerAlias name, anchors)
  | .marked marks tree => do
    let tag ← match marks.tag with
      | some tag => (handles.resolve? tag).map some
      | none => some none
    let (node, anchors) ← link? handles tag (anchors.opened marks.anchor) tree
    return (node, anchors.closed node marks.anchor)

/-- The items of a sequence. -/
def linkItems? (handles : Handles) (anchors : Anchors) : List Tree → Option (List Node × Anchors)
  | [] => some ([], anchors)
  | item :: rest => do
    let (item, anchors) ← link? handles none anchors item
    let (rest, anchors) ← linkItems? handles anchors rest
    return (item :: rest, anchors)

/-- The entries of a mapping. -/
def linkEntries? (handles : Handles) (anchors : Anchors) :
    List (Tree × Tree) → Option (List (Node × Node) × Anchors)
  | [] => some ([], anchors)
  | (key, value) :: rest => do
    let (key, anchors) ← link? handles none anchors key
    let (value, anchors) ← link? handles none anchors value
    let (rest, anchors) ← linkEntries? handles anchors rest
    return ((key, value) :: rest, anchors)

end

end Tree

/-! ## Documents -/

namespace Node

/-- The directives in front of a document. -/
def takeDirectives : List Token → List Directive × List Token
  | .directive d :: ts =>
    let (ds, ts) := takeDirectives ts
    (d :: ds, ts)
  | ts => ([], ts)

/-- What stands between the marks of a document that begins with one. -/
def markedTree (ts : List Token) : Option (Tree × List Token) :=
  match ts with
  | .documentStart :: _ | .documentEnd :: _ | .directive _ :: _ | .streamEnd :: _ =>
    some (.empty, ts)
  | _ => Tree.ofTokens ts

/-- The tree of the first document.  A document with directives begins with a mark. -/
def firstTree (directives : List Directive) (ts : List Token) : Option (Tree × List Token) :=
  match ts with
  | .documentStart :: ts => markedTree ts
  | .streamEnd :: _ => none
  | ts => if directives.isEmpty then Tree.ofTokens ts else none

/-- How many tokens have to be readable after a document. -/
def lookahead : Nat := 3

/-- The first document of a text; none if the text has no document or one that is malformed. -/
def ofTokens (ts : List Token) : Option Node := do
  let (directives, ts) := takeDirectives ts
  let handles ← Handles.ofDirectives? directives
  let (tree, rest) ← firstTree directives ts
  let (node, _) ← tree.link? handles none []
  if (rest.take lookahead).contains .invalid then none else some node

/-- The first document of a raw text. -/
def ofBytes (bs : Bytes) : Option Node := do
  ofTokens (tokens (← characters? bs))

end Node

end PrefixCalc.Yaml
