/-
  The entries of a mapping by name.  Besides the entries under its own keys a mapping may take over
  those of others: the value of the merge key is a mapping, an alias of one, or a sequence of these.

  An entry is taken over only if its name is not taken: the mapping's own keys come before all others,
  a mapping's keys before those that it takes over in turn, and an earlier mapping of a sequence before
  a later one.  Only keys that are texts take their names; a number or a truth value as a key does not
  keep an entry of the same spelling out.
-/
import PrefixCalc.Yaml.Node

namespace PrefixCalc.Yaml

namespace Node

/-- A node, or what it is an alias of. -/
def content : Node → Node
  | .alias _ target => target.content
  | n => n

/-- What a scalar means. -/
def value? (n : Node) : Option Value :=
  match n.content with
  | .scalar _ value => value
  | _ => none

/-- Nothing. -/
def isNull (n : Node) : Bool := n.value? matches some .null

/-- The text of a scalar: what it means if that is a text, and else as it is written.  `none` is an
    error, `some none` is nothing. -/
def text? (n : Node) : Option (Option String) :=
  match n.content with
  | .scalar _ (some .null) => some none
  | .scalar _ (some (.text s)) => some (some s)
  | .scalar text (some _) => some (some text)
  | _ => none

/-- The name that a key takes, if it is a text. -/
def takenName? (n : Node) : Option String :=
  match n.value? with
  | some (.text s) => some s
  | some .merge => some Value.mergeKey
  | _ => none

/-- The key under which a mapping names the ones it takes over. -/
def isMergeKey : Node → Bool
  | .scalar _ (some .merge) => true
  | _ => false

/-- What two keys of a mapping must not have in common. -/
inductive Spelling
  | scalar (text : String)
  | alias (name : String)
  | sequence
  | mapping
deriving DecidableEq

/-- How a key is spelled.  Two keys that are collections count as spelled alike. -/
def spelling : Node → Spelling
  | .scalar text _ => .scalar text
  | .alias name _ | .innerAlias name => .alias name
  | .sequence _ => .sequence
  | .mapping _ => .mapping

/-- No two keys are spelled alike. -/
def keysDiffer (entries : List (Node × Node)) : Bool := (entries.map (·.1.spelling)).Nodup

/-- The entries under a mapping's own keys, in their order.  An entry whose key is nothing is left
    out. -/
def ownEntries? (entries : List (Node × Node)) : Option (List (String × Node)) := do
  if !keysDiffer entries then none
  let named ← (entries.filter (!·.1.isMergeKey)).mapM fun (k, v) => do
    return (← text? k).map fun name => (name, v)
  return named.filterMap id

/-- Entries that have been taken over. -/
structure Merged where
  /-- Names that are taken. -/
  taken : List String
  entries : List (String × Node) := []

namespace Merged

/-- Takes over an entry, unless its name is taken. -/
def add (m : Merged) (entry : String × Node) : Merged :=
  if m.taken.contains entry.1 then m
  else { taken := entry.1 :: m.taken, entries := m.entries ++ [entry] }

/-- Takes over the entries under a mapping's own keys. -/
def addOwn? (m : Merged) (entries : List (Node × Node)) : Option Merged := do
  return (← ownEntries? entries).foldl add m

mutual

/-- Takes over what the value of a merge key names.  A sequence is allowed if `maybeSequence`. -/
def addFrom? (maybeSequence : Bool) (m : Merged) : Node → Option Merged
  | .mapping entries => do addMerged? (← m.addOwn? entries) entries
  | .alias _ (.mapping entries) => do addMerged? (← m.addOwn? entries) entries
  | .sequence items => if maybeSequence then addEach? m items else none
  | _ => none

/-- Takes over what each of a list of nodes names. -/
def addEach? (m : Merged) : List Node → Option Merged
  | [] => some m
  | n :: rest => do addEach? (← addFrom? false m n) rest

/-- Takes over what the merge key among these entries names. -/
def addMerged? (m : Merged) : List (Node × Node) → Option Merged
  | [] => some m
  | (k, v) :: rest => if k.isMergeKey then addFrom? true m v else addMerged? m rest

end

end Merged

/-- The entries of a mapping: those under its own keys, and those it takes over. -/
def entries? (entries : List (Node × Node)) :
    Option (List (String × Node) × List (String × Node)) := do
  let own ← ownEntries? entries
  let merged ← Merged.addMerged? { taken := entries.filterMap (·.1.takenName?) } entries
  return (own, merged.entries)

end Node

end PrefixCalc.Yaml
