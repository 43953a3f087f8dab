/-
  How much of the work on a document is done for its aliases.  What an alias names is worked through
  again at every alias, so that a short text can stand for a huge document; where this is excessive
  the document is refused.

  Every node that is decoded counts, an alias and the node that it names each for itself, and all that
  is reached through an alias is aliased.  The more nodes there are, the smaller the part of them that
  may be aliased.

  What is counted are the nodes that are decoded for settings, in their order: a mapping's own keys
  and values; then, if it takes over others, its keys once more; then what it takes over.  A value
  is passed over where its key is nothing or the name of its key is taken.
-/
import PrefixCalc.Yaml.Merge

namespace PrefixCalc.Yaml

/-- How many nodes have been decoded. -/
structure Decoded where
  nodes : Nat := 0
  /-- How many of them were reached through an alias. -/
  aliased : Nat := 0

namespace Decoded

/-- The part of `n` nodes that may be aliased: nearly all of them at first, a tenth of very many, and
    steadily less in between. -/
def allowedRatio (n : Nat) : Float :=
  if n ≤ 400000 then 0.99
  else if 4000000 ≤ n then 0.1
  else 0.99 - 0.89 * (Float.ofNat (n - 400000) / 3600000)

/-- Too large a part of the nodes is aliased.  Few nodes are never too many. -/
def isExcessive (d : Decoded) : Bool :=
  if d.aliased ≤ 100 ∨ d.nodes ≤ 1000 then false
  else allowedRatio d.nodes < Float.ofNat d.aliased / Float.ofNat d.nodes

end Decoded

/-- Decoding, which ends where it becomes excessive. -/
abbrev Decoding := StateT Decoded Option

/-- The names that are taken while a mapping is being taken over; `none` where it stands for itself. -/
abbrev Taken := Option (List String)

/-- A value under this name is passed over. -/
def Taken.has (taken : Taken) (name : String) : Bool := taken.any (·.contains name)

/-- With one more name, if names are taken at all. -/
def Taken.add (taken : Taken) (name : String) : Taken := taken.map (name :: ·)

namespace Node

/-- Counts one node. -/
def visit (isAliased : Bool) : Decoding Unit := fun d =>
  let d := { nodes := d.nodes + 1, aliased := if isAliased then d.aliased + 1 else d.aliased }
  if d.isExcessive then none else some ((), d)

mutual

/-- Decodes a node that is reached through an alias or not.  Sequences are values of merge keys only,
    so that one that stands elsewhere is refused in any case. -/
def decode (isAliased : Bool) : Node → Decoding Unit
  | .alias _ target => do
    visit isAliased
    decode true target
  | .mapping entries => do
    visit isAliased
    let _ ← decodeOwn isAliased none entries
    if entries.any (·.1.isMergeKey) then
      decodeKeys isAliased entries
      let _ ← decodeMerged isAliased (some (entries.filterMap (·.1.takenName?))) entries
  | .scalar _ _ | .sequence _ | .innerAlias _ => visit isAliased

/-- Decodes the entries under a mapping's own keys, and gives the names that are taken then. -/
def decodeOwn (isAliased : Bool) (taken : Taken) : List (Node × Node) → Decoding Taken
  | [] => return taken
  | (k, v) :: rest => do
    if k.isMergeKey then decodeOwn isAliased taken rest
    else
      decode isAliased k
      match k.text? with
      | some (some name) =>
        if taken.has name then decodeOwn isAliased taken rest
        else
          decode isAliased v
          decodeOwn isAliased (taken.add name) rest
      | _ => decodeOwn isAliased taken rest

/-- Decodes the keys of entries. -/
def decodeKeys (isAliased : Bool) : List (Node × Node) → Decoding Unit
  | [] => return
  | (k, _) :: rest => do
    decode isAliased k
    decodeKeys isAliased rest

/-- Decodes what the value of a merge key names, and gives the names that are taken then.  What cannot
    be taken over is refused in any case. -/
def decodeFrom (isAliased : Bool) (taken : Taken) : Node → Decoding Taken
  | .mapping entries => do
    visit isAliased
    decodeMerged isAliased (← decodeOwn isAliased taken entries) entries
  | .alias _ (.mapping entries) => do
    visit isAliased
    visit true
    decodeMerged true (← decodeOwn true taken entries) entries
  | .sequence items => decodeEach isAliased taken items
  | _ => return taken

/-- Decodes what each of a list of nodes names. -/
def decodeEach (isAliased : Bool) (taken : Taken) : List Node → Decoding Taken
  | [] => return taken
  | n :: rest => do decodeEach isAliased (← decodeFrom isAliased taken n) rest

/-- Decodes what the merge key among these entries names. -/
def decodeMerged (isAliased : Bool) (taken : Taken) : List (Node × Node) → Decoding Taken
  | [] => return taken
  | (k, v) :: rest =>
    if k.isMergeKey then decodeFrom isAliased taken v else decodeMerged isAliased taken rest

end

/-- The aliases make too much of the document.  The document counts as a node of its own. -/
def isExcessive (document : Node) : Bool :=
  let decoding : Decoding Unit := do
    visit false
    decode false document
  (decoding.run {}).isNone

end Node

end PrefixCalc.Yaml
