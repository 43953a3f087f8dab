/-
  Settings from a YAML text.  Fields that are not given keep their defaults; a field that is given
  twice, a field that does not exist and a value of the wrong kind are refused.  A blank text gives
  the defaults.

  A text field takes every scalar as it is written.  Nothing (`~`, `null` or no value) leaves a text
  as it was, empties a table or an optional field, and is zero or the empty text as a value in a
  table.

  Settings and tables may take over entries from other mappings.  Where such an entry meets one of the
  table's own under the same name it replaces it, unless its value is nothing.

  A text that consists of aliases for the most part, so that it stands for a much longer one, is
  refused (`Yaml.Node.isExcessive`).
-/
import PrefixCalc.Settings.Basic
import PrefixCalc.Yaml.Expansion

namespace PrefixCalc

/-- The sources that settings and history come from, as they were found. -/
inductive Stored
  | file (contents : Bytes)
  | directory
  /-- It could not be opened, for this reason. -/
  | unopened (reason : String)
deriving Repr

namespace Settings

open Yaml

/-- The words that stand for truth values besides the usual ones. -/
def looseBool? (s : String) : Option Bool :=
  if ["y", "Y", "yes", "Yes", "YES", "on", "On", "ON"].contains s then some true
  else if ["n", "N", "no", "No", "NO", "off", "Off", "OFF"].contains s then some false
  else none

/-- The whole number at or next to a number on the side of zero, in 64 bits.  What does not fit is the
    least such number. -/
def truncate (x : Float) : Int :=
  let bound : Nat := Nat.pow 2 63
  let n := match Binary64.magnitude? x with
    | some m => Power.wholePart m
    | none => bound
  if n < bound then (if Binary64.isNegative x then -(n : Int) else n) else -(bound : Int)

/-- An optional truth value. -/
def bool? (n : Node) : Option (Option Bool) :=
  match n.value? with
  | some .null => some none
  | some (.bool b) => some (some b)
  | some (.text s) => (looseBool? s).map some
  | _ => none

/-- An optional whole number in 64 bits.  A number with a fraction loses it. -/
def int? (n : Node) : Option (Option Int) :=
  match n.value? with
  | some .null => some none
  | some (.int n) => if n < 9223372036854775808 then some (some n) else none
  | some (.float x) => if x ≤ 9223372036854775808 then some (some (truncate x)) else none
  | _ => none

/-- A number in a table. -/
def number? (n : Node) : Option Float :=
  match n.value? with
  | some .null => some 0
  | some (.int n) => some (Binary64.nearest (n < 0) n.natAbs 1)
  | some (.float x) => some x
  | _ => none

/-- A text in a table. -/
def tableText? (n : Node) : Option String := n.text?.map (·.getD "")

/-- Entries with their values read by `value?`. -/
def valuesOf? {α : Type} (value? : Node → Option α) (entries : List (String × Node)) :
    Option (List (String × α)) :=
  entries.mapM fun (name, v) => do return (name, ← value? v)

/-- The entries of a table, with values read by `value?`, in an order in which later ones replace
    earlier ones. -/
def table? {α : Type} (value? : Node → Option α) (n : Node) : Option (List (String × α)) :=
  match n.content with
  | .scalar _ (some .null) => some []
  | .mapping entries => do
    let (own, merged) ← Node.entries? entries
    let isKept := fun (entry : String × Node) =>
      !(entry.2.isNull && own.any fun other => other.1 == entry.1)
    return (← valuesOf? value? own) ++ (← valuesOf? value? (merged.filter isKept))
  | _ => none

/-- Settings with one field changed. -/
def setField (s : Settings) (field : String) (v : Node) : Option Settings :=
  match field with
  | "prompt" => do return { s with prompt := (← v.text?).getD s.prompt }
  | "history_file" => do return { s with historyFile := (← v.text?).getD s.historyFile }
  | "color" => do return { s with color := ← bool? v }
  | "cache_size" => do return { s with cacheSize := ← int? v }
  | "variables" => do return { s with vars := .ofList (← table? number? v) }
  | "aliases" => do return { s with aliases := .ofList (← table? tableText? v) }
  | _ => none

/-- The settings that a document describes.  No field stands twice under the keys of its own. -/
def ofNode (n : Node) : Option Settings :=
  match n.content with
  | .scalar _ (some .null) => some {}
  | .mapping entries => do
    let (own, merged) ← Node.entries? entries
    if !(own.map (·.1)).Nodup then none
    (own ++ merged).foldlM (fun s (field, v) => s.setField field v) {}
  | _ => none

/-- The settings that a text describes. -/
def ofText (text : Bytes) : Except SettingsError Settings :=
  if Utf8.isAllBlank text then .ok {}
  else
    match ((Node.ofBytes text).filter fun n => !n.isExcessive).bind ofNode with
    | none => .error .malformed
    | some s =>
      match s.fault? with
      | some e => .error e
      | none => .ok s

/-- The settings that a source describes; a source that breaks off describes none. -/
def ofSource (s : Source UInt8) (reason : String) : Except SettingsError Settings :=
  match s.ending with
  | .finished => ofText s.remaining
  | .broken => .error (.unreadable reason)

/-- What can go wrong with a settings file. -/
inductive LoadError
  | opening (path reason : String)
  | reading (path : String) (e : SettingsError)
deriving Repr

/-- An error as it is told to the user. -/
def LoadError.message : LoadError → String
  | .opening path reason => "opening config " ++ path ++ ": open " ++ path ++ ": " ++ reason
  | .reading path e => "reading config " ++ path ++ ": " ++ e.message

/-- The settings in a file, given what is stored under its path.  An empty path gives the defaults. -/
def load (path : String) (stored : Stored) : Except LoadError Settings :=
  if path.isEmpty then .ok {}
  else
    match stored with
    | .unopened reason => .error (.opening path reason)
    | .directory => .error (.reading path (.unreadable ("read " ++ path ++ ": is a directory")))
    | .file contents => (ofText contents).mapError (.reading path)

end Settings

end PrefixCalc
