/-
  The settings of the calculator: how it looks, how many lines it remembers, and which variables and
  aliases are there from the start.

  Settings are valid when the names are names of the language, the aliases mean built-in functions
  and the number of lines is not negative.  Which fault is reported when there are several depends on
  the order in which the tables are gone through; whether there is one does not.

  Names, and the names of the functions that aliases mean, are texts of characters; bytes that are not
  UTF-8 cannot be configured.
-/
import PrefixCalc.Session.Basic

namespace PrefixCalc

/-- Settings, with their values when nothing is said. -/
structure Settings where
  prompt : String := "polish=> "
  /-- The file that keeps the lines entered at the prompt; no file if empty. -/
  historyFile : String := ""
  color : Option Bool := some true
  cacheSize : Option Int := some Session.defaultCacheSize
  vars : NameTable Float := .empty
  /-- Names for built-in functions, each with the name of its function. -/
  aliases : NameTable String := .empty

/-- What can be wrong with settings. -/
inductive SettingsError
  /-- The text is not YAML, or does not describe settings. -/
  | malformed
  | invalidVariable (name : String)
  | invalidAlias (name : String)
  | unknownTarget (name target : String)
  | negativeCacheSize (n : Int)
  /-- The text could not be read to its end. -/
  | unreadable (reason : String)
deriving Repr, DecidableEq

namespace SettingsError

/-- An error as it is told to the user. -/
def message : SettingsError → String
  | malformed => "decoding yaml"
  | invalidVariable name => "variable " ++ Quoted.string name ++ " is not a valid name"
  | invalidAlias name => "alias " ++ Quoted.string name ++ " is not a valid name"
  | unknownTarget name target =>
    "alias " ++ Quoted.string name ++ " refers to unknown function " ++ Quoted.string target
  | negativeCacheSize n => "cache_size must not be negative, got " ++ n.repr
  | unreadable reason => reason

end SettingsError

namespace Settings

/-- The fault of a configured variable. -/
def variableFault? (entry : String × Float) : Option SettingsError :=
  if isName entry.1 then none else some (.invalidVariable entry.1)

/-- The fault of a configured alias. -/
def aliasFault? (entry : String × String) : Option SettingsError :=
  if !isName entry.1 then some (.invalidAlias entry.1)
  else if (Builtin.ofName? entry.2).isNone then some (.unknownTarget entry.1 entry.2)
  else none

/-- The fault of a configured number of lines. -/
def cacheSizeFault? (n : Option Int) : Option SettingsError :=
  match n with
  | some n => if n < 0 then some (.negativeCacheSize n) else none
  | none => none

/-- The first fault, when variables and aliases are gone through in the order of these lists. -/
def firstFault? (vars : List (String × Float)) (aliases : List (String × String))
    (cacheSize : Option Int) : Option SettingsError :=
  match vars.findSome? variableFault?, aliases.findSome? aliasFault? with
  | some e, _ => some e
  | none, some e => some e
  | none, none => cacheSizeFault? cacheSize

/-- The first fault of settings, names taken in their order. -/
def fault? (s : Settings) : Option SettingsError :=
  firstFault? s.vars.entries s.aliases.entries s.cacheSize

/-- Settings without a fault. -/
def isValid (s : Settings) : Bool := s.fault?.isNone

/-- Gives variables their values, in the order of a list. -/
def installVariables (env : Environment) (vars : List (String × Float)) : Environment :=
  vars.foldl (fun env entry => env.setVariable entry.1 entry.2) env

/-- Makes aliases call their functions, in the order of a list; an alias for no function is left
    out. -/
def installAliases (env : Environment) (aliases : List (String × String)) : Environment :=
  aliases.foldl (fun env entry =>
    match Builtin.ofName? entry.2 with
    | some f => env.setAlias entry.1 f
    | none => env) env

/-- Puts the configured variables and aliases into an environment. -/
def apply (s : Settings) (env : Environment) : Environment :=
  installAliases (installVariables env s.vars.entries) s.aliases.entries

/-- How many lines to remember: what the command line says unless negative, else what the settings
    say, else the default. -/
def cacheSizeFor (s : Settings) (onCommandLine : Int) : Int :=
  if 0 ≤ onCommandLine then onCommandLine
  else s.cacheSize.getD Session.defaultCacheSize

/-- A session with the configured variables and aliases. -/
def newSession (s : Settings) (cacheSize : Int) : Session :=
  (Session.new cacheSize).withEnv s.apply

end Settings

end PrefixCalc
