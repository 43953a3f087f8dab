/-
  The command line of the calculator.  Options come first, with one dash or two, their values after an
  equals sign or as the next argument; the first argument that is no option ends them.
-/
import PrefixCalc.Console.Interactive
import PrefixCalc.Number.Integer

namespace PrefixCalc

/-- What is asked for on the command line. -/
structure Options where
  config : String := ""
  /-- Lines to run instead of the input, if any are given. -/
  lines : List String := []
  showTrees : Bool := false
  noColor : Bool := false
  /-- How many lines to remember; negative if the settings decide. -/
  cacheSize : Int := -1
  verbosity : Int := 0
  help : Bool := false
deriving Repr, DecidableEq

/-- The options. -/
inductive Flag
  | config
  | expr
  | ast
  | noColor
  | cacheSize
  | verbose
  | help
deriving Repr, DecidableEq

namespace Flag

/-- All options. -/
def all : List Flag := [config, expr, ast, noColor, cacheSize, verbose, help]

/-- The names of an option, the long one first. -/
def names : Flag → List String
  | config => ["config"]
  | expr => ["expr", "e"]
  | ast => ["ast"]
  | noColor => ["no-color"]
  | cacheSize => ["cache-size"]
  | verbose => ["verbose", "v"]
  | help => ["help", "h"]

/-- The option of this name. -/
def ofName? (name : String) : Option Flag := all.find? fun f => f.names.contains name

/-- The option is a switch and needs no value. -/
def isSwitch : Flag → Bool
  | ast | noColor | help => true
  | _ => false

end Flag

/-- What can be wrong with a command line. -/
inductive UsageError
  | badFlag (argument : String)
  | unknownFlag (name : String)
  | missingValue (name : String)
  | badSwitch (value name : String)
  | badNumber (value name : String)
  | numberTooLarge (value name : String)
  /-- Both names of one option were used. -/
  | bothNames (short long : String)
deriving Repr, DecidableEq

namespace UsageError

/-- An error as it is told to the user. -/
def message : UsageError → String
  | badFlag argument => "bad flag syntax: " ++ argument
  | unknownFlag name => "flag provided but not defined: -" ++ name
  | missingValue name => "flag needs an argument: -" ++ name
  | badSwitch value name =>
    "invalid boolean value " ++ Quoted.string value ++ " for -" ++ name ++ ": parse error"
  | badNumber value name =>
    "invalid value " ++ Quoted.string value ++ " for flag -" ++ name ++ ": parse error"
  | numberTooLarge value name =>
    "invalid value " ++ Quoted.string value ++ " for flag -" ++ name ++ ": value out of range"
  | bothNames short long => "Cannot use two forms of the same flag: " ++ short ++ " " ++ long

end UsageError

/-- A command line in the middle of being read. -/
structure ReadArgs where
  options : Options := {}
  /-- The names of the options used so far. -/
  used : List String := []
  /-- The option before, if its value is still to come. -/
  pending : Option (Flag × String) := none
  /-- The arguments after the options. -/
  others : List String := []
  error : Option UsageError := none

namespace ReadArgs

/-- The spellings of a switch's value. -/
def switch? (s : String) : Option Bool :=
  if ["1", "t", "T", "TRUE", "true", "True"].contains s then some true
  else if ["0", "f", "F", "FALSE", "false", "False"].contains s then some false
  else none

/-- A whole number of 64 bits. -/
def number (value name : String) : Except UsageError Int :=
  match Integer.read value.toList with
  | .ok n => .ok n
  | .error .malformed => .error (.badNumber value name)
  | .error .tooLarge => .error (.numberTooLarge value name)

/-- A text without white space around it. -/
def trimmed (s : String) : String := Utf8.toString (Utf8.trim (Utf8.ofString s))

/-- Options with one value more. -/
def set (o : Options) (flag : Flag) (name value : String) : Except UsageError Options := do
  match flag with
  | .config => return { o with config := value }
  | .expr =>
    let lines := (Table.splitAt ',' [] value.toList).map fun l => trimmed (String.ofList l)
    return { o with lines := o.lines ++ lines }
  | .cacheSize => return { o with cacheSize := ← number value name }
  | .verbose => return { o with verbosity := ← number value name }
  | .ast | .noColor | .help =>
    match switch? value with
    | none => .error (.badSwitch value name)
    | some b =>
      return match flag with
        | .ast => { o with showTrees := b }
        | .noColor => { o with noColor := b }
        | _ => { o with help := b }

/-- Gives an option its value. -/
def give (r : ReadArgs) (flag : Flag) (name value : String) : ReadArgs :=
  match set r.options flag name value with
  | .ok o => { r with options := o, used := name :: r.used, pending := none }
  | .error e => { r with error := some e, pending := none }

/-- Deals with an option, given without its dashes. -/
def option (r : ReadArgs) (argument : String) (body : List Char) : ReadArgs :=
  match body with
  | [] | '-' :: _ | '=' :: _ => { r with error := some (.badFlag argument) }
  | _ =>
    let name := String.ofList (body.takeWhile (· != '='))
    let value := (body.dropWhile (· != '=')).tail
    let hasValue := body.contains '='
    match Flag.ofName? name with
    | none => { r with error := some (.unknownFlag name) }
    | some flag =>
      if hasValue then r.give flag name (String.ofList value)
      else if flag.isSwitch then r.give flag name "true"
      else { r with pending := some (flag, name) }

/-- Reads arguments. -/
def readFrom (r : ReadArgs) : List String → ReadArgs
  | [] =>
    match r.pending with
    | some (_, name) => { r with error := some (.missingValue name) }
    | none => r
  | argument :: rest =>
    match r.error, r.pending with
    | some _, _ => r
    | none, some (flag, name) => (r.give flag name argument).readFrom rest
    | none, none =>
      match argument.toList with
      | ['-', '-'] => { r with others := rest }
      | '-' :: '-' :: body => (r.option argument body).readFrom rest
      | '-' :: c :: body => (r.option argument (c :: body)).readFrom rest
      | _ => { r with others := argument :: rest }

end ReadArgs

namespace Options

/-- The first option of which both names were used. -/
def bothNames? (used : List String) : Option UsageError :=
  Flag.all.findSome? fun flag =>
    match flag.names with
    | [long, short] =>
      if used.contains long && used.contains short then some (.bothNames short long) else none
    | _ => none

/-- Reads a command line.  Using both names of an option weighs more than any other error. -/
def read (args : List String) : Except UsageError Options :=
  let r := ({} : ReadArgs).readFrom args
  match bothNames? r.used, r.error with
  | some e, _ => .error e
  | none, some e => .error e
  | none, none =>
    .ok { r.options with
      help := r.options.help || r.others.head? == some "help" || r.others.head? == some "h" }

end Options

/-- What the calculator says about itself. -/
def helpText : String :=
  "NAME:\n" ++
  "   polish - A prefix notation calculator. Reads one expression per line from stdin.\n" ++
  "\n" ++
  "USAGE:\n" ++
  "   polish [global options] command [command options] [arguments...]\n" ++
  "\n" ++
  "COMMANDS:\n" ++
  "   help, h  Shows a list of commands or help for one command\n" ++
  "\n" ++
  "GLOBAL OPTIONS:\n" ++
  "   --ast                                              Dump the parsed tree of every line. (default: false)\n" ++
  "   --cache-size value                                 Number of parsed lines to cache, 0 disables the cache. Overrides the config. (default: -1)\n" ++
  "   --config value                                     YAML file with prompt, history, variables and aliases.\n" ++
  "   --expr value, -e value [ --expr value, -e value ]  Evaluate the given lines in order and exit.\n" ++
  "   --help, -h                                         show help (default: false)\n" ++
  "   --no-color                                         Do not color the output. (default: false)\n" ++
  "   --verbose value, -v value                          Log verbosity, 1 logs every line, 2 also logs tokens. (default: 0)\n" ++
  "   \n"

/-- A complaint as it is written to the error output. -/
def complaint (message : String) : String := "polish: " ++ message ++ "\n"

/-- What a run of the calculator leaves. -/
structure RunResult where
  exitCode : UInt32 := 0
  out : String := ""
  errors : String := ""
  notes : List Note := []
  verbosity : Int := 0
  /-- A line did something that has no meaning. -/
  crashed : Bool := false
deriving Repr

/-- What a misused command line leaves: the complaint and the help text. -/
def RunResult.misused (e : UsageError) : RunResult :=
  { exitCode := 1
    out := (match e with
      | .bothNames _ _ => e.message ++ "\n"
      | _ => "Incorrect Usage. " ++ e.message ++ "\n\n") ++ helpText
    errors := complaint e.message }

namespace Options

/-- The verbosity of the log, which is kept in 32 bits. -/
def logLevel (o : Options) : Int := Int.bmod o.verbosity (Nat.pow 2 32)

/-- The note that a session is ready. -/
def readyNote (s : Settings) (cacheSize : Int) : Note :=
  .line ("session ready: " ++ s.vars.size.repr ++ " variables, " ++ s.aliases.size.repr ++
    " aliases, cache size " ++ cacheSize.repr)

/-- The output is colored: neither the settings nor the command line forbid it, and it goes to a
    terminal. -/
def isColored (o : Options) (s : Settings) (toTerminal : Bool) : Bool :=
  s.color.getD true && !o.noColor && toTerminal

/-- The settings that are asked for, given what is stored under a path. -/
def settings (o : Options) (look : String → Stored) : Except Settings.LoadError Settings :=
  Settings.load o.config (look o.config)

/-- A console with these settings. -/
def console (o : Options) (s : Settings) : Console :=
  .start s (s.cacheSizeFor o.cacheSize) o.showTrees

/-- A run that does not prompt. -/
def run (o : Options) (look : String → Stored) (input : Source UInt8) (reason : String)
    (toTerminal : Bool) : RunResult :=
  match o.settings look with
  | .error e => { exitCode := 1, errors := complaint e.message, verbosity := o.logLevel }
  | .ok s =>
    let (t, error) :=
      if o.lines.isEmpty then (o.console s).runLines input reason
      else ((o.console s).handleAll (o.lines.map Utf8.ofString), none)
    { exitCode := if error.isSome then 1 else 0
      out := Output.joined (o.isColored s toTerminal) t.output
      errors := match error with
        | some e => complaint e.message
        | none => ""
      notes := readyNote s (s.cacheSizeFor o.cacheSize) :: t.notes
      verbosity := o.logLevel
      crashed := t.status == .crashed }

end Options

/-- The calculator: arguments, files and input in, what it leaves out. -/
def runCommand (args : List String) (look : String → Stored) (input : Source UInt8)
    (reason : String) (toTerminal : Bool) : RunResult :=
  match Options.read args with
  | .error e => .misused e
  | .ok o =>
    if o.help then { out := helpText }
    else o.run look input reason toTerminal

end PrefixCalc
