/-
  The console: lines come in, each is a command or a line of the language, and what comes out is a
  list of entries.  An entry becomes text only at the very end, so that colors change the text of an
  entry and nothing else.
-/
import PrefixCalc.Console.Table
import PrefixCalc.Settings.Basic

namespace PrefixCalc

/-- What the console prints. -/
inductive Output
  /-- The form of a line, on request. -/
  | tree (form : Form)
  | result (x : Float)
  | failure (e : Error)
  /-- The variables and aliases with what they mean. -/
  | listing (rows : List (String × String))
  | prompt (text : String)
  /-- The input has ended at a prompt. -/
  | endOfInput
deriving Repr

namespace Output

/-- The label of a result; in green if colored. -/
def resultLabel (colored : Bool) : String :=
  if colored then "\x1B[32mResult:\x1B[0m" else "Result:"

/-- The label of an error; in bold red if colored. -/
def errorLabel (colored : Bool) : String :=
  if colored then "\x1B[31;1mError:\x1B[0;22m" else "Error:"

/-- The kind of a form, with a place holder for where it lies in memory. -/
def treeLabel : Form → String
  | .statement _ | .missingStatement => "(*polish.Statement)(ADDR)"
  | _ => "(*polish.Expression)(ADDR)"

/-- The text of an entry. -/
def text (colored : Bool) : Output → String
  | tree form => treeLabel form ++ "(" ++ form.text ++ ")\n"
  | result x => resultLabel colored ++ " " ++ numberText x ++ "\n"
  | failure e => errorLabel colored ++ " " ++ e.message ++ "\n"
  | listing rows => Table.render ("NAME", "VALUE") rows
  | prompt p => p
  | endOfInput => "\n"

/-- The text of entries one after another. -/
def joined (colored : Bool) (os : List Output) : String :=
  String.join (os.map (text colored))

end Output

/-- What a line asks of the console. -/
inductive Command
  | blank
  | quit
  | list
  | reset
  | run
deriving Repr, DecidableEq

/-- What a line asks for, given without the white space around it. -/
def Command.ofLine (line : Bytes) : Command :=
  if line.isEmpty then .blank
  else if line = Utf8.ofString ".quit" ∨ line = Utf8.ofString ".exit" then .quit
  else if line = Utf8.ofString ".vars" then .list
  else if line = Utf8.ofString ".reset" then .reset
  else .run

/-- A session with the settings it started with. -/
structure Console where
  session : Session
  settings : Settings
  /-- The form of every line is printed before its result. -/
  showTrees : Bool := false

/-- How a console stands after some lines. -/
inductive Status
  | running
  /-- The user asked to quit. -/
  | quit
  /-- A line did something that has no meaning. -/
  | crashed
deriving Repr, DecidableEq

/-- What became of some lines. -/
structure Transcript where
  output : List Output := []
  notes : List Note := []
  console : Console
  status : Status := .running

/-- What became of some lines, and then of others. -/
def Transcript.followedBy (first others : Transcript) : Transcript :=
  { others with output := first.output ++ others.output, notes := first.notes ++ others.notes }

namespace Console

/-- A console with these settings. -/
def start (s : Settings) (cacheSize : Int) (showTrees : Bool) : Console :=
  { session := s.newSession cacheSize, settings := s, showTrees := showTrees }

/-- The variables with their values, then the aliases with their functions. -/
def rows (env : Environment) : List (String × String) :=
  (env.listVariables.map fun entry => (entry.1, numberText entry.2)) ++
    env.listFunctions.filterMap fun name =>
      (env.aliases.find? name).map fun f => (name, "-> " ++ f.name)

/-- The form of a line, if its printing is asked for and the line has one. -/
def tree (c : Console) (line : Bytes) : Transcript :=
  if c.showTrees then
    let parsed := c.session.parse line
    { output := match parsed.answer with
        | .ok form => [.tree form]
        | .error _ => []
      notes := parsed.notes
      console := { c with session := parsed.session } }
  else { console := c }

/-- Runs a line of the language. -/
def run (c : Console) (line : Bytes) : Transcript :=
  let shown := c.tree line
  let ran := shown.console.session.run line
  let console := { c with session := ran.session }
  match ran.answer with
  | .ok x =>
    { output := shown.output ++ [.result x], notes := shown.notes ++ ran.notes, console := console }
  | .error (.error e) =>
    { output := shown.output ++ [.failure e]
      notes := shown.notes ++ ran.notes ++
        (if e.kind = .notImplemented then
          [.warn ("unimplemented form in " ++ Quoted.bytes line)]
        else [])
      console := console }
  | .error .crash =>
    { output := shown.output, notes := shown.notes ++ ran.notes, console := console, status := .crashed }

/-- Forgets what lines have defined, and starts over with the settings. -/
def restart (c : Console) : Console :=
  { c with session := c.session.reset.withEnv c.settings.apply }

/-- Deals with one line. -/
def handle (c : Console) (line : Bytes) : Transcript :=
  let line := Utf8.trim line
  match Command.ofLine line with
  | .blank => { console := c }
  | .quit => { console := c, status := .quit }
  | .list => { output := [.listing (rows c.session.env)], console := c }
  | .reset => { console := c.restart }
  | .run => c.run line

/-- Deals with lines one after another, up to the first that ends it. -/
def handleAll (c : Console) : List Bytes → Transcript
  | [] => { console := c }
  | line :: lines =>
    let first := c.handle line
    match first.status with
    | .running => first.followedBy (first.console.handleAll lines)
    | _ => first

end Console

/-- The next line of a source, up to and with its line feed.  Where no line feed is left the source
    has come to its end, and all that is left is its last line; how the source ended is told then. -/
def Source.readLine (s : Source UInt8) : Bytes × Except SourceEnd (Source UInt8) :=
  match s.remaining.dropWhile (· != 0x0A) with
  | [] => (s.remaining, .error s.ending)
  | lineFeed :: rest =>
    (s.remaining.takeWhile (· != 0x0A) ++ [lineFeed], .ok { s with remaining := rest })

/-- Each line that is read leaves less to read, which is why reading all of them ends. -/
theorem Source.length_lt_of_readLine {s s' : Source UInt8} {line : Bytes}
    (h : s.readLine = (line, .ok s')) : s'.remaining.length < s.remaining.length := by
  rw [readLine] at h
  split at h
  · cases h
  · next lineFeed rest hdrop =>
    injection h with _ hok
    injection hok with hs'
    have hle := (List.dropWhile_sublist (· != 0x0A) (l := s.remaining)).length_le
    rw [hdrop, List.length_cons] at hle
    rw [← hs']
    exact hle

/-- Input that broke off. -/
structure ReadError where
  reason : String
deriving Repr, DecidableEq

/-- An error as it is told to the user. -/
def ReadError.message (e : ReadError) : String := "reading input: " ++ e.reason

namespace Console

/-- Deals with every line of a source.  What comes before a source breaks off is dealt with, an
    unfinished line too; then there is an error, unless the user asked to quit before. -/
def runLines (c : Console) (input : Source UInt8) (reason : String) :
    Transcript × Option ReadError :=
  match _h : input.readLine with
  | (line, .error ending) =>
    let last : Transcript := if line.isEmpty then { console := c } else c.handle line
    (last, match last.status, ending with
      | .running, .broken => some ⟨reason⟩
      | _, _ => none)
  | (line, .ok rest) =>
    let first := c.handle line
    match first.status with
    | .running =>
      let others := first.console.runLines rest reason
      (first.followedBy others.1, others.2)
    | _ => (first, none)
termination_by input.remaining.length
decreasing_by exact Source.length_lt_of_readLine _h

end Console

end PrefixCalc
