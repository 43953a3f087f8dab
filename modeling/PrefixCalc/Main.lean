/-
  The program.  It takes arguments, files and standard input to the command line of the library, and
  writes what comes back.  Only a run at a terminal goes line by line.
-/
import PrefixCalc.Console.CommandLine

namespace PrefixCalc.Program

/-- Everything that is left to read. -/
partial def readAll (stream : IO.FS.Stream) (read : ByteArray) : IO ByteArray := do
  let more ← stream.read 65536
  if more.isEmpty then return read else readAll stream (read ++ more)

/-- The usual words for what went wrong with a file. -/
def reasonOf : IO.Error → String
  | .noFileOrDirectory _ _ _ => "no such file or directory"
  | .permissionDenied _ _ _ => "permission denied"
  | .inappropriateType _ _ _ => "is a directory"
  | e => toString e

/-- What is stored under a path. -/
def fetch (path : String) : IO Stored := do
  try
    return .file (← IO.FS.readBinFile path).toList
  catch e =>
    match e with
    | .inappropriateType _ _ _ => return .directory
    | e => return .unopened (reasonOf e)

/-- Writes a file; gives the reason if that fails. -/
def store (path : String) (contents : Bytes) : IO (Option String) := do
  try
    IO.FS.writeBinFile path ⟨contents.toArray⟩
    return none
  catch e => return some (reasonOf e)

/-- Writes notes to the error output. -/
def log (verbosity : Int) (notes : List Note) : IO Unit := do
  let err ← IO.getStderr
  for n in Note.shown verbosity notes do
    err.putStrLn (n.mark ++ " " ++ n.text)

/-- Writes at once. -/
def display (text : String) : IO Unit := do
  let out ← IO.getStdout
  out.putStr text
  out.flush

/-- Prompts until a line ends it or the input does; gives the history. -/
partial def converse (c : Console) (colored : Bool) (verbosity : Int) (h : History) : IO History := do
  display (Output.text colored (.prompt c.settings.prompt))
  let line ← (← IO.getStdin).getLine
  if line.isEmpty then
    display (Output.text colored .endOfInput)
    return h
  else
    let (t, h) := c.enter h (BufferedLine.read (Utf8.ofString line)).line
    log verbosity t.notes
    display (Output.joined colored t.output)
    match t.status with
    | .running => converse t.console colored verbosity h
    | .quit | .crashed => return h

/-- Reports a failure and gives the exit code. -/
def fail (message : String) : IO UInt32 := do
  (← IO.getStderr).putStr (complaint message)
  return 1

/-- A run at the terminal. -/
def runAtTerminal (o : Options) (s : Settings) : IO UInt32 := do
  log o.logLevel [Options.readyNote s (s.cacheSizeFor o.cacheSize)]
  let (history, warnings) := s.openHistory (← fetch s.historyFile)
  log o.logLevel warnings
  match s.promptFault? with
  | some e => fail e.message
  | none =>
    let history ← converse (o.console s) (o.isColored s true) o.logLevel history
    match s.closeHistory history none with
    | .done none => return 0
    | .failed message => fail message
    | .done (some contents) =>
      match s.closeHistory history (← store s.historyFile contents) with
      | .failed message => fail message
      | .done _ => return 0

/-- Writes what a run leaves, and gives its exit code. -/
def report (r : RunResult) : IO UInt32 := do
  display r.out
  log r.verbosity r.notes
  (← IO.getStderr).putStr r.errors
  return if r.crashed then 2 else r.exitCode

/-- Runs the calculator with arguments. -/
def run (args : List String) : IO UInt32 := do
  let toTerminal ← (← IO.getStdout).isTty
  let fromTerminal ← (← IO.getStdin).isTty
  match Options.read args with
  | .error e => report (.misused e)
  | .ok o =>
    let stored ← if o.help then pure (.unopened "") else fetch o.config
    let look := fun _ => stored
    match o.settings look, !o.help && o.lines.isEmpty && fromTerminal && toTerminal with
    | .ok s, true => runAtTerminal o s
    | _, _ =>
      let input ← if o.help || !o.lines.isEmpty then pure .empty else readAll (← IO.getStdin) .empty
      report (runCommand args look ⟨input.toList, .finished⟩ "" toTerminal)

end PrefixCalc.Program

/-- Runs the calculator with the arguments of the command line. -/
def main (args : List String) : IO UInt32 := PrefixCalc.Program.run args
