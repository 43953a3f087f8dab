/-
  The console at a prompt.  Lines are read one at a time, a prompt before each; the lines entered are
  added to the history, which is kept in a file from one run to the next.

  Reading goes through a buffer of fixed size: a line that does not fit is taken in pieces, each like
  a line of its own, and such a line in the history file ends the reading of the history.
-/
import PrefixCalc.Console.Basic
import PrefixCalc.Settings.Decode
import PrefixCalc.Text.Invisible

namespace PrefixCalc

/-! ## Buffered lines -/

namespace BufferedLine

/-- How many bytes the buffer holds. -/
def bufferSize : Nat := 4096

/-- One line or piece of a line. -/
structure Read where
  line : Bytes
  /-- The line goes on. -/
  isPart : Bool
  rest : Bytes

/-- A line without a carriage return at its end. -/
def dropReturn (line : Bytes) : Bytes :=
  if line.getLast? = some 0x0D then line.dropLast else line

/-- Reads a line.  It ends with a line feed, perhaps after a carriage return, or with the text; a
    carriage return at the end of a piece is left for the next one. -/
def read (bs : Bytes) : Read :=
  let held := bs.take bufferSize
  let line := held.takeWhile (· != 0x0A)
  if line.length < held.length then ⟨dropReturn line, false, bs.drop (line.length + 1)⟩
  else if held.length < bufferSize then ⟨held, false, []⟩
  else
    let piece := dropReturn held
    ⟨piece, true, bs.drop piece.length⟩

theorem length_rest_read_lt {bs : Bytes} (h : bs ≠ []) : (read bs).rest.length < bs.length := by
  have hpos : 0 < bs.length := List.length_pos_iff.mpr h
  simp only [read]
  split
  · rw [List.length_drop]
    omega
  · split
    · exact hpos
    · next hfull =>
      have hheld : (bs.take bufferSize).length = bufferSize := by
        have := List.length_take_le bufferSize bs
        omega
      have hpiece : 0 < (dropReturn (bs.take bufferSize)).length := by
        rw [dropReturn]
        split
        · rw [List.length_dropLast, hheld]
          decide
        · rw [hheld]
          decide
      rw [List.length_drop]
      omega

/-- The lines of a text, pieces of long lines apart. -/
def readAll (bs : Bytes) : List Read :=
  if _h : bs = [] then []
  else read bs :: readAll (read bs).rest
termination_by bs.length
decreasing_by exact length_rest_read_lt _h

end BufferedLine

/-! ## History -/

/-- Lines entered at the prompt, the oldest first. -/
structure History where
  lines : List Bytes := []
deriving Repr, DecidableEq

/-- Why the reading of a history ended before its end. -/
inductive HistoryFault
  | tooLong (line : Nat)
  | invalid (line : Nat)
  | unreadable (reason : String)
deriving Repr, DecidableEq

/-- A fault as the log shows it. -/
def HistoryFault.message : HistoryFault → String
  | tooLong n => "line " ++ n.repr ++ " is too long"
  | invalid n => "invalid string at line " ++ n.repr
  | unreadable reason => reason

namespace History

/-- How many lines are kept. -/
def limit : Nat := 1000

/-- One more line, whatever it is; the oldest goes when there are too many. -/
def push (h : History) (line : Bytes) : History :=
  let lines := h.lines ++ [line]
  ⟨lines.drop (lines.length - limit)⟩

/-- One more line, unless it repeats the last one. -/
def append (h : History) (line : Bytes) : History :=
  if h.lines.getLast? = some line then h else h.push line

/-- Adds lines that were read from a file, up to the first that cannot be taken. -/
def addRead (h : History) (n : Nat) : List BufferedLine.Read → History × Option HistoryFault
  | [] => (h, none)
  | r :: rest =>
    if r.isPart then (h, some (.tooLong n))
    else if !Utf8.isLawful r.line then (h, some (.invalid n))
    else (h.push r.line).addRead (n + 1) rest

/-- The history in a file, as far as it can be read.  No file is an empty history. -/
def load (path : String) : Stored → History × Option HistoryFault
  | .unopened _ => ({}, none)
  | .directory => ({}, some (.unreadable ("read " ++ path ++ ": is a directory")))
  | .file contents => ({} : History).addRead 1 (BufferedLine.readAll contents)

/-- The history as it is kept in a file, one line after another. -/
def contents (h : History) : Bytes := h.lines.flatMap fun line => line ++ [0x0A]

end History

/-! ## Prompting -/

/-- How a run at the prompt ends. -/
inductive InteractiveEnd
  /-- It ends well, and this is to be kept in the history file, if there is one. -/
  | done (history : Option Bytes)
  | failed (message : String)
deriving Repr

/-- What is stored as history afterwards, given what was stored before. -/
def InteractiveEnd.stored (before : Stored) : InteractiveEnd → Stored
  | done (some contents) => .file contents
  | done none | failed _ => before

namespace Settings

/-- Why the prompt cannot be shown, if it cannot: it holds characters that do not show. -/
def promptFault? (s : Settings) : Option ReadError :=
  if s.prompt.toList.any isInvisible then some ⟨"invalid prompt"⟩ else none

/-- The history to begin with, given what is stored as history, and the warnings of reading it. -/
def openHistory (s : Settings) (stored : Stored) : History × List Note :=
  if s.historyFile.isEmpty then ({}, [])
  else
    let (history, fault) := History.load s.historyFile stored
    (history, fault.toList.map fun f =>
      .warn ("reading history " ++ s.historyFile ++ ": " ++ f.message))

/-- The end of a run with this history; `unwritable` tells why the history file cannot be written, if
    it cannot. -/
def closeHistory (s : Settings) (history : History) (unwritable : Option String) : InteractiveEnd :=
  if s.historyFile.isEmpty then .done none
  else
    match unwritable with
    | some reason =>
      .failed ("writing history " ++ s.historyFile ++ ": open " ++ s.historyFile ++ ": " ++ reason)
    | none => .done (some history.contents)

end Settings

namespace Console

/-- Deals with a line entered at the prompt, and remembers it unless it is blank. -/
def enter (c : Console) (h : History) (line : Bytes) : Transcript × History :=
  (c.handle line, if Utf8.isAllBlank line then h else h.append line)

/-- Prompts for lines until one ends it or none is left; the end of the input is told, unless the input
    breaks off. -/
def prompting (c : Console) (h : History) (ending : SourceEnd) : List Bytes → Transcript × History
  | [] =>
    let told := match ending with
      | .finished => [.endOfInput]
      | .broken => []
    ({ output := .prompt c.settings.prompt :: told, console := c }, h)
  | line :: lines =>
    let (first, h) := c.enter h line
    let prompted := { first with output := .prompt c.settings.prompt :: first.output }
    match first.status with
    | .running =>
      let (others, h) := first.console.prompting h ending lines
      (prompted.followedBy others, h)
    | _ => (prompted, h)

/-- A run at a prompt that delivers these lines and then tells that the input has ended, or breaks off
    for this reason, given what is stored as history, and why the history file could not be written, if
    it could not.  The history file is left alone when no prompt can be shown or the input breaks
    off. -/
def converse (c : Console) (lines : List Bytes) (ending : SourceEnd) (reason : String)
    (stored : Stored) (unwritable : Option String) : Transcript × InteractiveEnd :=
  let (history, warnings) := c.settings.openHistory stored
  match c.settings.promptFault? with
  | some e => ({ notes := warnings, console := c }, .failed e.message)
  | none =>
    let (t, history) := c.prompting history ending lines
    ({ t with notes := warnings ++ t.notes },
      match t.status, ending with
      | .running, .broken => .failed (ReadError.message ⟨reason⟩)
      | _, _ => c.settings.closeHistory history unwritable)

/-- A run at a prompt that delivers these lines and then tells that the input has ended. -/
def runAtPrompt (c : Console) (lines : List Bytes) (stored : Stored) (unwritable : Option String) :
    Transcript × InteractiveEnd :=
  c.converse lines .finished "" stored unwritable

/-- A run at the prompt on this input, of which the prompt delivers line by line what fits into its
    buffer. -/
def runInteractive (c : Console) (input : Bytes) (stored : Stored) (unwritable : Option String) :
    Transcript × InteractiveEnd :=
  c.runAtPrompt ((BufferedLine.readAll input).map (·.line)) stored unwritable

end Console

end PrefixCalc
