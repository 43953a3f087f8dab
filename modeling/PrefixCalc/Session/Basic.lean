/-
  A session runs lines one after another against one environment.  It remembers the forms of the
  lines it parsed last; the names in a form are looked up when it is evaluated, so that a remembered
  form follows later changes of the environment.

  Each step gives its answer, the session after it, and what it adds to the log.
-/
import PrefixCalc.Environment.Evaluate
import PrefixCalc.Session.Cache
import PrefixCalc.Session.Journal
import PrefixCalc.Text.Quoted

namespace PrefixCalc

/-- An environment and the lines parsed last. -/
structure Session where
  env : Environment := .empty
  cache : Cache

/-- What one step of a session gives. -/
structure Step (α : Type) where
  answer : α
  session : Session
  notes : List Note := []

namespace Session

/-- How many lines a session remembers unless told otherwise. -/
def defaultCacheSize : Int := 128

/-- A session in which nothing is defined.  It remembers no lines if the size is not positive. -/
def new (cacheSize : Int) : Session := { cache := .ofSize cacheSize }

/-- The form of a line.  White space around a line does not matter, and a line that is rejected is
    not remembered. -/
def parse (s : Session) (line : Bytes) : Step (Except Error Form) :=
  let key := Utf8.trim line
  match s.cache.find? key with
  | some form =>
    { answer := .ok form
      session := { s with cache := s.cache.add key form }
      notes := [.detail ("parse cache hit for " ++ Quoted.bytes key)] }
  | none =>
    match Token.scan key with
    | .error e => { answer := .error e, session := s }
    | .ok tokens =>
      let note := Note.detail ("tokens: " ++ Token.joined tokens)
      match Form.parse tokens with
      | .error e => { answer := .error e, session := s, notes := [note] }
      | .ok form =>
        { answer := .ok form
          session := { s with cache := s.cache.add key form }
          notes := [note] }

/-- Executes a form that has been parsed. -/
def exec (s : Session) (form : Form) : Step (Except Fault Float) :=
  let (answer, env) := s.env.exec form
  { answer := answer
    session := { s with env := env }
    notes := match answer with
      | .ok x => [.line (form.text ++ " => " ++ numberText x)]
      | .error (.error e) => [.line ("failed " ++ form.text ++ ": " ++ e.message)]
      | .error .crash => [] }

/-- Runs one line. -/
def run (s : Session) (line : Bytes) : Step (Except Fault Float) :=
  let parsed := s.parse line
  match parsed.answer with
  | .error e =>
    { answer := .error (.error e)
      session := parsed.session
      notes := parsed.notes ++ [.line ("rejected " ++ Quoted.bytes line ++ ": " ++ e.message)] }
  | .ok form =>
    let ran := parsed.session.exec form
    { ran with notes := parsed.notes ++ ran.notes }

/-- Forgets every variable, every alias and every line. -/
def reset (s : Session) : Session := { env := .empty, cache := s.cache.clear }

/-- The session with another environment. -/
def withEnv (s : Session) (f : Environment → Environment) : Session := { s with env := f s.env }

end Session

end PrefixCalc
