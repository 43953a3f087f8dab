/-
  Diagnostics do not interfere: showing forms, colors and the log change nothing but what they add.

  1. **Two runs** — `Console.exchanges` lists, line by line, what a console says and the session it is
     then in.  The same console that shows forms or does not (`Console.showing`) is run on the same
     lines.

  2. **Step** — a line is answered alike and leads to the same session in both (`handle_showing`);
     all that differs is the form in front of the answer.  Showing it goes through the cache once
     more, but `Console.run_spec` has it that nothing is left of that.

  3. **Run** — so one list of exchanges is the other with the forms put in or left out
     (`exchanges_showing`), whatever the lines and the size of the cache.

  4. **Text** — an entry becomes text at the very end, where colors put codes around its label and
     leave its body alone (`Output.text_eq`); a form is one line of text.
-/
import PrefixCalc.Proofs.Console.Loops
import PrefixCalc.Proofs.Language.OneLine

namespace PrefixCalc

/-! ## Answers and forms -/

namespace Output

/-- The entry shows a form. -/
def isTree : Output → Bool
  | tree _ => true
  | _ => false

/-- What is shown of a line before it is answered: its form, if it is a line of the language that
    parses. -/
def shown (line : Bytes) : List Output :=
  match Command.ofLine (Utf8.trim line), Form.ofLine line with
  | .run, .ok form => [.tree form]
  | _, _ => []

/-- How a line is answered where names mean what they do in this environment. -/
def answer (env : Environment) (line : Bytes) : List Output :=
  match Command.ofLine (Utf8.trim line) with
  | .list => [.listing (Console.rows env)]
  | .run => ofOutcome (env.run line).1
  | _ => []

theorem filter_shown (line : Bytes) : (shown line).filter (fun o => !o.isTree) = [] := by
  rw [shown]
  split
  · rfl
  · rfl

theorem filter_answer (env : Environment) (line : Bytes) :
    (answer env line).filter (fun o => !o.isTree) = answer env line := by
  rw [answer]
  cases Command.ofLine (Utf8.trim line) with
  | blank => rfl
  | quit => rfl
  | list => rfl
  | reset => rfl
  | run =>
    show (ofOutcome (env.run line).1).filter _ = ofOutcome (env.run line).1
    cases (env.run line).1 with
    | ok x => rfl
    | error f => cases f <;> rfl

end Output

namespace Console

/-- The same console, showing forms or not. -/
def showing (c : Console) (showTrees : Bool) : Console := { c with showTrees := showTrees }

theorem output_handle {c : Console} (h : c.session.cache.Sound) (line : Bytes) :
    (c.handle line).output =
      (if c.showTrees then Output.shown line else []) ++ Output.answer c.session.env line := by
  rw [handle, Output.shown, Output.answer]
  cases Command.ofLine (Utf8.trim line) with
  | blank => rw [ite_self]; rfl
  | quit => rw [ite_self]; rfl
  | list => rw [ite_self]; rfl
  | reset => rw [ite_self]; rfl
  | run =>
    dsimp only
    rw [(run_spec h (Utf8.trim line)).1, Environment.run_trim, Output.ofForm, ofLine_trim]
    cases Form.ofLine line with
    | ok form => rfl
    | error e => rfl

/-- Whether forms are shown makes no difference to where a line leads. -/
theorem handle_showing {c : Console} (h : c.session.cache.Sound) (showTrees : Bool)
    (line : Bytes) :
    ((c.showing showTrees).handle line).console = (c.handle line).console.showing showTrees ∧
      ((c.showing showTrees).handle line).status = (c.handle line).status := by
  rw [handle, handle]
  cases Command.ofLine (Utf8.trim line) with
  | blank => exact ⟨rfl, rfl⟩
  | quit => exact ⟨rfl, rfl⟩
  | list => exact ⟨rfl, rfl⟩
  | reset => exact ⟨rfl, rfl⟩
  | run =>
    have hshowing : (c.showing showTrees).session.cache.Sound := h
    obtain ⟨-, hconsole, hstatus⟩ := run_spec h (Utf8.trim line)
    obtain ⟨-, hconsole', hstatus'⟩ := run_spec hshowing (Utf8.trim line)
    dsimp only
    rw [hconsole, hconsole', hstatus, hstatus']
    exact ⟨rfl, rfl⟩

end Console

/-! ## Line by line -/

/-- A line that was dealt with, what was said, and the session after it. -/
structure Exchange where
  line : Bytes
  output : List Output
  session : Session

namespace Exchange

/-- What was said, forms apart. -/
def entries (x : Exchange) : List Output := x.output.filter fun o => !o.isTree

/-- The same exchange with forms shown or not. -/
def showing (showTrees : Bool) (x : Exchange) : Exchange :=
  { x with output := (if showTrees then Output.shown x.line else []) ++ x.entries }

theorem entries_showing (showTrees : Bool) (x : Exchange) :
    (x.showing showTrees).entries = x.entries := by
  have hentries : x.entries.filter (fun o => !o.isTree) = x.entries := by
    rw [entries, List.filter_filter]
    simp only [Bool.and_self]
  rw [entries, showing, List.filter_append, hentries]
  cases showTrees with
  | false => rfl
  | true => rw [if_pos rfl, Output.filter_shown, List.nil_append]

end Exchange

namespace Console

/-- What a console says to each line and the session it is then in, up to the line that ends it. -/
def exchanges (c : Console) : List Bytes → List Exchange
  | [] => []
  | line :: lines =>
    let t := c.handle line
    match t.status with
    | .running => ⟨line, t.output, t.console.session⟩ :: t.console.exchanges lines
    | _ => [⟨line, t.output, t.console.session⟩]

theorem exchanges_cons_of_running {c : Console} {line : Bytes}
    (h : (c.handle line).status = .running) (lines : List Bytes) :
    c.exchanges (line :: lines) = ⟨line, (c.handle line).output, (c.handle line).console.session⟩ ::
      (c.handle line).console.exchanges lines := by
  rw [exchanges, h]

theorem exchanges_cons_of_ended {c : Console} {line : Bytes}
    (h : (c.handle line).status ≠ .running) (lines : List Bytes) :
    c.exchanges (line :: lines) =
      [⟨line, (c.handle line).output, (c.handle line).console.session⟩] := by
  simp only [exchanges]

/-- What lines come to is what is said to each of them. -/
theorem output_handleAll (c : Console) (lines : List Bytes) :
    (c.handleAll lines).output = (c.exchanges lines).flatMap (·.output) := by
  induction lines generalizing c with
  | nil => rfl
  | cons line lines ih =>
    by_cases hrunning : (c.handle line).status = .running
    · rw [handleAll_cons_of_running hrunning, exchanges_cons_of_running hrunning,
        List.flatMap_cons, ← ih]
      rfl
    · rw [handleAll_cons_of_ended hrunning, exchanges_cons_of_ended hrunning,
        List.flatMap_singleton]

/-- The session that lines lead to is the one after the last exchange. -/
theorem session_handleAll (c : Console) (lines : List Bytes) :
    (c.handleAll lines).console.session =
      ((c.exchanges lines).map (·.session)).getLastD c.session := by
  induction lines generalizing c with
  | nil => rfl
  | cons line lines ih =>
    by_cases hrunning : (c.handle line).status = .running
    · rw [handleAll_cons_of_running hrunning, exchanges_cons_of_running hrunning, List.map_cons,
        List.getLastD_cons, ← ih]
      rfl
    · rw [handleAll_cons_of_ended hrunning, exchanges_cons_of_ended hrunning]
      rfl

/-- The exchanges with a console that shows forms, or does not, are those with the same console as
    it stands, with the forms put in or left out. -/
theorem exchanges_showing {s : Settings} {size : Int} {b : Bool} {c : Console}
    (h : c.StartedWith s size b) (showTrees : Bool) (lines : List Bytes) :
    (c.showing showTrees).exchanges lines =
      (c.exchanges lines).map (Exchange.showing showTrees) := by
  induction lines generalizing c with
  | nil => rfl
  | cons line lines ih =>
    have hsound : (c.showing showTrees).session.cache.Sound := h.sound
    obtain ⟨hconsole, hstatus⟩ := handle_showing h.sound showTrees line
    have hline : Exchange.showing showTrees
        ⟨line, (c.handle line).output, (c.handle line).console.session⟩ =
        ⟨line, ((c.showing showTrees).handle line).output,
          ((c.showing showTrees).handle line).console.session⟩ := by
      have hentries : (c.handle line).output.filter (fun o => !o.isTree) =
          Output.answer c.session.env line := by
        rw [output_handle h.sound, List.filter_append, Output.filter_answer]
        split
        · rw [Output.filter_shown, List.nil_append]
        · rfl
      rw [Exchange.showing, Exchange.entries, hentries, output_handle hsound, hconsole]
      rfl
    by_cases hrunning : (c.handle line).status = .running
    · rw [exchanges_cons_of_running hrunning, exchanges_cons_of_running (hstatus.trans hrunning),
        List.map_cons, hline, ← ih (h.handle line), hconsole]
    · rw [exchanges_cons_of_ended hrunning,
        exchanges_cons_of_ended (fun hr => hrunning (hstatus.symm.trans hr)), List.map_singleton,
        hline]

theorem handleAll_showing {s : Settings} {size : Int} {b : Bool} {c : Console}
    (h : c.StartedWith s size b) (showTrees : Bool) (lines : List Bytes) :
    ((c.showing showTrees).handleAll lines).console =
        (c.handleAll lines).console.showing showTrees ∧
      ((c.showing showTrees).handleAll lines).status = (c.handleAll lines).status := by
  induction lines generalizing c with
  | nil => exact ⟨rfl, rfl⟩
  | cons line lines ih =>
    obtain ⟨hconsole, hstatus⟩ := handle_showing h.sound showTrees line
    by_cases hrunning : (c.handle line).status = .running
    · rw [handleAll_cons_of_running hrunning, handleAll_cons_of_running (hstatus.trans hrunning),
        hconsole]
      exact ih (h.handle line)
    · rw [handleAll_cons_of_ended hrunning,
        handleAll_cons_of_ended (fun hr => hrunning (hstatus.symm.trans hr))]
      exact ⟨hconsole, hstatus⟩

end Console

/-! ## Text -/

namespace Output

/-- The label of an entry. -/
def label : Output → String
  | result _ => "Result:"
  | failure _ => "Error:"
  | _ => ""

/-- The codes that color the label: green for a result, bold red for an error. -/
def codes : Output → String × String
  | result _ => ("\x1B[32m", "\x1B[0m")
  | failure _ => ("\x1B[31;1m", "\x1B[0;22m")
  | _ => ("", "")

/-- What stands behind the label. -/
def body : Output → String
  | tree form => treeLabel form ++ "(" ++ form.text ++ ")\n"
  | result x => " " ++ numberText x ++ "\n"
  | failure e => " " ++ e.message ++ "\n"
  | listing rows => Table.render ("NAME", "VALUE") rows
  | prompt p => p
  | endOfInput => "\n"

/-- Colors put codes around the label, and change nothing else. -/
theorem text_eq (colored : Bool) (o : Output) :
    o.text colored =
      (if colored then o.codes.1 ++ o.label ++ o.codes.2 else o.label) ++ o.body := by
  have hplain : ∀ t : String, t = (if colored then "" ++ "" ++ "" else "") ++ t := by
    intro t
    cases colored <;> exact String.empty_append.symm
  cases o with
  | tree form => exact hplain _
  | result x =>
    have hlabel : resultLabel colored =
        if colored then "\x1B[32m" ++ "Result:" ++ "\x1B[0m" else "Result:" := rfl
    simp only [text, hlabel, label, codes, body, String.append_assoc]
  | failure e =>
    have hlabel : errorLabel colored =
        if colored then "\x1B[31;1m" ++ "Error:" ++ "\x1B[0;22m" else "Error:" := rfl
    simp only [text, hlabel, label, codes, body, String.append_assoc]
  | listing rows => exact hplain _
  | prompt p => exact hplain _
  | endOfInput => exact hplain _

theorem joined_flatMap {α : Type} (colored : Bool) (f : α → List Output) (as : List α) :
    joined colored (as.flatMap f) = String.join (as.map fun a => joined colored (f a)) := by
  induction as with
  | nil => rfl
  | cons a as ih => rw [List.flatMap_cons, joined_append, ih, List.map_cons, String.join_cons]

theorem isOneLine_treeLabel (form : Form) : IsOneLine (treeLabel form) := by
  cases form with
  | expression e => show IsOneLine "(*polish.Expression)(ADDR)"; decide
  | statement s => show IsOneLine "(*polish.Statement)(ADDR)"; decide
  | missingStatement => decide
  | nothing => decide

/-- What is shown of a line is one line of text. -/
theorem isOneLine_of_mem_shown {line : Bytes} {o : Output} (h : o ∈ shown line) (colored : Bool) :
    ∃ text, o.text colored = text ++ "\n" ∧ IsOneLine text := by
  rw [shown] at h
  split at h
  · next form _ hform =>
    rw [List.mem_singleton.mp h]
    refine ⟨treeLabel form ++ "(" ++ form.text ++ ")", ?_, ?_⟩
    · have hend : ")\n" = ")" ++ "\n" := rfl
      rw [text, hend, ← String.append_assoc]
    · simp only [isOneLine_append]
      exact ⟨⟨⟨isOneLine_treeLabel form, by decide⟩,
        (isLineTree_of_ofLine hform).isOneLine_text⟩, by decide⟩
  · cases h

end Output

/-- The log has its own level, and nothing else depends on it. -/
theorem Options.run_verbosity (o : Options) (verbosity : Int) (look : String → Stored)
    (input : Source UInt8) (reason : String) (toTerminal : Bool) :
    Options.run { o with verbosity := verbosity } look input reason toTerminal =
      { o.run look input reason toTerminal with
        verbosity := ({ o with verbosity := verbosity } : Options).logLevel } := by
  have hsettings : ({ o with verbosity := verbosity } : Options).settings look =
    o.settings look := rfl
  rw [run, run, hsettings]
  cases o.settings look with
  | error e => rfl
  | ok s => rfl

namespace Console

theorem runLines_showing (s : Settings) (size : Int) (b b' : Bool) (input : Source UInt8)
    (reason : String) :
    ((start s size b).runLines input reason).1.console.session =
        ((start s size b').runLines input reason).1.console.session ∧
      ((start s size b).runLines input reason).1.status =
        ((start s size b').runLines input reason).1.status ∧
      ((start s size b).runLines input reason).2 =
        ((start s size b').runLines input reason).2 := by
  have hcut : IsLineCut input.remaining (linesOf input.remaining) := isLineCut_iff.mpr rfl
  obtain ⟨hconsole, hstatus⟩ :=
    handleAll_showing (startedWith_start s size b') b (linesOf input.remaining)
  have hstart : (start s size b').showing b = start s size b := rfl
  rw [hstart] at hconsole hstatus
  rw [runLines_eq hcut, runLines_eq hcut]
  refine ⟨?_, hstatus, ?_⟩
  · show ((start s size b).handleAll (linesOf input.remaining)).console.session = _
    rw [hconsole]
    rfl
  · rw [hstatus]

/-- **Diagnostics do not interfere.**  Whether forms are shown or not, a console goes through the
    same sessions on the same lines, with the same lines in the cache in the same order, gives the
    same results, errors and tables, and ends in the session of the last line in the same way.
    Showing forms adds one line of text in front of the answer to each line of the language that
    parses, and nothing elsewhere.  Colors add codes around labels, and nothing elsewhere.  And the
    verbosity decides what is shown of the log, and nothing else. -/
theorem runLines_diagnostics (s : Settings) (size : Int) (input : Source UInt8) (reason : String)
    (showTrees showTrees' : Bool) :
    let seen := (start s size showTrees).exchanges (linesOf input.remaining)
    let seen' := (start s size showTrees').exchanges (linesOf input.remaining)
    let ran := (start s size showTrees).runLines input reason
    let ran' := (start s size showTrees').runLines input reason
    (seen.map (·.line) = seen'.map (·.line) ∧ seen.map (·.session) = seen'.map (·.session) ∧
      seen.map (·.entries) = seen'.map (·.entries)) ∧
    (ran.1.console.session = (seen.map (·.session)).getLastD (s.newSession size) ∧
      ran.1.console.session = ran'.1.console.session ∧ ran.1.status = ran'.1.status ∧
      ran.2 = ran'.2) ∧
    (∀ x ∈ seen, x.output = (if showTrees then Output.shown x.line else []) ++ x.entries) ∧
    (∀ line, ∀ o ∈ Output.shown line, ∀ colored, ∃ text,
      o.text colored = text ++ "\n" ∧ IsOneLine text) ∧
    (∀ colored, Output.joined colored ran.1.output =
      String.join (seen.map fun x => Output.joined colored x.output)) ∧
    (∀ o : Output, o.text false = o.label ++ o.body ∧
      o.text true = o.codes.1 ++ o.label ++ o.codes.2 ++ o.body) ∧
    (∀ (o : Options) verbosity look toTerminal,
      Options.run { o with verbosity := verbosity } look input reason toTerminal =
        { o.run look input reason toTerminal with
          verbosity := ({ o with verbosity := verbosity } : Options).logLevel }) := by
  intro seen seen' ran ran'
  have hseen : seen = seen'.map (Exchange.showing showTrees) :=
    exchanges_showing (startedWith_start s size showTrees') showTrees (linesOf input.remaining)
  have hcut : IsLineCut input.remaining (linesOf input.remaining) := isLineCut_iff.mpr rfl
  have hran : ran.1 = (start s size showTrees).handleAll (linesOf input.remaining) :=
    congrArg Prod.fst (runLines_eq hcut (start s size showTrees) input.ending reason)
  refine ⟨⟨?_, ?_, ?_⟩, ⟨?_, runLines_showing s size showTrees showTrees' input reason⟩, ?_, ?_, ?_,
    ?_, ?_⟩
  · rw [hseen, List.map_map]
    rfl
  · rw [hseen, List.map_map]
    rfl
  · rw [hseen, List.map_map]
    exact List.map_congr_left fun x _ => x.entries_showing showTrees
  · rw [hran]
    exact session_handleAll (start s size showTrees) (linesOf input.remaining)
  · intro x hx
    rw [hseen] at hx
    obtain ⟨y, -, rfl⟩ := List.mem_map.mp hx
    rw [y.entries_showing showTrees]
    rfl
  · intro line o ho colored
    exact Output.isOneLine_of_mem_shown ho colored
  · intro colored
    have houtput : ran.1.output = seen.flatMap (·.output) := by
      rw [hran]
      exact output_handleAll (start s size showTrees) (linesOf input.remaining)
    rw [houtput, Output.joined_flatMap]
  · intro o
    exact ⟨o.text_eq false, o.text_eq true⟩
  · intro o verbosity look toTerminal
    exact o.run_verbosity verbosity look input reason toTerminal

end Console

end PrefixCalc
