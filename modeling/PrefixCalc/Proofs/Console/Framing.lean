/-
  The output is framed in lines: one for each line of the language, in order.

  1. **Specification** — `Settings.outcomes` goes through lines with an environment alone, with no
     cache, console or text: a line of the language comes out as running it does, starting over leads
     back to the settings, and nothing behind a line that asks to quit is looked at.  `Tells` says
     with which text the console tells an outcome.

  2. **Program** — `Console.runLines`, and the text of the entries that it leaves.

  3. **The crux** — by induction on the lines, the entries are those of the outcomes
     (`StartedWith.output_handleAll_eq`), whatever the cache holds.  Each of them is one line of text,
     since no message and no number has a line break in it (`exists_tells_run`).  And what is said to
     some lines is said to them whatever follows (`exists_output_handleAll_append`).
-/
import Mathlib.Data.List.Forall2
import PrefixCalc.Proofs.Console.Diagnostics
import PrefixCalc.Proofs.Environment.Messages

namespace PrefixCalc

/-! ## Lines of the language -/

/-- The line is neither blank nor a command to the console. -/
def IsOfLanguage (line : Bytes) : Prop :=
  Utf8.trim line ≠ [] ∧
    ∀ command ∈ [".quit", ".exit", ".vars", ".reset"], Utf8.trim line ≠ Utf8.ofString command

instance (line : Bytes) : Decidable (IsOfLanguage line) := inferInstanceAs (Decidable (_ ∧ _))

theorem Command.ofLine_eq_run_iff {line : Bytes} :
    Command.ofLine (Utf8.trim line) = .run ↔ IsOfLanguage line := by
  simp only [IsOfLanguage, List.forall_mem_cons, List.not_mem_nil, false_imp_iff, implies_true,
    and_true]
  rw [ofLine]
  split
  · next hblank => simp [List.isEmpty_iff.mp hblank]
  · next hblank =>
    have hne : Utf8.trim line ≠ [] := fun h => hblank (List.isEmpty_iff.mpr h)
    split
    · next hquit =>
      rcases hquit with hquit | hquit
      · simp [hquit]
      · simp [hquit]
    · next hquit =>
      obtain ⟨hquit, hexit⟩ := not_or.mp hquit
      split
      · next hvars => simp [hvars]
      · next hvars =>
        split
        · next hreset => simp [hreset]
        · next hreset => simp [hne, hquit, hexit, hvars, hreset]

theorem Command.eq_of_ofLine_eq_list {line : Bytes} (h : Command.ofLine line = .list) :
    line = Utf8.ofString ".vars" := by
  rw [ofLine] at h
  split at h
  · cases h
  · split at h
    · cases h
    · split at h
      · next hvars => exact hvars
      · split at h <;> cases h

theorem AsksToQuit.not_isOfLanguage {line : Bytes} (h : AsksToQuit line) : ¬ IsOfLanguage line := by
  intro hlanguage
  rcases h with hquit | hexit
  · exact hlanguage.2 ".quit" (by decide) hquit
  · exact hlanguage.2 ".exit" (by decide) hexit

/-- The lines of the language up to the first line that asks to quit, each with how it comes out where
    the lines before it have led. -/
def Settings.outcomes (s : Settings) (env : Environment) :
    List Bytes → List (Bytes × Except Fault Float)
  | [] => []
  | line :: lines =>
    if AsksToQuit line then []
    else (if IsOfLanguage line then [(line, (env.run line).1)] else []) ++
      s.outcomes (s.envAfter env line) lines

theorem Settings.map_fst_outcomes (s : Settings) (env : Environment) (lines : List Bytes) :
    (s.outcomes env lines).map (·.1) =
      (lines.takeWhile fun line => !decide (AsksToQuit line)).filter
        fun line => decide (IsOfLanguage line) := by
  induction lines generalizing env with
  | nil => rfl
  | cons line lines ih =>
    rw [outcomes, List.takeWhile_cons]
    by_cases hquit : AsksToQuit line
    · simp [hquit]
    · by_cases hlanguage : IsOfLanguage line
      · simp [hquit, hlanguage, ih]
      · simp [hquit, hlanguage, ih]

/-- Each line comes out as it does when it is run somewhere. -/
theorem Settings.exists_run_of_mem_outcomes {s : Settings} {env : Environment} {lines : List Bytes}
    {o : Bytes × Except Fault Float} (h : o ∈ s.outcomes env lines) :
    ∃ env' : Environment, o.2 = (env'.run o.1).1 := by
  induction lines generalizing env with
  | nil => cases h
  | cons line lines ih =>
    rw [outcomes] at h
    split at h
    · cases h
    · rcases List.mem_append.mp h with hline | hlater
      · split at hline
        · rw [List.mem_singleton.mp hline]
          exact ⟨env, rfl⟩
        · cases hline
      · exact ih hlater

/-! ## Entries -/

namespace Console

/-- Without listings and forms, what is said to lines is how the lines of the language come out. -/
theorem StartedWith.output_handleAll_eq {s : Settings} {size : Int} {c : Console}
    (h : c.StartedWith s size false) {lines : List Bytes}
    (hlist : ∀ line ∈ lines, Utf8.trim line ≠ Utf8.ofString ".vars") :
    (c.handleAll lines).output =
      (s.outcomes c.session.env lines).flatMap fun o => Output.ofOutcome o.2 := by
  induction lines generalizing c with
  | nil => rfl
  | cons line lines ih =>
    obtain ⟨hline, hlines⟩ := List.forall_mem_cons.mp hlist
    have hstatus := h.status_handle line
    have houtput : (c.handle line).output =
        if IsOfLanguage line then Output.ofOutcome (c.session.env.run line).1 else [] := by
      rw [output_handle h.sound, h.showTrees_eq, if_neg Bool.false_ne_true, List.nil_append,
        Output.answer]
      by_cases hlanguage : IsOfLanguage line
      · rw [if_pos hlanguage, Command.ofLine_eq_run_iff.mpr hlanguage]
      · rw [if_neg hlanguage]
        cases hcommand : Command.ofLine (Utf8.trim line) with
        | run => exact absurd (Command.ofLine_eq_run_iff.mp hcommand) hlanguage
        | list => exact absurd (Command.eq_of_ofLine_eq_list hcommand) hline
        | blank => rfl
        | quit => rfl
        | reset => rfl
    rw [Settings.outcomes]
    by_cases hquit : AsksToQuit line
    · rw [if_pos hquit] at hstatus
      rw [handleAll_cons_of_ended (by rw [hstatus]; decide), houtput, if_pos hquit,
        if_neg hquit.not_isOfLanguage]
      rfl
    · rw [if_neg hquit] at hstatus
      rw [handleAll_cons_of_running hstatus, if_neg hquit, List.flatMap_append, ← h.env_handle line,
        ← ih (h.handle line) hlines]
      show (c.handle line).output ++ _ = _
      rw [houtput]
      congr 1
      split
      · rw [List.flatMap_singleton]
      · rfl

/-- What is said to some lines is said to them whatever lines follow. -/
theorem exists_output_handleAll_append (c : Console) (before later : List Bytes) :
    ∃ more, (c.handleAll (before ++ later)).output = (c.handleAll before).output ++ more := by
  induction before generalizing c with
  | nil => exact ⟨(c.handleAll later).output, rfl⟩
  | cons line before ih =>
    by_cases hrunning : (c.handle line).status = .running
    · obtain ⟨more, hmore⟩ := ih (c.handle line).console
      refine ⟨more, ?_⟩
      rw [List.cons_append, handleAll_cons_of_running hrunning, handleAll_cons_of_running hrunning]
      show (c.handle line).output ++ _ = (c.handle line).output ++ _ ++ more
      rw [hmore, List.append_assoc]
    · refine ⟨[], ?_⟩
      rw [List.cons_append, handleAll_cons_of_ended hrunning, handleAll_cons_of_ended hrunning,
        List.append_nil]

end Console

/-- Where a text ends with a line feed, its lines end there. -/
theorem linesOf_append {text : Bytes} (h : ∀ b ∈ text.getLast?, b = 0x0A) (rest : Bytes) :
    linesOf (text ++ rest) = linesOf text ++ linesOf rest := by
  have hcut : IsLineCut text (linesOf text) := isLineCut_iff.mpr rfl
  generalize linesOf text = lines at hcut
  induction hcut with
  | nil => rfl
  | @unfinished line hne hline =>
    -- the last byte would be a line feed
    have hlast : line.getLast hne = 0x0A := h _ (List.getLast?_eq_some_getLast hne)
    exact absurd (hlast ▸ List.getLast_mem hne) hline
  | @line line text lines hline _ ih =>
    have htext : ∀ b ∈ text.getLast?, b = 0x0A := by
      intro b hb
      refine h b ?_
      rw [List.getLast?_append, List.getLast?_cons, Option.mem_def.mp hb]
      rfl
    rw [List.append_assoc, List.cons_append, linesOf_append_lineFeed hline, ih htext]
    rfl

/-! ## Lines of text -/

/-- The text with which an outcome is told. -/
inductive Tells : Except Fault Float → String → Prop
  | result (x : Float) : Tells (.ok x) ("Result: " ++ numberText x)
  | failure (e : Error) : Tells (.error (.error e)) ("Error: " ++ e.message)

theorem Output.joined_singleton (colored : Bool) (o : Output) :
    joined colored [o] = o.text colored := by
  rw [joined, List.map_singleton, String.join_cons, String.join_nil, String.append_empty]

/-- However a line comes out, it is told in one line of text. -/
theorem exists_tells_run (env : Environment) (line : Bytes) :
    ∃ text, Tells (env.run line).1 text ∧ IsOneLine text ∧
      Output.joined false (Output.ofOutcome (env.run line).1) = text ++ "\n" := by
  have hcrash := env.run_ne_crash line
  cases hresult : (env.run line).1 with
  | ok x =>
    refine ⟨_, .result x, isOneLine_append.mpr ⟨by decide, isOneLine_result x⟩, ?_⟩
    exact Output.joined_singleton _ _
  | error f =>
    cases f with
    | crash => exact absurd hresult hcrash
    | error e =>
      have hmessage := Environment.isOneLine_of_run hresult
      refine ⟨_, .failure e, isOneLine_append.mpr ⟨by decide, hmessage⟩, ?_⟩
      exact Output.joined_singleton _ _

theorem exists_tells_outcomes {os : List (Bytes × Except Fault Float)}
    (h : ∀ o ∈ os, ∃ env : Environment, o.2 = (env.run o.1).1) :
    ∃ texts : List String, List.Forall₂ (fun o text => Tells o.2 text) os texts ∧
      (∀ text ∈ texts, IsOneLine text) ∧
      Output.joined false (os.flatMap fun o => Output.ofOutcome o.2) =
        String.join (texts.map (· ++ "\n")) := by
  induction os with
  | nil => exact ⟨[], .nil, List.forall_mem_nil _, rfl⟩
  | cons o os ih =>
    obtain ⟨⟨env, ho⟩, hos⟩ := List.forall_mem_cons.mp h
    obtain ⟨text, htells, hone, htext⟩ := exists_tells_run env o.1
    obtain ⟨texts, htells', hone', htexts⟩ := ih hos
    refine ⟨text :: texts, .cons (ho ▸ htells) htells', List.forall_mem_cons.mpr ⟨hone, hone'⟩, ?_⟩
    rw [List.flatMap_cons, Output.joined_append, htexts, ho, htext, List.map_cons, String.join_cons]

namespace Console

/-- **The output is framed in lines.**  With neither colors nor forms, and where no line asks for the
    listing, the output is made of as many lines of text as there are lines in the input, up to the
    first that asks to quit, that are neither blank nor commands; each of them tells how the line in
    the same place came out.  No message and no number has a line break in it, in whatever
    environment a line is run.  And the output for some whole lines is how the output for all of them
    begins. -/
theorem runLines_framing (s : Settings) (size : Int) (input : Source UInt8) (reason : String)
    (hlist : ∀ line ∈ linesOf input.remaining, Utf8.trim line ≠ Utf8.ofString ".vars") :
    let out := fun source => Output.joined false ((start s size false).runLines source reason).1.output
    let answered := ((linesOf input.remaining).takeWhile fun line => !decide (AsksToQuit line)).filter
      fun line => decide (IsOfLanguage line)
    let outcomes := s.outcomes (s.apply .empty) (linesOf input.remaining)
    outcomes.map (·.1) = answered ∧
    (∃ texts : List String, texts.length = answered.length ∧
      out input = String.join (texts.map (· ++ "\n")) ∧ (∀ text ∈ texts, IsOneLine text) ∧
      List.Forall₂ (fun o text => Tells o.2 text) outcomes texts) ∧
    (∀ (env : Environment) line e, (env.run line).1 = .error (.error e) → IsOneLine e.message) ∧
    (∀ x, IsOneLine (numberText x)) ∧
    (∀ text rest ending, input.remaining = text ++ rest → (∀ b ∈ text.getLast?, b = 0x0A) →
      ∃ more, out input = out ⟨text, ending⟩ ++ more) := by
  intro out answered outcomes
  have hstart := startedWith_start s size false
  have hout : ∀ source : Source UInt8, out source =
      Output.joined false ((start s size false).handleAll (linesOf source.remaining)).output := by
    intro source
    have hcut : IsLineCut source.remaining (linesOf source.remaining) := isLineCut_iff.mpr rfl
    show Output.joined false ((start s size false).runLines source reason).1.output = _
    rw [runLines_eq hcut (start s size false) source.ending reason]
  have hanswered : outcomes.map (·.1) = answered := s.map_fst_outcomes _ _
  refine ⟨hanswered, ?_, fun env line e => Environment.isOneLine_of_run, isOneLine_result, ?_⟩
  · have hrun : ∀ o ∈ outcomes, ∃ env : Environment, o.2 = (env.run o.1).1 :=
      fun o => Settings.exists_run_of_mem_outcomes
    obtain ⟨texts, htells, hone, htexts⟩ := exists_tells_outcomes hrun
    refine ⟨texts, ?_, ?_, hone, htells⟩
    · rw [← hanswered, List.length_map, htells.length_eq]
    · rw [hout, hstart.output_handleAll_eq hlist]
      exact htexts
  · intro text rest ending hinput hwhole
    obtain ⟨more, hmore⟩ := (start s size false).exists_output_handleAll_append (linesOf text)
      (linesOf rest)
    refine ⟨Output.joined false more, ?_⟩
    rw [hout, hout, hinput, linesOf_append hwhole, hmore, Output.joined_append]

/-- A sum of nothing, a blank line, a command, a sum with a name that means nothing, and then lines
    that are not looked at: these two lines of text come out. -/
theorem runLines_framing_of_two_lines :
    let text := Utf8.ofString "(+)\n\n.reset\n(+ y)\n.quit\n(+ 1)\n"
    let texts := ["Result: 0", "Error: Undefined constant 'y'"]
    (∀ line ∈ linesOf text, Utf8.trim line ≠ Utf8.ofString ".vars") ∧
    texts.length = 2 ∧ (∀ told ∈ texts, IsOneLine told) ∧
      Output.joined false ((start {} 1 false).runLines ⟨text, .finished⟩ "").1.output =
        String.join (texts.map (· ++ "\n")) := by
  intro text texts
  have hlist : ∀ line ∈ linesOf text, Utf8.trim line ≠ Utf8.ofString ".vars" := by decide
  obtain ⟨-, ⟨told, -, hout, hone, htells⟩, -⟩ :=
    runLines_framing {} 1 ⟨text, .finished⟩ "" hlist
  have houtcomes : Settings.outcomes {} (Settings.apply {} .empty) (linesOf text) =
      [(Utf8.ofString "(+)\n", .ok 0),
        (Utf8.ofString "(+ y)\n", .error (.error (.undefinedName "y")))] := by
    have hlines : linesOf text = [Utf8.ofString "(+)\n", Utf8.ofString "\n",
        Utf8.ofString ".reset\n", Utf8.ofString "(+ y)\n", Utf8.ofString ".quit\n",
        Utf8.ofString "(+ 1)\n"] := by decide
    have hempty : Settings.apply {} .empty = .empty := rfl
    have hreset : Command.ofLine (Utf8.trim (Utf8.ofString ".reset\n")) = .reset := by decide
    have hsum (env : Environment) : env.run (Utf8.ofString "(+)\n") = (.ok 0, env) := by cbv
    have hname : (Environment.empty.run (Utf8.ofString "(+ y)\n")).1 =
        .error (.error (.undefinedName "y")) := by cbv
    simp +decide [hlines, Settings.outcomes, Settings.envAfter, hempty, hreset, hsum, hname]
  rw [houtcomes] at htells
  have htold : told = texts := by
    cases htells with
    | cons hresult hrest =>
      cases hrest with
      | cons hfailure hrest =>
        cases hrest
        cases hresult
        cases hfailure
        rfl
  exact ⟨hlist, rfl, htold ▸ hone, htold ▸ hout⟩

end Console

end PrefixCalc
