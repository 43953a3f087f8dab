/-
  The three ways to give a console its lines come to the same.

  1. **Specification** — a text is cut after each line feed (`IsLineCut`), its lines are dealt with
     one after another (`Console.handleEach`, a fold), and nothing behind a line that asks to quit is
     looked at (`upToQuit`).

  2. **Programs** — `Console.runLines` reads a source line by line and never has the whole list of
     lines; `Console.handleAll` takes the lines of the command line; `Console.prompting` asks for
     each line and keeps a history.

  3. **The crux** — reading a source is going through its cut (`runLines_eq`), by induction on the
     cut with the console that the lines so far have led to.  A line and the same line with its line
     feed are dealt with alike (`handle_concat_lineFeed`), and an empty last line is not dealt with
     at all, which makes no difference: so lines put together with line feeds between them
     (`handleAll_intercalate`) come to what the list of them comes to.
-/
import PrefixCalc.Console.CommandLine
import PrefixCalc.Proofs.Console.Handling

namespace PrefixCalc

/-! ## The lines of a text -/

/-- The lines of a text, each with its line feed; the last one may lack it. -/
inductive IsLineCut : Bytes → List Bytes → Prop
  | nil : IsLineCut [] []
  | unfinished {line : Bytes} : line ≠ [] → 0x0A ∉ line → IsLineCut line [line]
  | line {line rest : Bytes} {lines : List Bytes} : 0x0A ∉ line → IsLineCut rest lines →
      IsLineCut (line ++ 0x0A :: rest) ((line ++ [0x0A]) :: lines)

/-- Cuts a text after each line feed. -/
def linesOf : Bytes → List Bytes
  | [] => []
  | b :: rest =>
    if b = 0x0A then [b] :: linesOf rest
    else
      match linesOf rest with
      | [] => [[b]]
      | line :: lines => (b :: line) :: lines

theorem linesOf_append_lineFeed {line : Bytes} (h : 0x0A ∉ line) (rest : Bytes) :
    linesOf (line ++ 0x0A :: rest) = (line ++ [0x0A]) :: linesOf rest := by
  induction line with
  | nil => rw [List.nil_append, linesOf, if_pos rfl, List.nil_append]
  | cons b line ih =>
    have hb : b ≠ 0x0A := fun heq => h (heq ▸ List.mem_cons_self)
    have hline : 0x0A ∉ line := fun hmem => h (List.mem_cons_of_mem b hmem)
    rw [List.cons_append, linesOf, if_neg hb, ih hline]
    rfl

theorem linesOf_of_notMem {line : Bytes} (hne : line ≠ []) (h : 0x0A ∉ line) :
    linesOf line = [line] := by
  induction line with
  | nil => exact absurd rfl hne
  | cons b line ih =>
    have hb : b ≠ 0x0A := fun heq => h (heq ▸ List.mem_cons_self)
    have hline : 0x0A ∉ line := fun hmem => h (List.mem_cons_of_mem b hmem)
    rw [linesOf, if_neg hb]
    cases line with
    | nil => rfl
    | cons b' line => rw [ih (List.cons_ne_nil b' line) hline]

/-- A text is cut into lines in exactly one way. -/
theorem isLineCut_iff {text : Bytes} {lines : List Bytes} :
    IsLineCut text lines ↔ linesOf text = lines := by
  constructor
  · intro h
    induction h with
    | nil => rfl
    | unfinished hne hline => exact linesOf_of_notMem hne hline
    | line hline _ ih => rw [linesOf_append_lineFeed hline, ih]
  · rintro rfl
    induction text with
    | nil => exact .nil
    | cons b rest ih =>
      rw [linesOf]
      by_cases hb : b = 0x0A
      · rw [if_pos hb, hb]
        exact IsLineCut.line List.not_mem_nil ih
      · -- the byte goes in front of the first line behind it
        have hfront {line : Bytes} (hline : 0x0A ∉ line) : 0x0A ∉ b :: line := by
          intro hmem
          rcases List.mem_cons.mp hmem with heq | hmem
          · exact hb heq.symm
          · exact hline hmem
        rw [if_neg hb]
        generalize linesOf rest = lines at ih
        cases ih with
        | nil => exact .unfinished (List.cons_ne_nil b []) (hfront List.not_mem_nil)
        | unfinished _ hline => exact .unfinished (List.cons_ne_nil b _) (hfront hline)
        | line hline hlines => exact IsLineCut.line (hfront hline) hlines

theorem bne_lineFeed_of_notMem {line : Bytes} (h : 0x0A ∉ line) : ∀ b ∈ line, (b != 0x0A) = true := by
  intro b hb
  rw [bne_iff_ne]
  rintro rfl
  exact h hb

/-- What comes before a line feed is taken up to there. -/
theorem takeWhile_append_lineFeed {line : Bytes} (h : 0x0A ∉ line) (rest : Bytes) :
    (line ++ 0x0A :: rest).takeWhile (· != 0x0A) = line := by
  rw [List.takeWhile_append_of_pos (bne_lineFeed_of_notMem h),
    List.takeWhile_cons_of_neg (by decide), List.append_nil]

theorem Source.readLine_append_lineFeed {line : Bytes} (h : 0x0A ∉ line) (rest : Bytes)
    (ending : SourceEnd) :
    Source.readLine ⟨line ++ 0x0A :: rest, ending⟩ = (line ++ [0x0A], .ok ⟨rest, ending⟩) := by
  have hdrop : (line ++ 0x0A :: rest).dropWhile (· != 0x0A) = 0x0A :: rest := by
    rw [List.dropWhile_append_of_pos (bne_lineFeed_of_notMem h),
      List.dropWhile_cons_of_neg (by decide)]
  simp only [readLine, hdrop, takeWhile_append_lineFeed h]

theorem Source.readLine_of_notMem {line : Bytes} (h : 0x0A ∉ line) (ending : SourceEnd) :
    Source.readLine ⟨line, ending⟩ = (line, .error ending) := by
  have hdrop : line.dropWhile (· != 0x0A) = [] :=
    List.dropWhile_eq_nil_iff.mpr (bne_lineFeed_of_notMem h)
  simp only [readLine, hdrop]

/-! ## Reading a source line by line -/

namespace Console

theorem runLines_of_error {c : Console} {input : Source UInt8} {line : Bytes} {ending : SourceEnd}
    (h : input.readLine = (line, .error ending)) (reason : String) :
    c.runLines input reason =
      let last : Transcript := if line.isEmpty then { console := c } else c.handle line
      (last, if last.status = .running ∧ ending = .broken then some ⟨reason⟩ else none) := by
  rw [runLines]
  split
  · next line' ending' hread =>
    rw [h] at hread
    injection hread with hline hending
    injection hending with hending
    subst hline hending
    dsimp only
    generalize (if line.isEmpty then ({ console := c } : Transcript) else c.handle line) = last
    cases last.status with
    | running => cases ending <;> rfl
    | quit => rfl
    | crashed => rfl
  · next hread =>
    rw [h] at hread
    injection hread with _ hnext
    cases hnext

theorem runLines_of_ok {c : Console} {input rest : Source UInt8} {line : Bytes}
    (h : input.readLine = (line, .ok rest)) (reason : String) :
    c.runLines input reason =
      if (c.handle line).status = .running then
        ((c.handle line).followedBy ((c.handle line).console.runLines rest reason).1,
          ((c.handle line).console.runLines rest reason).2)
      else (c.handle line, none) := by
  rw [runLines]
  split
  · next hread =>
    rw [h] at hread
    injection hread with _ hnext
    cases hnext
  · next line' rest' hread =>
    rw [h] at hread
    injection hread with hline hrest
    injection hrest with hrest
    subst hline hrest
    dsimp only
    cases (c.handle line).status with
    | running => rfl
    | quit => rfl
    | crashed => rfl

/-- Reading a source line by line is going through the cut of its text.  There is an error exactly if
    the console is still running when the source breaks off. -/
theorem runLines_eq {text : Bytes} {lines : List Bytes} (h : IsLineCut text lines) (c : Console)
    (ending : SourceEnd) (reason : String) :
    c.runLines ⟨text, ending⟩ reason =
      (c.handleAll lines,
        if (c.handleAll lines).status = .running ∧ ending = .broken then some ⟨reason⟩
        else none) := by
  induction h generalizing c with
  | nil => exact runLines_of_error (Source.readLine_of_notMem List.not_mem_nil ending) reason
  | @unfinished line hne hline =>
    have hlast : c.handleAll [line] = c.handle line := by
      by_cases hrunning : (c.handle line).status = .running
      · rw [handleAll_cons_of_running hrunning]
        simp only [handleAll, Transcript.followedBy, List.append_nil, ← hrunning]
      · exact handleAll_cons_of_ended hrunning []
    rw [runLines_of_error (Source.readLine_of_notMem hline ending), hlast,
      List.isEmpty_eq_false_iff.mpr hne, if_neg Bool.false_ne_true]
  | @line line rest lines hline _ ih =>
    rw [runLines_of_ok (Source.readLine_append_lineFeed hline rest ending)]
    by_cases hrunning : (c.handle (line ++ [0x0A])).status = .running
    · rw [if_pos hrunning, ih, handleAll_cons_of_running hrunning]
      rfl
    · rw [if_neg hrunning, handleAll_cons_of_ended hrunning, if_neg fun h => hrunning h.1]

/-! ## Dealing with lines as a fold -/

/-- Deals with one line more. -/
def handleNext (t : Transcript) (line : Bytes) : Transcript :=
  t.followedBy (t.console.handle line)

/-- Deals with lines one after another, whatever they ask for. -/
def handleEach (c : Console) (lines : List Bytes) : Transcript :=
  lines.foldl handleNext { console := c }

/-- Lines up to the first that asks to quit, with this one. -/
def upToQuit : List Bytes → List Bytes
  | [] => []
  | line :: lines => if AsksToQuit line then [line] else line :: upToQuit lines

theorem foldl_handleNext {s : Settings} {size : Int} {showTrees : Bool} {t : Transcript}
    (h : t.console.StartedWith s size showTrees) (hrunning : t.status = .running)
    (lines : List Bytes) :
    (upToQuit lines).foldl handleNext t = t.followedBy (t.console.handleAll lines) := by
  induction lines generalizing t with
  | nil =>
    simp only [upToQuit, List.foldl_nil, handleAll, Transcript.followedBy, List.append_nil,
      ← hrunning]
  | cons line lines ih =>
    have hstatus := h.status_handle line
    by_cases hquit : AsksToQuit line
    · rw [if_pos hquit] at hstatus
      rw [upToQuit, if_pos hquit, handleAll_cons_of_ended (by rw [hstatus]; decide)]
      rfl
    · rw [if_neg hquit] at hstatus
      have hnext := ih (t := handleNext t line) (h.handle line) hstatus
      rw [upToQuit, if_neg hquit, List.foldl_cons, hnext, handleAll_cons_of_running hstatus,
        handleNext, Transcript.followedBy_assoc]
      rfl

/-- Stopping at the first line that ends it is dealing with each line up to there. -/
theorem StartedWith.handleAll_eq {s : Settings} {size : Int} {showTrees : Bool} {c : Console}
    (h : c.StartedWith s size showTrees) (lines : List Bytes) :
    c.handleAll lines = c.handleEach (upToQuit lines) :=
  (foldl_handleNext (t := { console := c }) h rfl lines).symm

/-- The console is still running exactly if no line asked to quit. -/
theorem StartedWith.status_handleAll_iff {s : Settings} {size : Int} {showTrees : Bool}
    {c : Console} (h : c.StartedWith s size showTrees) (lines : List Bytes) :
    (c.handleAll lines).status = .running ↔ ∀ line ∈ lines, ¬ AsksToQuit line := by
  refine ⟨fun hrunning => ?_, h.status_handleAll⟩
  induction lines generalizing c with
  | nil => exact List.forall_mem_nil _
  | cons line lines ih =>
    have hstatus := h.status_handle line
    by_cases hquit : AsksToQuit line
    · rw [if_pos hquit] at hstatus
      rw [handleAll_cons_of_ended (by rw [hstatus]; decide), hstatus] at hrunning
      cases hrunning
    · rw [if_neg hquit] at hstatus
      rw [handleAll_cons_of_running hstatus] at hrunning
      exact List.forall_mem_cons.mpr ⟨hquit, ih (h.handle line) hrunning⟩

/-! ## Lines put together -/

theorem handle_concat_lineFeed (c : Console) (line : Bytes) :
    c.handle (line ++ [0x0A]) = c.handle line :=
  c.handle_congr (Utf8.trim_concat_lineFeed line)

theorem handleAll_cons_congr {c : Console} {line line' : Bytes} {lines lines' : List Bytes}
    (hline : c.handle line = c.handle line')
    (hlines : ∀ d : Console, d.handleAll lines = d.handleAll lines') :
    c.handleAll (line :: lines) = c.handleAll (line' :: lines') := by
  rw [handleAll, handleAll, hline, hlines]

/-- Lines without line feeds, put together with line feeds between them, are dealt with as they are
    in the list. -/
theorem exists_isLineCut_intercalate {lines : List Bytes} (h : ∀ line ∈ lines, 0x0A ∉ line) :
    ∃ cut, IsLineCut ([0x0A].intercalate lines) cut ∧
      ∀ c : Console, c.handleAll cut = c.handleAll lines := by
  induction lines with
  | nil => exact ⟨[], .nil, fun c => rfl⟩
  | cons line lines ih =>
    obtain ⟨hline, hlines⟩ := List.forall_mem_cons.mp h
    obtain ⟨cut, hcut, hall⟩ := ih hlines
    cases lines with
    | nil =>
      have hsingle : [0x0A].intercalate [line] = line := by simp [List.intercalate]
      rw [hsingle]
      by_cases hne : line = []
      · -- an empty last line is no line of the text, and a blank one is passed over
        subst hne
        exact ⟨[], .nil, fun c => rfl⟩
      · exact ⟨[line], .unfinished hne hline, fun c => rfl⟩
    | cons next rest =>
      have htext : [0x0A].intercalate (line :: next :: rest) =
          line ++ 0x0A :: [0x0A].intercalate (next :: rest) := by
        simp [List.intercalate]
      rw [htext]
      refine ⟨_, .line hline hcut, fun c => ?_⟩
      exact handleAll_cons_congr (c.handle_concat_lineFeed line) hall

theorem handleAll_intercalate {lines : List Bytes} (h : ∀ line ∈ lines, 0x0A ∉ line)
    (c : Console) (reason : String) :
    c.runLines ⟨[0x0A].intercalate lines, .finished⟩ reason = (c.handleAll lines, none) := by
  obtain ⟨cut, hcut, hall⟩ := exists_isLineCut_intercalate h
  rw [runLines_eq hcut, hall, if_neg fun h => by cases h.2]

/-! ## Lines at a prompt -/

end Console

/-- An entry that tells something about a line, and not that a line is awaited. -/
def Output.isEntry : Output → Bool
  | prompt _ => false
  | endOfInput => false
  | _ => true

namespace Console

/-- A line is answered with entries only. -/
theorem isEntry_of_mem_handle (c : Console) (line : Bytes) :
    ∀ o ∈ (c.handle line).output, o.isEntry = true := by
  have htree : ∀ line, ∀ o ∈ (c.tree line).output, o.isEntry = true := by
    intro line
    rw [tree]
    cases c.showTrees with
    | false => exact List.forall_mem_nil _
    | true =>
      dsimp only [if_true]
      cases (c.session.parse line).answer with
      | ok form => exact List.forall_mem_singleton.mpr rfl
      | error e => exact List.forall_mem_nil _
  rw [handle]
  cases Command.ofLine (Utf8.trim line) with
  | blank => exact List.forall_mem_nil _
  | quit => exact List.forall_mem_nil _
  | list => exact List.forall_mem_singleton.mpr rfl
  | reset => exact List.forall_mem_nil _
  | run =>
    have hshown := htree (Utf8.trim line)
    simp only [run]
    cases ((c.tree (Utf8.trim line)).console.session.run (Utf8.trim line)).answer with
    | ok x => exact List.forall_mem_append.mpr ⟨hshown, List.forall_mem_singleton.mpr rfl⟩
    | error f =>
      cases f with
      | error e => exact List.forall_mem_append.mpr ⟨hshown, List.forall_mem_singleton.mpr rfl⟩
      | crash => exact hshown

/-- At a prompt lines come to what they come to without one: only the prompts and the end of the
    input are told besides. -/
theorem prompting_spec (c : Console) (h : History) (ending : SourceEnd) (lines : List Bytes) :
    (c.prompting h ending lines).1.output.filter Output.isEntry = (c.handleAll lines).output ∧
      (c.prompting h ending lines).1.console = (c.handleAll lines).console ∧
      (c.prompting h ending lines).1.status = (c.handleAll lines).status := by
  induction lines generalizing c h with
  | nil =>
    cases ending with
    | finished => exact ⟨rfl, rfl, rfl⟩
    | broken => exact ⟨rfl, rfl, rfl⟩
  | cons line lines ih =>
    have hentries : (c.handle line).output.filter Output.isEntry = (c.handle line).output :=
      List.filter_eq_self.mpr (c.isEntry_of_mem_handle line)
    -- the history plays no part in what is printed
    simp only [prompting, enter]
    generalize (if Utf8.isAllBlank line then h else h.append line) = h'
    obtain ⟨houtput, hend⟩ := ih (c.handle line).console h'
    by_cases hrunning : (c.handle line).status = .running
    · rw [handleAll_cons_of_running hrunning, hrunning]
      refine ⟨?_, hend⟩
      show (.prompt c.settings.prompt :: (c.handle line).output ++
        ((c.handle line).console.prompting h' ending lines).1.output).filter Output.isEntry = _
      rw [List.filter_append, List.filter_cons_of_neg Bool.false_ne_true, hentries, houtput]
      rfl
    · rw [handleAll_cons_of_ended hrunning]
      cases hstatus : (c.handle line).status with
      | running => exact absurd hstatus hrunning
      | quit => exact ⟨hentries, rfl, rfl⟩
      | crashed => exact ⟨hentries, rfl, rfl⟩

theorem runAtPrompt_spec {c : Console} (hprompt : c.settings.promptFault? = none)
    (lines : List Bytes) (stored : Stored) (unwritable : Option String) :
    (c.runAtPrompt lines stored unwritable).1.output.filter Output.isEntry =
        (c.handleAll lines).output ∧
      (c.runAtPrompt lines stored unwritable).1.console = (c.handleAll lines).console := by
  obtain ⟨houtput, hconsole, -⟩ :=
    c.prompting_spec (c.settings.openHistory stored).1 .finished lines
  simp only [runAtPrompt, converse, hprompt]
  exact ⟨houtput, hconsole⟩

end Console

/-- Lines on the command line come to what they come to as input. -/
theorem Options.run_eq_run_input {o : Options} (hne : o.lines ≠ [])
    (hlines : ∀ line ∈ o.lines, 0x0A ∉ Utf8.ofString line) (look : String → Stored)
    (input : Source UInt8) (reason : String) (toTerminal : Bool) :
    o.run look input reason toTerminal =
      Options.run { o with lines := [] } look
        ⟨[0x0A].intercalate (o.lines.map Utf8.ofString), .finished⟩ reason toTerminal := by
  have hbytes : ∀ line ∈ o.lines.map Utf8.ofString, 0x0A ∉ line := by
    intro line hline
    obtain ⟨text, htext, rfl⟩ := List.mem_map.mp hline
    exact hlines text htext
  have hsettings : ({ o with lines := [] } : Options).settings look = o.settings look := rfl
  rw [run, run, hsettings]
  cases o.settings look with
  | error e => rfl
  | ok s =>
    have hloop := Console.handleAll_intercalate hbytes (o.console s) reason
    have hconsole : ({ o with lines := [] } : Options).console s = o.console s := rfl
    simp only [hconsole, List.isEmpty_eq_false_iff.mpr hne, List.isEmpty_nil, if_true, hloop,
      Bool.false_eq_true, if_false]
    rfl

namespace Console

/-- **The line loops agree.**  A source is cut after its line feeds, and what reading it comes to is
    what dealing with the lines of the cut comes to, one after another, up to the first that asks to
    quit.  It fails exactly if the source breaks off and no line asked to quit; the lines are then
    those of the text that came before, as if it had ended there.  For lines without line feeds it
    makes no difference whether they come in one text, in a list from the command line, or from a
    prompt whose prompts and end of input are not counted. -/
theorem runLines_eq_handleEach (s : Settings) (size : Int) (showTrees : Bool) (reason : String) :
    (∀ text, ∃ cut, IsLineCut text cut ∧ ∀ ending,
      ((start s size showTrees).runLines ⟨text, ending⟩ reason).1 =
        (start s size showTrees).handleEach (upToQuit cut) ∧
      ((start s size showTrees).runLines ⟨text, ending⟩ reason).2.map ReadError.message =
        if ending = .broken ∧ ∀ line ∈ cut, ¬ AsksToQuit line then
          some ("reading input: " ++ reason)
        else none) ∧
    (∀ lines : List Bytes, (∀ line ∈ lines, 0x0A ∉ line) →
      let t := ((start s size showTrees).runLines ⟨[0x0A].intercalate lines, .finished⟩ reason).1
      (start s size showTrees).handleAll lines = t ∧
      ∀ stored unwritable, s.promptFault? = none →
        let u := ((start s size showTrees).runAtPrompt lines stored unwritable).1
        u.output.filter Output.isEntry = t.output ∧ u.console = t.console) ∧
    (∀ (o : Options) look input toTerminal, o.lines ≠ [] →
      (∀ line ∈ o.lines, 0x0A ∉ Utf8.ofString line) →
      o.run look input reason toTerminal =
        Options.run { o with lines := [] } look
          ⟨[0x0A].intercalate (o.lines.map Utf8.ofString), .finished⟩ reason toTerminal) := by
  have hstart := startedWith_start s size showTrees
  refine ⟨?_, ?_, ?_⟩
  · intro text
    refine ⟨linesOf text, isLineCut_iff.mpr rfl, fun ending => ?_⟩
    have hcut : IsLineCut text (linesOf text) := isLineCut_iff.mpr rfl
    rw [runLines_eq hcut]
    constructor
    · exact hstart.handleAll_eq (linesOf text)
    · simp only [hstart.status_handleAll_iff, and_comm]
      split
      · rfl
      · rfl
  · intro lines hlines t
    have ht : t = (start s size showTrees).handleAll lines :=
      congrArg Prod.fst (handleAll_intercalate hlines (start s size showTrees) reason)
    refine ⟨ht.symm, fun stored unwritable hprompt => ?_⟩
    rw [ht]
    exact runAtPrompt_spec hprompt lines stored unwritable
  · intro o look input toTerminal hne hlines
    exact Options.run_eq_run_input hne hlines look input reason toTerminal

/-- Three lines of which the second one, with a space behind it, asks to quit. -/
theorem handleAll_eq_runLines_quit :
    (start {} 1 false).handleAll
        [Utf8.ofString "(+ 1 1)", Utf8.ofString ".quit ", Utf8.ofString "(+ 2 2)"] =
      ((start {} 1 false).runLines ⟨[0x0A].intercalate
        [Utf8.ofString "(+ 1 1)", Utf8.ofString ".quit ", Utf8.ofString "(+ 2 2)"], .finished⟩
        "").1 :=
  ((runLines_eq_handleEach {} 1 false "").2.1
    [Utf8.ofString "(+ 1 1)", Utf8.ofString ".quit ", Utf8.ofString "(+ 2 2)"] (by decide)).1

end Console

end PrefixCalc
