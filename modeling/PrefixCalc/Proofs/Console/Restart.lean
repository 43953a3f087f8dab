/-
  Starting over is a fresh start.

  Lines may have changed configured variables, hidden constants, and filled the cache.  A console
  keeps only four things from its start (`Console.StartedWith`), and starting over builds all the
  rest anew from these four: so nothing of the past is left, and from there on the console says what
  a new one says.
-/
import PrefixCalc.Proofs.Console.Handling

namespace PrefixCalc

namespace Console

/-- A line that asks to start over says nothing and leads back to the start. -/
theorem StartedWith.handle_reset {s : Settings} {size : Int} {showTrees : Bool} {c : Console}
    (h : c.StartedWith s size showTrees) {line : Bytes}
    (hline : Utf8.trim line = Utf8.ofString ".reset") :
    c.handle line = { console := start s size showTrees } := by
  rw [Console.handle, Command.ofLine_eq_reset hline]
  show ({ console := c.restart } : Transcript) = _
  rw [h.restart_eq]

/-- **Starting over is a fresh start.**  Whatever lines a console has dealt with, as long as none of
    them asked to quit, after a line that asks to start over its session is the one that a new
    console has: a new session of the same size to which the settings were applied.  All later lines
    then lead to what they lead to in a new console, and what is printed and logged, with colors or
    without and at any verbosity, is what was said before, followed by what a new console says. -/
theorem handleAll_reset (s : Settings) (size : Int) (showTrees : Bool) (before : List Bytes)
    (reset : Bytes) (hquit : ∀ line ∈ before, ¬ AsksToQuit line)
    (hreset : Utf8.trim reset = Utf8.ofString ".reset") :
    ((start s size showTrees).handleAll (before ++ [reset])).console.session =
      (Session.new size).withEnv s.apply ∧
    ∀ later : List Bytes,
      let past := (start s size showTrees).handleAll before
      let whole := (start s size showTrees).handleAll (before ++ reset :: later)
      let fresh := (start s size showTrees).handleAll later
      whole = past.followedBy fresh ∧
      whole.console = fresh.console ∧ whole.status = fresh.status ∧
      (∀ colored, Output.joined colored whole.output =
        Output.joined colored past.output ++ Output.joined colored fresh.output) ∧
      (∀ verbosity, Note.shown verbosity whole.notes =
        Note.shown verbosity past.notes ++ Note.shown verbosity fresh.notes) := by
  have hstart := startedWith_start s size showTrees
  have hrunning := hstart.status_handleAll hquit
  have hline := (hstart.handleAll before).handle_reset hreset
  have hwhole : ∀ later, (start s size showTrees).handleAll (before ++ reset :: later) =
      ((start s size showTrees).handleAll before).followedBy
        ((start s size showTrees).handleAll later) := by
    intro later
    have hgoes : (((start s size showTrees).handleAll before).console.handle reset).status =
        .running := by
      rw [hline]
    rw [handleAll_append hrunning, handleAll_cons_of_running hgoes, hline,
      Transcript.nil_followedBy]
  constructor
  · rw [hwhole []]
    rfl
  · intro later past whole fresh
    have hwhole : whole = past.followedBy fresh := hwhole later
    refine ⟨hwhole, ?_, ?_, ?_, ?_⟩
    · rw [hwhole]; rfl
    · rw [hwhole]; rfl
    · intro colored
      rw [hwhole]
      exact Output.joined_append colored past.output fresh.output
    · intro verbosity
      rw [hwhole]
      exact Note.shown_append verbosity past.notes fresh.notes

/-- A configured variable is overwritten and another one is made; both changes are gone. -/
theorem handleAll_reset_after_assignments :
    (∀ line ∈ [Utf8.ofString "(set base 3)\n", Utf8.ofString "(set pi 4)\n"],
      ¬ AsksToQuit line) ∧
    Utf8.trim (Utf8.ofString " .reset\r\n") = Utf8.ofString ".reset" ∧
    ((start { vars := NameTable.ofList [("base", 10)] } 2 true).handleAll
      ([Utf8.ofString "(set base 3)\n", Utf8.ofString "(set pi 4)\n"] ++
        [Utf8.ofString " .reset\r\n"])).console.session =
      (Session.new 2).withEnv (Settings.apply { vars := NameTable.ofList [("base", 10)] }) :=
  ⟨by decide, by decide, (handleAll_reset { vars := NameTable.ofList [("base", 10)] } 2 true
    [Utf8.ofString "(set base 3)\n", Utf8.ofString "(set pi 4)\n"]
    (Utf8.ofString " .reset\r\n") (by decide) (by decide)).1⟩

end Console

end PrefixCalc
