/-
  What one line does to a console, and what every line leaves as it is.

  1. **What a line asks for** — decided by the line without the white space around it, so lines that
     differ in nothing else are dealt with alike (`handle_congr`).

  2. **A line of the language** — a console that shows forms reads such a line twice, once to show it
     and once to run it.  The second reading finds or makes what the first one left
     (`Session.parse_parse`), so running the line comes to the same with and without the showing
     (`run_spec`).

  3. **Step and run** — `Console.StartedWith` is what a console keeps from its start: its settings,
     whether it shows forms, the room for lines, and that the lines it holds are held with their
     forms.  Each line keeps it, and under it no line crashes: the console goes on unless the line
     asks to quit (`StartedWith.status_handle`).  By induction the same holds of any list of lines.
-/
import PrefixCalc.Console.Basic
import PrefixCalc.Proofs.Session.Recency
import PrefixCalc.Proofs.Session.Safety

namespace PrefixCalc

/-! ## What a line asks for -/

/-- The line asks to quit. -/
def AsksToQuit (line : Bytes) : Prop :=
  Utf8.trim line = Utf8.ofString ".quit" ∨ Utf8.trim line = Utf8.ofString ".exit"

instance (line : Bytes) : Decidable (AsksToQuit line) := inferInstanceAs (Decidable (_ ∨ _))

theorem Command.ofLine_eq_quit_iff {line : Bytes} :
    Command.ofLine (Utf8.trim line) = .quit ↔ AsksToQuit line := by
  constructor
  · intro h
    rw [ofLine] at h
    split at h
    · cases h
    · split at h
      · next hquit => exact hquit
      · split at h
        · cases h
        · split at h <;> cases h
  · intro h
    rcases h with h | h
    · rw [h]; decide
    · rw [h]; decide

theorem Command.ofLine_eq_reset {line : Bytes} (h : Utf8.trim line = Utf8.ofString ".reset") :
    Command.ofLine (Utf8.trim line) = .reset := by
  rw [h]
  decide

/-! ## Reading a line twice -/

/-- A line that is already the most recent one stays where it is. -/
theorem Cache.add_add (c : Cache) (line : Bytes) (form : Form) :
    (c.add line form).add line form = c.add line form := by
  obtain ⟨capacity, entries⟩ := c
  cases capacity with
  | zero => rfl
  | succ n =>
    have hothers : (((entries.filter fun entry => entry.1 != line).take n).filter
        fun entry => entry.1 != line) = (entries.filter fun entry => entry.1 != line).take n := by
      rw [List.filter_eq_self]
      intro entry hentry
      exact (List.mem_filter.mp (List.mem_of_mem_take hentry)).2
    simp only [add, others, List.take_succ_cons, bne_self_eq_false, Bool.false_eq_true,
      not_false_eq_true, List.filter_cons_of_neg, hothers, List.take_take, Nat.min_self]

namespace Session

theorem eq_of_env_of_cache {s t : Session} (henv : s.env = t.env) (hcache : s.cache = t.cache) :
    s = t := by
  obtain ⟨env, cache⟩ := s
  obtain ⟨env', cache'⟩ := t
  subst henv hcache
  rfl

/-- Reading a line a second time changes nothing. -/
theorem parse_parse {s : Session} (h : s.cache.Sound) (line : Bytes) :
    ((s.parse line).session.parse line).session = (s.parse line).session := by
  obtain ⟨-, -, hsound⟩ := parse_spec h line
  obtain ⟨-, henv, -⟩ := parse_spec hsound line
  refine eq_of_env_of_cache henv ?_
  rcases cache_parse hsound line with ⟨form, hform, hagain⟩ | ⟨e, he, hagain⟩
  · rcases cache_parse h line with ⟨form', hform', hfirst⟩ | ⟨e', he', -⟩
    · have hsame : form' = form := Except.ok.inj (hform'.symm.trans hform)
      subst hsame
      rw [hagain, hfirst, Cache.add_add]
    · rw [hform] at he'
      cases he'
  · exact hagain

/-- Running a line that has just been read is running it. -/
theorem run_parse {s : Session} (h : s.cache.Sound) (line : Bytes) :
    ((s.parse line).session.run line).answer = (s.run line).answer ∧
      ((s.parse line).session.run line).session = (s.run line).session := by
  obtain ⟨hanswer, -, hsound⟩ := parse_spec h line
  obtain ⟨hagain, -, -⟩ := parse_spec hsound line
  simp only [run, hagain, hanswer, parse_parse h line]
  cases Form.ofLine line with
  | error e => exact ⟨rfl, rfl⟩
  | ok form => exact ⟨rfl, rfl⟩

theorem capacity_run (s : Session) (line : Bytes) :
    (s.run line).session.cache.capacity = s.cache.capacity := by
  rw [cache_run]
  rcases parse_cases s line with ⟨form, -, -, hsession⟩ | ⟨-, form, -, -, hsession⟩ |
    ⟨-, e, -, -, hsession⟩
  · rw [hsession, Cache.capacity_add]
  · rw [hsession, Cache.capacity_add]
  · rw [hsession]

end Session

/-! ## A line of the language -/

/-- The entry that shows the form of a line, if the line has one. -/
def Output.ofForm (line : Bytes) : List Output :=
  match Form.ofLine line with
  | .ok form => [.tree form]
  | .error _ => []

/-- The entry that tells how running a line came out. -/
def Output.ofOutcome : Except Fault Float → List Output
  | .ok x => [.result x]
  | .error (.error e) => [.failure e]
  | .error .crash => []

/-- White space around a line plays no part in running it. -/
theorem Environment.run_trim (env : Environment) (line : Bytes) :
    env.run (Utf8.trim line) = env.run line := by
  rw [run, run, ofLine_trim]

namespace Console

/-- Showing the form of a line, if that is asked for, does to the session what reading it does. -/
theorem tree_spec {c : Console} (h : c.session.cache.Sound) (line : Bytes) :
    (c.tree line).output = (if c.showTrees then Output.ofForm line else []) ∧
      (c.tree line).console.session =
        (if c.showTrees then (c.session.parse line).session else c.session) := by
  obtain ⟨hanswer, -, -⟩ := Session.parse_spec h line
  rw [tree]
  cases c.showTrees with
  | false => exact ⟨rfl, rfl⟩
  | true =>
    simp only [if_true, hanswer, and_true]
    rfl

/-- Running a line of the language shows its form, if that is asked for, and tells the outcome; the
    session is then the one that running the line leaves, whether the form was shown or not. -/
theorem run_spec {c : Console} (h : c.session.cache.Sound) (line : Bytes) :
    (c.run line).output =
      (if c.showTrees then Output.ofForm line else []) ++
        Output.ofOutcome (c.session.env.run line).1 ∧
    (c.run line).console = { c with session := (c.session.run line).session } ∧
    (c.run line).status = .running := by
  obtain ⟨htree, hsession⟩ := tree_spec h line
  have hran : ((c.tree line).console.session.run line).answer = (c.session.run line).answer ∧
      ((c.tree line).console.session.run line).session = (c.session.run line).session := by
    rw [hsession]
    cases c.showTrees with
    | false => exact ⟨rfl, rfl⟩
    | true => exact Session.run_parse h line
  have hanswer := (Session.run_spec h line).1
  have hcrash := Environment.run_ne_crash c.session.env line
  simp only [run, hran.1, hran.2, htree, hanswer]
  cases hresult : (c.session.env.run line).1 with
  | ok x => exact ⟨rfl, rfl, rfl⟩
  | error f =>
    cases f with
    | error e => exact ⟨rfl, rfl, rfl⟩
    | crash => exact absurd hresult hcrash

/-! ## Any line -/

/-- Only what is between the white space around a line counts. -/
theorem handle_congr (c : Console) {line line' : Bytes} (h : Utf8.trim line = Utf8.trim line') :
    c.handle line = c.handle line' := by
  rw [handle, handle, h]

/-- A console that was started with these settings and has dealt with some lines. -/
structure StartedWith (s : Settings) (size : Int) (showTrees : Bool) (c : Console) : Prop where
  settings_eq : c.settings = s
  showTrees_eq : c.showTrees = showTrees
  capacity_eq : c.session.cache.capacity = size.toNat
  sound : c.session.cache.Sound

variable {s : Settings} {size : Int} {showTrees : Bool} {c : Console}

theorem startedWith_start (s : Settings) (size : Int) (showTrees : Bool) :
    (start s size showTrees).StartedWith s size showTrees :=
  ⟨rfl, rfl, rfl, Cache.sound_ofSize size⟩

/-- Starting over leads back to the start. -/
theorem StartedWith.restart_eq (h : c.StartedWith s size showTrees) :
    c.restart = start s size showTrees := by
  obtain ⟨⟨env, ⟨capacity, entries⟩⟩, settings, shown⟩ := c
  obtain ⟨rfl, rfl, hcapacity, -⟩ := h
  have hcapacity : capacity = size.toNat := hcapacity
  subst hcapacity
  rfl

theorem StartedWith.run (h : c.StartedWith s size showTrees) (line : Bytes) :
    (c.run line).console.StartedWith s size showTrees := by
  obtain ⟨-, hconsole, -⟩ := run_spec h.sound line
  rw [hconsole]
  refine ⟨h.settings_eq, h.showTrees_eq, ?_, (Session.run_spec h.sound line).2.2⟩
  show (c.session.run line).session.cache.capacity = size.toNat
  rw [Session.capacity_run]
  exact h.capacity_eq

/-- Whatever a line asks for, the console keeps what it has from its start. -/
theorem StartedWith.handle (h : c.StartedWith s size showTrees) (line : Bytes) :
    (c.handle line).console.StartedWith s size showTrees := by
  rw [Console.handle]
  cases Command.ofLine (Utf8.trim line) with
  | blank => exact h
  | quit => exact h
  | list => exact h
  | reset =>
    show c.restart.StartedWith s size showTrees
    rw [h.restart_eq]
    exact startedWith_start s size showTrees
  | run => exact h.run (Utf8.trim line)

/-- The console goes on, unless the line asks to quit. -/
theorem StartedWith.status_handle (h : c.StartedWith s size showTrees) (line : Bytes) :
    (c.handle line).status = if AsksToQuit line then .quit else .running := by
  by_cases hquit : AsksToQuit line
  · rw [if_pos hquit, Console.handle, Command.ofLine_eq_quit_iff.mpr hquit]
  · rw [if_neg hquit, Console.handle]
    cases hcommand : Command.ofLine (Utf8.trim line) with
    | blank => rfl
    | quit => exact absurd (Command.ofLine_eq_quit_iff.mp hcommand) hquit
    | list => rfl
    | reset => rfl
    | run => exact (run_spec h.sound (Utf8.trim line)).2.2

end Console

/-- The environment that a line leads to: starting over leads back to the settings, a line of the
    language to what running it makes of the environment, and everything else leaves it alone. -/
def Settings.envAfter (s : Settings) (env : Environment) (line : Bytes) : Environment :=
  match Command.ofLine (Utf8.trim line) with
  | .reset => s.apply .empty
  | .run => (env.run line).2
  | _ => env

namespace Console

variable {s : Settings} {size : Int} {showTrees : Bool} {c : Console}

theorem StartedWith.env_handle (h : c.StartedWith s size showTrees) (line : Bytes) :
    (c.handle line).console.session.env = s.envAfter c.session.env line := by
  rw [Console.handle, Settings.envAfter]
  cases Command.ofLine (Utf8.trim line) with
  | blank => rfl
  | quit => rfl
  | list => rfl
  | reset =>
    show c.restart.session.env = s.apply .empty
    rw [h.restart_eq]
    rfl
  | run =>
    show (c.run (Utf8.trim line)).console.session.env = (c.session.env.run line).2
    rw [(run_spec h.sound (Utf8.trim line)).2.1, ← Environment.run_trim c.session.env line]
    exact (Session.run_spec h.sound (Utf8.trim line)).2.1

/-! ## Lines one after another -/

theorem handleAll_cons_of_running {line : Bytes} (h : (c.handle line).status = .running)
    (lines : List Bytes) :
    c.handleAll (line :: lines) =
      (c.handle line).followedBy ((c.handle line).console.handleAll lines) := by
  rw [handleAll, h]

theorem handleAll_cons_of_ended {line : Bytes} (h : (c.handle line).status ≠ .running)
    (lines : List Bytes) : c.handleAll (line :: lines) = c.handle line := by
  simp only [handleAll]

theorem StartedWith.handleAll (h : c.StartedWith s size showTrees) (lines : List Bytes) :
    (c.handleAll lines).console.StartedWith s size showTrees := by
  induction lines generalizing c with
  | nil => exact h
  | cons line lines ih =>
    have hline := h.handle line
    by_cases hrunning : (c.handle line).status = .running
    · rw [handleAll_cons_of_running hrunning]
      exact ih hline
    · rw [handleAll_cons_of_ended hrunning]
      exact hline

/-- Where no line asks to quit, all of them are dealt with and the console goes on. -/
theorem StartedWith.status_handleAll (h : c.StartedWith s size showTrees) {lines : List Bytes}
    (hquit : ∀ line ∈ lines, ¬ AsksToQuit line) : (c.handleAll lines).status = .running := by
  induction lines generalizing c with
  | nil => rfl
  | cons line lines ih =>
    obtain ⟨hline, hlines⟩ := List.forall_mem_cons.mp hquit
    have hrunning : (c.handle line).status = .running := by
      rw [h.status_handle line, if_neg hline]
    rw [handleAll_cons_of_running hrunning]
    exact ih (h.handle line) hlines

end Console

theorem Output.joined_append (colored : Bool) (os os' : List Output) :
    joined colored (os ++ os') = joined colored os ++ joined colored os' := by
  rw [joined, List.map_append, String.join_append]
  rfl

theorem Note.shown_append (verbosity : Int) (notes notes' : List Note) :
    shown verbosity (notes ++ notes') = shown verbosity notes ++ shown verbosity notes' :=
  List.filter_append ..

namespace Transcript

theorem followedBy_assoc (t u v : Transcript) :
    (t.followedBy u).followedBy v = t.followedBy (u.followedBy v) := by
  simp only [followedBy, List.append_assoc]

/-- Nothing that was said before. -/
theorem nil_followedBy (c : Console) (t : Transcript) :
    ({ console := c } : Transcript).followedBy t = t := rfl

end Transcript

/-- If some lines leave the console running, further lines are dealt with where they left it. -/
theorem Console.handleAll_append {c : Console} {before : List Bytes}
    (h : (c.handleAll before).status = .running) (later : List Bytes) :
    c.handleAll (before ++ later) =
      (c.handleAll before).followedBy ((c.handleAll before).console.handleAll later) := by
  induction before generalizing c with
  | nil => rfl
  | cons line before ih =>
    by_cases hrunning : (c.handle line).status = .running
    · rw [handleAll_cons_of_running hrunning] at h ⊢
      rw [List.cons_append, handleAll_cons_of_running hrunning, ih h, Transcript.followedBy_assoc]
      rfl
    · rw [handleAll_cons_of_ended hrunning] at h
      exact absurd h hrunning

end PrefixCalc
