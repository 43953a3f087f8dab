/-
  A session answers as if it remembered no line.

  1. **Two runs** — `Session.trace` performs actions on a session with its cache, and lists what each
     action answers and the environment it leaves, as `Environment.trace` does without a cache.

  2. **The cache as a memory** — `Cache.memory` finds nothing but what was added last under a line
     (`Cache.findsLastAdded_memory`), and a session does with its cache what is done with a memory
     (`Session.trace_eq_trace_memory`).  So what holds of every memory holds of the cache.

  3. **The invariant** — `Cache.Sound`: every line that is held is trimmed, and its form is the one
     that parsing it gives.  One action keeps it (`Session.sound_act`), and by induction so does any
     list of actions (`Session.sound_after`).
-/
import Mathlib.Data.List.Induction
import PrefixCalc.Proofs.Session.Memory
import PrefixCalc.Session.Basic

namespace PrefixCalc

/-! ## Actions -/

/-- An action on a session: the answer, and the session after it. -/
def Session.act (s : Session) : Action → Answer × Session
  | .run line => (.value (s.run line).answer, (s.run line).session)
  | .parse line => (.form (s.parse line).answer, (s.parse line).session)
  | .reset => (.done, s.reset)
  | .setVariable name value => (.done, s.withEnv fun env => env.setVariable name value)
  | .setAlias name f => (.done, s.withEnv fun env => env.setAlias name f)
  | .clear => (.done, s.withEnv fun _ => .empty)

/-- The session after a list of actions. -/
def Session.after (s : Session) (actions : List Action) : Session :=
  actions.foldl (fun s action => (s.act action).2) s

/-- The answers of a list of actions, each with the environment after it. -/
def Session.trace (s : Session) : List Action → List (Answer × Environment)
  | [] => []
  | action :: rest => ((s.act action).1, (s.act action).2.env) :: (s.act action).2.trace rest

/-! ## The invariant -/

/-- Every line held is trimmed, and is held with the form that parsing gives. -/
def Cache.Sound (c : Cache) : Prop :=
  ∀ key form, (key, form) ∈ c.entries → Form.ofLine key = .ok form ∧ Utf8.trim key = key

namespace Cache

theorem sound_ofSize (size : Int) : (ofSize size).Sound := by
  intro key form h
  nomatch h

theorem sound_clear (c : Cache) : c.clear.Sound := by
  intro key form h
  nomatch h

/-- What is found under a key is held under it. -/
theorem mem_of_find? {c : Cache} {key : Bytes} {form : Form} (h : c.find? key = some form) :
    (key, form) ∈ c.entries := by
  obtain ⟨entry, hfound, hform⟩ := Option.map_eq_some_iff.mp h
  have hbeq : (entry.1 == key) = true :=
    List.find?_some (p := fun entry : Bytes × Form => entry.1 == key) hfound
  have hkey : entry.1 = key := eq_of_beq hbeq
  have hentry : entry = (key, form) := Prod.ext hkey hform
  exact hentry ▸ List.mem_of_find?_eq_some hfound

/-- What is held after a line has been added is the new entry, or was held under another line. -/
theorem mem_add {c : Cache} {line key : Bytes} {form form' : Form}
    (h : (key, form') ∈ (c.add line form).entries) :
    key = line ∧ form' = form ∨ key ≠ line ∧ (key, form') ∈ c.entries := by
  have hmem : (key, form') ∈ (line, form) :: c.others line := List.mem_of_mem_take h
  rcases List.mem_cons.mp hmem with heq | hother
  · exact Or.inl (Prod.ext_iff.mp heq)
  · obtain ⟨hheld, hne⟩ := List.mem_filter.mp hother
    exact Or.inr ⟨bne_iff_ne.mp hne, hheld⟩

theorem Sound.add {c : Cache} {key : Bytes} {form : Form} (h : c.Sound)
    (hparse : Form.ofLine key = .ok form) (htrim : Utf8.trim key = key) :
    (c.add key form).Sound := by
  intro key' form' hmem
  rcases mem_add hmem with ⟨rfl, rfl⟩ | ⟨-, hheld⟩
  · exact ⟨hparse, htrim⟩
  · exact h key' form' hheld

/-! ## The cache as a memory -/

/-- The cache of a session as a memory.  A line that is found becomes the most recent one. -/
abbrev memory (size : Int) : Memory where
  State := Cache
  new := ofSize size
  find? c line :=
    match c.find? line with
    | some form => (some form, c.add line form)
    | none => (none, c)
  add := add
  clear := clear

/-- Every line is held with the form that was added last under it. -/
theorem lastAdded?_of_mem {size : Int} {uses : List Memory.Use} {line : Bytes} {form : Form}
    (h : (line, form) ∈ Cache.entries ((memory size).after uses)) :
    Memory.lastAdded? uses line = some form := by
  induction uses using List.reverseRecOn generalizing line form with
  | nil => cases h
  | append_singleton uses use ih =>
    rw [Memory.after_concat] at h
    rw [Memory.lastAdded?_concat]
    cases use with
    | find other =>
      refine ih ?_
      simp only [Memory.use, memory] at h
      split at h
      · next found hfind =>
        -- the line that is found is added once more, with the form it had
        rcases mem_add h with ⟨rfl, rfl⟩ | ⟨-, hheld⟩
        · exact mem_of_find? hfind
        · exact hheld
      · exact h
    | add other form' =>
      rw [Memory.Use.added?]
      rcases mem_add h with ⟨rfl, rfl⟩ | ⟨hne, hheld⟩
      · exact if_pos rfl
      · rw [if_neg hne.symm]
        exact ih hheld
    | clear => cases h

theorem findsLastAdded_memory (size : Int) : (memory size).FindsLastAdded := by
  intro uses line form h
  have hfind : find? ((memory size).after uses) line = some form := by
    simp only [memory] at h
    split at h
    · next found hfound => exact hfound.trans h
    · cases h
  exact lastAdded?_of_mem (mem_of_find? hfind)

end Cache

/-! ## One line -/

namespace Session

/-- What parsing a line in a session can do: find it, parse and remember it, or reject it. -/
theorem parse_cases (s : Session) (line : Bytes) :
    (∃ form, s.cache.find? (Utf8.trim line) = some form ∧ (s.parse line).answer = .ok form ∧
      (s.parse line).session = { s with cache := s.cache.add (Utf8.trim line) form }) ∨
    (s.cache.find? (Utf8.trim line) = none ∧ ∃ form, Form.ofLine line = .ok form ∧
      (s.parse line).answer = .ok form ∧
      (s.parse line).session = { s with cache := s.cache.add (Utf8.trim line) form }) ∨
    (s.cache.find? (Utf8.trim line) = none ∧ ∃ e, Form.ofLine line = .error e ∧
      (s.parse line).answer = .error e ∧ (s.parse line).session = s) := by
  have hofLine : Form.ofLine line = Token.scan (Utf8.trim line) >>= Form.parse := rfl
  simp only [parse]
  cases hfind : s.cache.find? (Utf8.trim line) with
  | some form => exact Or.inl ⟨form, rfl, rfl, rfl⟩
  | none =>
    right
    cases hscan : Token.scan (Utf8.trim line) with
    | error e =>
      rw [hscan] at hofLine
      exact Or.inr ⟨rfl, e, hofLine, rfl, rfl⟩
    | ok tokens =>
      rw [hscan] at hofLine
      replace hofLine : Form.ofLine line = Form.parse tokens := hofLine
      dsimp only
      cases hparse : Form.parse tokens with
      | error e => exact Or.inr ⟨rfl, e, hofLine.trans hparse, rfl, rfl⟩
      | ok form => exact Or.inl ⟨rfl, form, hofLine.trans hparse, rfl, rfl⟩

/-- Looking a line up and parsing it come to the same form, and either way the cache stays sound. -/
theorem parse_spec {s : Session} (h : s.cache.Sound) (line : Bytes) :
    (s.parse line).answer = Form.ofLine line ∧ (s.parse line).session.env = s.env ∧
      (s.parse line).session.cache.Sound := by
  have htrim := Utf8.trim_trim line
  rcases parse_cases s line with ⟨form, hfind, hanswer, hsession⟩ |
    ⟨-, form, hparse, hanswer, hsession⟩ | ⟨-, e, hparse, hanswer, hsession⟩
  · -- a hit: the form is the one that was parsed when the line was added
    have hkey := (h _ form (Cache.mem_of_find? hfind)).1
    rw [hanswer, hsession, ← ofLine_trim, hkey]
    exact ⟨rfl, rfl, h.add hkey htrim⟩
  · have hkey : Form.ofLine (Utf8.trim line) = .ok form := by rw [ofLine_trim, hparse]
    rw [hanswer, hsession, hparse]
    exact ⟨rfl, rfl, h.add hkey htrim⟩
  · rw [hanswer, hsession, hparse]
    exact ⟨rfl, rfl, h⟩

theorem run_spec {s : Session} (h : s.cache.Sound) (line : Bytes) :
    (s.run line).answer = (s.env.run line).1 ∧ (s.run line).session.env = (s.env.run line).2 ∧
      (s.run line).session.cache.Sound := by
  obtain ⟨hanswer, henv, hsound⟩ := parse_spec h line
  simp only [run, Environment.run, hanswer]
  cases Form.ofLine line with
  | error e => exact ⟨rfl, henv, hsound⟩
  | ok form =>
    rw [← henv]
    exact ⟨rfl, rfl, hsound⟩

/-! ## Steps and runs -/

theorem env_parse (s : Session) (line : Bytes) : (s.parse line).session.env = s.env := by
  rcases parse_cases s line with ⟨form, -, -, hsession⟩ | ⟨-, form, -, -, hsession⟩ |
    ⟨-, e, -, -, hsession⟩
  · rw [hsession]
  · rw [hsession]
  · rw [hsession]

/-- Parsing a line does with the cache what parsing with a memory does. -/
theorem parse_memory (s : Session) (size : Int) (line : Bytes) :
    (Cache.memory size).parse s.cache line =
      ((s.parse line).answer, (s.parse line).session.cache) := by
  rw [Memory.parse]
  rcases parse_cases s line with ⟨form, hfind, hanswer, hsession⟩ |
    ⟨hfind, form, hparse, hanswer, hsession⟩ | ⟨hfind, e, hparse, hanswer, hsession⟩
  · simp only [Cache.memory, hfind, hanswer, hsession]
  · simp only [Cache.memory, hfind, hparse, hanswer, hsession]
  · simp only [Cache.memory, hfind, hparse, hanswer, hsession]

theorem run_memory (s : Session) (size : Int) (line : Bytes) :
    (Cache.memory size).run s.env s.cache line =
      ((s.run line).answer, (s.run line).session.env, (s.run line).session.cache) := by
  rw [Memory.run, parse_memory, run]
  have henv := s.env_parse line
  cases (s.parse line).answer with
  | ok form =>
    dsimp only [exec]
    rw [henv]
  | error e =>
    dsimp only
    rw [henv]

theorem act_memory (s : Session) (size : Int) (action : Action) :
    (Cache.memory size).act s.env s.cache action =
      ((s.act action).1, (s.act action).2.env, (s.act action).2.cache) := by
  cases action with
  | run line => rw [Memory.act, run_memory]; rfl
  | parse line =>
    rw [Memory.act, parse_memory, ← s.env_parse line]
    rfl
  | reset => rfl
  | setVariable name value => rfl
  | setAlias name f => rfl
  | clear => rfl

/-- A session is its environment with a memory. -/
theorem trace_eq_trace_memory (s : Session) (size : Int) (actions : List Action) :
    s.trace actions = (Cache.memory size).trace s.env s.cache actions := by
  induction actions generalizing s with
  | nil => rfl
  | cons action rest ih =>
    rw [Memory.trace, act_memory]
    show _ :: (s.act action).2.trace rest =
      _ :: (Cache.memory size).trace (s.act action).2.env (s.act action).2.cache rest
    rw [ih]

/-- One action keeps the cache sound. -/
theorem sound_act {s : Session} (h : s.cache.Sound) (action : Action) :
    (s.act action).2.cache.Sound := by
  cases action with
  | run line => exact (run_spec h line).2.2
  | parse line => exact (parse_spec h line).2.2
  | reset => exact Cache.sound_clear _
  | setVariable name value => exact h
  | setAlias name f => exact h
  | clear => exact h

theorem sound_after {s : Session} (h : s.cache.Sound) (actions : List Action) :
    (s.after actions).cache.Sound := by
  induction actions generalizing s with
  | nil => exact h
  | cons action rest ih => exact ih (sound_act h action)

theorem sound_after_new (size : Int) (actions : List Action) :
    ((new size).after actions).cache.Sound := by
  have hsound : (new size).cache.Sound := Cache.sound_ofSize size
  exact sound_after hsound actions

/-- **The cache cannot be noticed.**  For every size, every list of actions answers step by step as
    it does without a cache and leaves the same environments; and every line that is ever held is
    trimmed and has the form that parsing gives.  The first part holds of every memory that finds
    nothing but what was added last (`Memory.trace_new_eq`). -/
theorem trace_new_eq_trace_empty (size : Int) (actions : List Action) :
    (new size).trace actions = Environment.empty.trace actions ∧
      ∀ key form, (key, form) ∈ ((new size).after actions).cache.entries →
        Form.ofLine key = .ok form ∧ Utf8.trim key = key := by
  refine ⟨?_, sound_after_new size actions⟩
  rw [trace_eq_trace_memory _ size]
  exact Memory.trace_new_eq (Cache.findsLastAdded_memory size) actions

end Session

end PrefixCalc
