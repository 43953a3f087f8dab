/-
  What a session remembers: the lines used last.

  1. **Specification** — `acceptedLines` are the lines that were read since the last reset and that
     parse, whether or not evaluating them went well.  Of a line that was read more than once only
     the last time counts (`List.dedup` keeps the last of equal elements), and of the lines that
     remain as many as fit are held, counted from the end (`List.rtake`).

  2. **Program** — a cache never looks at the history.  It only moves a line to the recent end, and
     drops one line from the other end when there are too many.

  3. **The crux** (`rtake_filter_rtake`) — what has been dropped is not missed.  When a line moves,
     at most one place in front of it is filled from behind, so the `n` most recent of the other
     lines can be read off the `n + 1` most recent lines.  With it `Cache.Holds` is kept by every
     step, and so by every run.
-/
import Mathlib.Data.List.Dedup
import Mathlib.Data.List.DropRight
import PrefixCalc.Proofs.Session.Transparency

namespace PrefixCalc

/-! ## The lines read since the last reset -/

/-- The action makes the session forget. -/
def Action.isReset : Action → Bool
  | .reset => true
  | _ => false

/-- The line that an action reads, if it reads one. -/
def Action.line? : Action → Option Bytes
  | .run line => some line
  | .parse line => some line
  | _ => none

/-- The line that an action reads, without the white space around it, if it can be parsed. -/
def Action.acceptedLine? (action : Action) : Option Bytes :=
  action.line?.bind fun line =>
    match Form.ofLine line with
    | .ok _ => some (Utf8.trim line)
    | .error _ => none

/-- The accepted lines since the last reset, in order and with repetitions. -/
def acceptedLines (actions : List Action) : List Bytes :=
  (actions.rtakeWhile fun action => !action.isReset).filterMap Action.acceptedLine?

theorem acceptedLines_concat_reset (actions : List Action) :
    acceptedLines (actions ++ [.reset]) = [] := by
  rw [acceptedLines, List.rtakeWhile_concat_neg _ _ _ (by simp [Action.isReset])]
  rfl

theorem acceptedLines_concat {action : Action} (h : action.isReset = false)
    (actions : List Action) :
    acceptedLines (actions ++ [action]) = acceptedLines actions ++ action.acceptedLine?.toList := by
  rw [acceptedLines, List.rtakeWhile_concat_pos _ _ _ (by simp [h]), List.filterMap_append]
  cases haccepted : action.acceptedLine? with
  | none => rw [List.filterMap_cons_none haccepted]; rfl
  | some line => rw [List.filterMap_cons_some haccepted]; rfl

/-! ## Moving a line to the end -/

section Recency

variable {α : Type} [BEq α] [LawfulBEq α] [DecidableEq α]

/-- Once more at the end, an element has its last place there. -/
theorem dedup_concat (l : List α) (a : α) :
    (l ++ [a]).dedup = (l.dedup.filter fun b => b != a) ++ [a] := by
  induction l with
  | nil => rfl
  | cons b l ih =>
    rw [List.cons_append]
    by_cases hmem : b ∈ l
    · rw [List.dedup_cons_of_mem (List.mem_append_left _ hmem), List.dedup_cons_of_mem hmem, ih]
    · rw [List.dedup_cons_of_notMem hmem]
      by_cases hba : b = a
      · have hmem' : b ∈ l ++ [a] := by simp [hba]
        rw [List.dedup_cons_of_mem hmem', ih, List.filter_cons_of_neg (by simp [hba])]
      · have hmem' : b ∉ l ++ [a] := by simp [hmem, hba]
        rw [List.dedup_cons_of_notMem hmem', ih, List.filter_cons_of_pos (by simp [hba]),
          List.cons_append]

/-- The first `n` elements other than `a` are among the first `n + 1` elements. -/
theorem take_filter_take (a : α) {l : List α} (h : l.Nodup) (n : Nat) :
    ((l.take (n + 1)).filter fun b => b != a).take n = (l.filter fun b => b != a).take n := by
  induction l generalizing n with
  | nil => simp
  | cons b l ih =>
    obtain ⟨hb, hl⟩ := List.nodup_cons.mp h
    rw [List.take_succ_cons]
    by_cases hba : b = a
    · -- `a` stands here, and nowhere behind
      have hkeep : ∀ c ∈ l, (c != a) = true := by
        intro c hc
        have hca : c ≠ a := fun e => hb (hba ▸ e ▸ hc)
        simp [hca]
      have hkeep' : ∀ c ∈ l.take n, (c != a) = true := fun c hc => hkeep c (List.mem_of_mem_take hc)
      rw [List.filter_cons_of_neg (by simp [hba]), List.filter_cons_of_neg (by simp [hba]),
        List.filter_eq_self.mpr hkeep, List.filter_eq_self.mpr hkeep', List.take_take, Nat.min_self]
    · rw [List.filter_cons_of_pos (by simp [hba]), List.filter_cons_of_pos (by simp [hba])]
      cases n with
      | zero => rfl
      | succ n => rw [List.take_succ_cons, List.take_succ_cons, ih hl]

/-- The last `n` elements other than `a` are among the last `n + 1` elements. -/
theorem rtake_filter_rtake (a : α) {l : List α} (h : l.Nodup) (n : Nat) :
    ((l.rtake (n + 1)).filter fun b => b != a).rtake n = (l.filter fun b => b != a).rtake n := by
  have hfront := take_filter_take a (List.nodup_reverse.mpr h) n
  simp only [List.rtake_eq_reverse_take_reverse, ← List.filter_reverse, List.reverse_reverse]
  rw [hfront]

end Recency

/-! ## One line in the cache -/

namespace Cache

theorem length_lines (c : Cache) : c.lines.length = c.size := by
  rw [lines, List.length_reverse, List.length_map, size]

/-- A line that is added stands last, and what is too much is missing from the front. -/
theorem lines_add (c : Cache) (line : Bytes) (form : Form) :
    (c.add line form).lines =
      ((c.lines.filter fun other => other != line) ++ [line]).rtake c.capacity := by
  have hothers : (c.others line).map (·.1) =
      (c.entries.map (·.1)).filter fun other => other != line := by
    rw [List.filter_map]
    rfl
  rw [lines, lines, add, List.map_take, List.map_cons, hothers, List.rtake_eq_reverse_take_reverse,
    List.reverse_append, ← List.filter_reverse, List.reverse_reverse]
  rfl

/-- A cache for `n` lines that holds the last lines of a history, each in the place where it stands
    last. -/
structure Holds (c : Cache) (n : Nat) (history : List Bytes) : Prop where
  capacity_eq : c.capacity = n
  lines_eq : c.lines = history.dedup.rtake n

theorem holds_ofSize (size : Int) : (ofSize size).Holds size.toNat [] := by
  refine ⟨rfl, ?_⟩
  rw [List.dedup_nil, List.rtake_nil]
  rfl

theorem Holds.clear {c : Cache} {n : Nat} {history : List Bytes} (h : c.Holds n history) :
    c.clear.Holds n [] := by
  refine ⟨c.capacity_clear.trans h.capacity_eq, ?_⟩
  rw [List.dedup_nil, List.rtake_nil]
  rfl

/-- Adding a line adds it to the history. -/
theorem Holds.add {c : Cache} {n : Nat} {history : List Bytes} (h : c.Holds n history)
    (line : Bytes) (form : Form) : (c.add line form).Holds n (history ++ [line]) := by
  refine ⟨(c.capacity_add line form).trans h.capacity_eq, ?_⟩
  rw [lines_add, h.capacity_eq, h.lines_eq, dedup_concat]
  cases n with
  | zero => rw [List.rtake_zero, List.rtake_zero]
  | succ n =>
    rw [List.rtake_concat_succ, List.rtake_concat_succ,
      rtake_filter_rtake line (List.nodup_dedup history)]

end Cache

/-! ## Steps and runs -/

namespace Session

/-- A line that is accepted is added to the cache, and any other leaves it as it is. -/
theorem cache_parse {s : Session} (h : s.cache.Sound) (line : Bytes) :
    (∃ form, Form.ofLine line = .ok form ∧
      (s.parse line).session.cache = s.cache.add (Utf8.trim line) form) ∨
    (∃ e, Form.ofLine line = .error e ∧ (s.parse line).session.cache = s.cache) := by
  rcases parse_cases s line with ⟨form, hfind, -, hsession⟩ | ⟨-, form, hparse, -, hsession⟩ |
    ⟨-, e, hparse, -, hsession⟩
  · -- a line that is found was accepted when it was added
    have hparse := (h _ form (Cache.mem_of_find? hfind)).1
    rw [ofLine_trim] at hparse
    exact Or.inl ⟨form, hparse, by rw [hsession]⟩
  · exact Or.inl ⟨form, hparse, by rw [hsession]⟩
  · exact Or.inr ⟨e, hparse, by rw [hsession]⟩

/-- Evaluating a form does not touch the cache. -/
theorem cache_run (s : Session) (line : Bytes) :
    (s.run line).session.cache = (s.parse line).session.cache := by
  rw [run]
  cases (s.parse line).answer with
  | error e => rfl
  | ok form => rfl

/-- Running a line and parsing it do the same to the cache. -/
theorem cache_act_of_line? {action : Action} {line : Bytes} (h : action.line? = some line)
    (s : Session) : (s.act action).2.cache = (s.parse line).session.cache := by
  cases action with
  | run line' =>
    obtain rfl := Option.some.inj h
    exact cache_run s line'
  | parse line' =>
    obtain rfl := Option.some.inj h
    rfl
  | reset => nomatch h
  | setVariable _ _ => nomatch h
  | setAlias _ _ => nomatch h
  | clear => nomatch h

/-- What an action that is no reset does to the cache: it adds the line that it accepts. -/
theorem cache_act {s : Session} (h : s.cache.Sound) {action : Action}
    (hreset : action.isReset = false) :
    (∃ line form, action.acceptedLine? = some line ∧
      (s.act action).2.cache = s.cache.add line form) ∨
    (action.acceptedLine? = none ∧ (s.act action).2.cache = s.cache) := by
  cases hline : action.line? with
  | none =>
    right
    refine ⟨by rw [Action.acceptedLine?, hline]; rfl, ?_⟩
    cases action with
    | run _ => nomatch hline
    | parse _ => nomatch hline
    | reset => nomatch hreset
    | setVariable _ _ => rfl
    | setAlias _ _ => rfl
    | clear => rfl
  | some line =>
    rw [cache_act_of_line? hline, Action.acceptedLine?, hline, Option.bind_some]
    rcases cache_parse h line with ⟨form, hparse, hcache⟩ | ⟨e, hparse, hcache⟩
    · left
      exact ⟨Utf8.trim line, form, by rw [hparse], hcache⟩
    · right
      exact ⟨by rw [hparse], hcache⟩

theorem after_concat (s : Session) (actions : List Action) (action : Action) :
    s.after (actions ++ [action]) = ((s.after actions).act action).2 := by
  rw [after, List.foldl_append]
  rfl

/-- After any actions the cache holds the lines accepted since the last reset. -/
theorem holds_after_new (size : Int) (actions : List Action) :
    ((new size).after actions).cache.Holds size.toNat (acceptedLines actions) := by
  induction actions using List.reverseRecOn with
  | nil => exact Cache.holds_ofSize size
  | append_singleton actions action ih =>
    rw [after_concat]
    cases hreset : action.isReset with
    | true =>
      cases action with
      | reset =>
        rw [acceptedLines_concat_reset]
        exact ih.clear
      | _ => nomatch hreset
    | false =>
      rw [acceptedLines_concat hreset]
      rcases cache_act (sound_after_new size actions) hreset with
        ⟨line, form, haccepted, hcache⟩ | ⟨haccepted, hcache⟩
      · rw [haccepted, hcache]
        exact ih.add line form
      · rw [haccepted, hcache, Option.toList_none, List.append_nil]
        exact ih

/-- **The cache holds the last distinct accepted lines.**  After any actions the lines held, the
    least recently used first, are the last ones among the distinct lines accepted since the last
    reset, each in the place where it was read last; as many as the size allows, and none twice.
    Actions on the environment and rejected lines leave the cache alone, and a cache whose size is
    not positive never holds anything. -/
theorem lines_after_new (size : Int) (actions : List Action) :
    ((new size).after actions).cache.lines = (acceptedLines actions).dedup.rtake size.toNat ∧
    ((new size).after actions).cache.lines.Nodup ∧
    ((new size).after actions).cache.size = min size.toNat (acceptedLines actions).dedup.length ∧
    (∀ action, action.isReset = false → action.acceptedLine? = none →
      (((new size).after actions).act action).2.cache = ((new size).after actions).cache) ∧
    (size ≤ 0 → ((new size).after actions).cache.entries = []) := by
  have hlines := (holds_after_new size actions).lines_eq
  have hsize : ((new size).after actions).cache.size =
      min size.toNat (acceptedLines actions).dedup.length := by
    rw [← Cache.length_lines, hlines, List.rtake, List.length_drop]
    omega
  refine ⟨hlines, ?_, hsize, ?_, ?_⟩
  · rw [hlines]
    exact (List.nodup_dedup _).sublist (List.drop_sublist _ _)
  · intro action hreset hnone
    rcases cache_act (sound_after_new size actions) hreset with
      ⟨line, form, haccepted, -⟩ | ⟨-, hcache⟩
    · rw [hnone] at haccepted
      nomatch haccepted
    · exact hcache
  · intro hle
    rw [Int.toNat_of_nonpos hle, Nat.zero_min] at hsize
    exact List.length_eq_zero_iff.mp hsize

end Session

end PrefixCalc
