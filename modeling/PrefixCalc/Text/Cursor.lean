/-
  A reading head over a source of symbols, with unlimited pushback: what is pushed comes back
  before anything else is read, the last pushed first.  A source may be missing, may come to its
  end, or may fail; a head that can read no further only says so, and takes pushes all the same.

  `contents` is what a head has still to deliver.  The equations beside each operation say what it
  does to the contents, and they are all that later proofs need.
-/
namespace PrefixCalc

/-- Why a source delivers nothing more. -/
inductive SourceEnd
  | finished
  | broken
deriving Repr, DecidableEq

/-- A source: the symbols still to come, and how it ends after them. -/
structure Source (α : Type) where
  remaining : List α
  ending : SourceEnd := .finished
deriving Repr

namespace Source

variable {α : Type}

/-- Reads one symbol.  A source that has ended keeps ending the same way. -/
def read (s : Source α) : Except SourceEnd (α × Source α) :=
  match s.remaining with
  | a :: rest => .ok (a, { s with remaining := rest })
  | [] => .error s.ending

end Source

/-- A reading head with pushback. -/
structure Cursor (α : Type) where
  /-- Symbols given back, the next one first. -/
  pushed : List α := []
  /-- The source behind them, if there is one. -/
  source : Option (Source α) := none
deriving Repr

namespace Cursor

variable {α : Type}

/-- A head at the start of a list of symbols. -/
def ofList (l : List α) : Cursor α := { source := some { remaining := l } }

/-- Everything the head has still to deliver, in order. -/
def contents (c : Cursor α) : List α :=
  c.pushed ++ (match c.source with
    | some s => s.remaining
    | none => [])

/-- Takes the next symbol.  A failing source counts as exhausted. -/
def pop? (c : Cursor α) : Option (α × Cursor α) :=
  match c.pushed with
  | a :: rest => some (a, { c with pushed := rest })
  | [] =>
    match c.source with
    | none => none
    | some s =>
      match s.read with
      | .ok (a, s') => some (a, { c with source := some s' })
      | .error _ => none

/-- Gives a symbol back: it is the next one to be read. -/
def push (c : Cursor α) (a : α) : Cursor α := { c with pushed := a :: c.pushed }

/-- Looks at the next symbol: it is taken and given back, and so may come to lie in front of the
    source. -/
def peek (c : Cursor α) : Option α × Cursor α :=
  match c.pop? with
  | some (a, c') => (some a, c'.push a)
  | none => (none, c)

/-- The next symbol, left in place. -/
def peek? (c : Cursor α) : Option α := c.peek.1

/-- Nothing is left to read. -/
def isEmpty (c : Cursor α) : Bool := c.peek?.isNone

@[simp] theorem contents_ofList (l : List α) : (ofList l).contents = l := rfl

@[simp] theorem contents_push (c : Cursor α) (a : α) : (c.push a).contents = a :: c.contents := rfl

/-- An exhausted head has empty contents. -/
theorem contents_of_pop?_none {c : Cursor α} (h : c.pop? = none) : c.contents = [] := by
  rcases c with ⟨pushed, source⟩
  cases pushed with
  | cons a rest => simp [pop?] at h
  | nil =>
    cases source with
    | none => rfl
    | some s =>
      rcases s with ⟨remaining, ending⟩
      cases remaining with
      | nil => rfl
      | cons a rest => simp [pop?, Source.read] at h

/-- Taking a symbol takes the first one of the contents. -/
theorem contents_of_pop?_some {c c' : Cursor α} {a : α} (h : c.pop? = some (a, c')) :
    c.contents = a :: c'.contents := by
  rcases c with ⟨pushed, source⟩
  cases pushed with
  | cons b rest =>
    simp only [pop?, Option.some.injEq, Prod.mk.injEq] at h
    obtain ⟨rfl, rfl⟩ := h
    rfl
  | nil =>
    cases source with
    | none => simp [pop?] at h
    | some s =>
      rcases s with ⟨remaining, ending⟩
      cases remaining with
      | nil => simp [pop?, Source.read] at h
      | cons b rest =>
        simp only [pop?, Source.read, Option.some.injEq, Prod.mk.injEq] at h
        obtain ⟨rfl, rfl⟩ := h
        rfl

/-- A look at the next symbol shows the first one of the contents. -/
theorem peek_symbol (c : Cursor α) : c.peek.1 = c.contents.head? := by
  rw [peek]
  split
  · next a c' h => rw [contents_of_pop?_some h, List.head?_cons]
  · next h => rw [contents_of_pop?_none h, List.head?_nil]

/-- Wherever the symbol comes to lie, the contents stay. -/
theorem contents_peek (c : Cursor α) : c.peek.2.contents = c.contents := by
  rw [peek]
  split
  · next a c' h => rw [contents_of_pop?_some h, contents_push]
  · rfl

/-- Each symbol taken leaves fewer behind, which is why reading loops end. -/
theorem length_contents_lt_of_pop? {c c' : Cursor α} {a : α} (h : c.pop? = some (a, c')) :
    c'.contents.length < c.contents.length := by
  rw [contents_of_pop?_some h]
  exact Nat.lt_succ_self _

/-- Takes symbols up to the first one that satisfies `stop`, which stays in place, or to the end. -/
def takeUntil (stop : α → Bool) (c : Cursor α) : List α × Cursor α :=
  match _h : c.pop? with
  | none => ([], c)
  | some (a, c') =>
    if stop a then ([], c'.push a)
    else
      let r := takeUntil stop c'
      (a :: r.1, r.2)
termination_by c.contents.length
decreasing_by exact length_contents_lt_of_pop? _h

/-- `takeUntil` takes the longest part of the contents in which nothing satisfies `stop`. -/
theorem takeUntil_taken (stop : α → Bool) (c : Cursor α) :
    (c.takeUntil stop).1 = c.contents.takeWhile fun a => !stop a := by
  fun_induction takeUntil stop c with
  | case1 c h =>
    rw [contents_of_pop?_none h]
    rfl
  | case2 c a c' h hs =>
    rw [contents_of_pop?_some h, List.takeWhile_cons_of_neg (by simp [hs])]
  | case3 c a c' h hs r ih =>
    rw [contents_of_pop?_some h, List.takeWhile_cons_of_pos (by simp [hs]), ← ih]

/-- The rest stays, with the symbol that stopped it in front. -/
theorem contents_takeUntil (stop : α → Bool) (c : Cursor α) :
    (c.takeUntil stop).2.contents = c.contents.dropWhile fun a => !stop a := by
  fun_induction takeUntil stop c with
  | case1 c h =>
    rw [contents_of_pop?_none h]
    rfl
  | case2 c a c' h hs =>
    rw [contents_of_pop?_some h, List.dropWhile_cons_of_neg (by simp [hs]), contents_push]
  | case3 c a c' h hs r ih =>
    rw [contents_of_pop?_some h, List.dropWhile_cons_of_pos (by simp [hs]), ← ih]

/-- What `takeUntil` leaves behind is no longer than what it found. -/
theorem length_contents_takeUntil_le (stop : α → Bool) (c : Cursor α) :
    (c.takeUntil stop).2.contents.length ≤ c.contents.length := by
  rw [contents_takeUntil]
  exact (List.dropWhile_sublist _).length_le

/-! ## Requests -/

/-- What can be asked of a head. -/
inductive Request (α : Type)
  | pop
  | push (a : α)
  | peek
  | isEmpty
  | takeUntil (stop : α → Bool)

/-- What is answered to a request. -/
inductive Answer (α : Type)
  /-- The next symbol, if there is one. -/
  | symbol (a : Option α)
  | truth (b : Bool)
  | taken (l : List α)
  /-- There is nothing to answer. -/
  | done
deriving Repr, DecidableEq

/-- Serves a request. -/
def serve (c : Cursor α) : Request α → Answer α × Cursor α
  | .pop =>
    match c.pop? with
    | some (a, c') => (.symbol (some a), c')
    | none => (.symbol none, c)
  | .push a => (.done, c.push a)
  | .peek => (.symbol c.peek.1, c.peek.2)
  | .isEmpty => (.truth c.isEmpty, c.peek.2)
  | .takeUntil stop => (.taken (c.takeUntil stop).1, (c.takeUntil stop).2)

end Cursor

end PrefixCalc
