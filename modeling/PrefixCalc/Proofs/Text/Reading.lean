/-
  A reading head is a list of symbols.

  1. **Specification** — `Request.onList`: what a list answers to a request, and what is left of it.

  2. **Program** — `Cursor.serve`, on a head with its symbols given back and its source behind them.
     Looking at a symbol and stopping at one move it from the source to the symbols given back, so
     that heads with the same contents need not be the same.

  3. **Agreement** (`serve_eq_onList`) — one request at a time, through the contents: the list gives
     the same answer and is left as the contents of the head.  Hence so it is after any number of
     requests (`Request.map_trace`), whatever the source is and however it ends.
-/
import Mathlib.Data.List.TakeWhile
import PrefixCalc.Text.Cursor

namespace PrefixCalc.Cursor

variable {α : Type}

namespace Request

/-- What a list of symbols answers, and what is left of it. -/
def onList (l : List α) : Request α → Answer α × List α
  | pop => (.symbol l.head?, l.tail)
  | push a => (.done, a :: l)
  | peek => (.symbol l.head?, l)
  | isEmpty => (.truth l.isEmpty, l)
  | takeUntil stop => (.taken (l.takeWhile fun a => !stop a), l.dropWhile fun a => !stop a)

/-- The answers to requests that are served one after another, each with the state after it. -/
def trace {σ : Type} (serve : σ → Request α → Answer α × σ) (s : σ) :
    List (Request α) → List (Answer α × σ)
  | [] => []
  | r :: rs => serve s r :: trace serve (serve s r).2 rs

/-- What agrees at every request agrees in every sequence of requests. -/
theorem map_trace {σ τ : Type} {serve : σ → Request α → Answer α × σ}
    {serve' : τ → Request α → Answer α × τ} {view : σ → τ}
    (h : ∀ s r, (serve s r).map id view = serve' (view s) r) (s : σ) (rs : List (Request α)) :
    (trace serve s rs).map (Prod.map id view) = trace serve' (view s) rs := by
  induction rs generalizing s with
  | nil => rfl
  | cons r rs ih =>
    have hnext : view (serve s r).2 = (serve' (view s) r).2 := congrArg Prod.snd (h s r)
    rw [trace, trace, List.map_cons, h, ih, hnext]

end Request

/-- A head is empty if its contents are. -/
theorem isEmpty_eq (c : Cursor α) : c.isEmpty = c.contents.isEmpty := by
  rw [isEmpty, peek?, peek_symbol]
  cases c.contents with
  | nil => rfl
  | cons a l => rfl

/-- A head serves a request as the list of its contents does. -/
theorem serve_eq_onList (c : Cursor α) (r : Request α) :
    (c.serve r).map id contents = r.onList c.contents := by
  cases r with
  | pop =>
    rw [serve]
    split
    · next a c' h =>
      rw [contents_of_pop?_some h]
      rfl
    · next h =>
      have hnil := contents_of_pop?_none h
      rw [hnil]
      exact Prod.ext rfl hnil
  | push a => rfl
  | peek => exact Prod.ext (congrArg Answer.symbol c.peek_symbol) c.contents_peek
  | isEmpty => exact Prod.ext (congrArg Answer.truth c.isEmpty_eq) c.contents_peek
  | takeUntil stop =>
    exact Prod.ext (congrArg Answer.taken (c.takeUntil_taken stop)) (c.contents_takeUntil stop)

/-- What is taken is the longest part in front that nothing stops, and what stops it stays. -/
theorem takeUntil_longest (c : Cursor α) (stop : α → Bool) :
    c.contents = (c.takeUntil stop).1 ++ (c.takeUntil stop).2.contents ∧
    (∀ a ∈ (c.takeUntil stop).1, stop a = false) ∧
    (∀ a ∈ (c.takeUntil stop).2.contents.head?, stop a = true) ∧
    ∀ l, l <+: c.contents → (∀ a ∈ l, stop a = false) → l <+: (c.takeUntil stop).1 := by
  rw [takeUntil_taken, contents_takeUntil]
  refine ⟨List.takeWhile_append_dropWhile.symm, fun a ha => ?_, fun a ha => ?_, ?_⟩
  · simpa using List.mem_takeWhile_imp ha
  · have hstop := List.head?_dropWhile_not (fun a => !stop a) c.contents
    rw [Option.mem_def.mp ha] at hstop
    simpa using hstop
  · rintro l ⟨rest, hl⟩ hfree
    rw [← hl, List.takeWhile_append_of_pos fun a ha => by rw [hfree a ha]; rfl]
    exact List.prefix_append l _

/-- **A reading head is a list.**  Whatever symbols were given back and whatever the source behind
    them is, missing, at its end or broken off, every sequence of requests gets the answers that the
    list of the contents gives, and leaves the contents, after each request, as it leaves the list.
    Taking up to a symbol takes the longest part in front that does not stop it, and leaves the
    symbol that does.  A symbol that is given back, also to a head that can read no further, is the
    next to be taken, and then the head is as it was. -/
theorem trace_eq_onList (c : Cursor α) (rs : List (Request α)) :
    (Request.trace serve c rs).map (Prod.map id contents) =
      Request.trace Request.onList c.contents rs ∧
    (∀ stop, c.contents = (c.takeUntil stop).1 ++ (c.takeUntil stop).2.contents ∧
      (∀ a ∈ (c.takeUntil stop).1, stop a = false) ∧
      (∀ a ∈ (c.takeUntil stop).2.contents.head?, stop a = true) ∧
      ∀ l, l <+: c.contents → (∀ a ∈ l, stop a = false) → l <+: (c.takeUntil stop).1) ∧
    ∀ a, (c.push a).pop? = some (a, c) := by
  refine ⟨Request.map_trace serve_eq_onList c rs, c.takeUntil_longest, ?_⟩
  intro a
  rfl

/-- A head that has looked at a symbol is another head than before, with the same contents; and a
    broken source does not keep it from giving back what it is given. -/
example :
    let c : Cursor Nat := { source := some { remaining := [1], ending := .broken } }
    (Request.trace serve c [.peek, .pop, .pop, .push 2, .isEmpty, .pop]).map (·.1) =
      [.symbol (some 1), .symbol (some 1), .symbol none, .done, .truth false, .symbol (some 2)] ∧
    c.peek.2.pushed = [1] ∧ c.peek.2.contents = c.contents := by decide

end PrefixCalc.Cursor
