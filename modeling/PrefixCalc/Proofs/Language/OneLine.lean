/-
  The text of a tree is one line.

  A line break is white space, and white space ends a word: so none is in a name, nor in anything else
  that can be met in a line.  By induction on the tree none is in the text of a tree that was read,
  whatever the line was that it was read from.
-/
import PrefixCalc.Proofs.Language.Names
import PrefixCalc.Proofs.Language.RoundTrip

namespace PrefixCalc

/-- The text has no line break in it. -/
def IsOneLine (s : String) : Prop := '\n' ∉ s.toList

instance (s : String) : Decidable (IsOneLine s) := inferInstanceAs (Decidable (¬ _))

/-- A text given by its characters, as every literal is. -/
theorem isOneLine_ofList {cs : List Char} (h : '\n' ∉ cs) : IsOneLine (String.ofList cs) := by
  rw [IsOneLine, String.toList_ofList]
  exact h

theorem isOneLine_append {s t : String} : IsOneLine (s ++ t) ↔ IsOneLine s ∧ IsOneLine t := by
  rw [IsOneLine, String.toList_append, List.mem_append, not_or]
  exact Iff.rfl

theorem isOneLine_of_isRun {s : String} (h : IsRun s.toList) : IsOneLine s := by
  intro hmem
  have hbreak := h.2 '\n' hmem
  cases hbreak

theorem isOneLine_numberText {x : Float} (h : IsWritable x) : IsOneLine (numberText x) := by
  obtain ⟨first, rest, htext, hrun, -⟩ := numberChars_eq_cons h
  refine isOneLine_of_isRun ?_
  rw [numberText, String.toList_ofList, htext]
  exact hrun

theorem isOneLine_symbol {op : Operator} (h : op ∈ Operator.all) : IsOneLine op.symbol := by
  revert op
  decide

theorem Head.IsLineHead.isOneLine_text {head : Head} (h : head.IsLineHead) :
    IsOneLine head.text := by
  cases h with
  | operator hop => exact isOneLine_symbol hop
  | function hn => exact isOneLine_of_isRun (isRun_of_scan_name hn)

theorem isOneLine_argsText {args : List Expr} (h : ∀ e ∈ args, IsOneLine e.text) :
    IsOneLine (Expr.argsText args) := by
  induction args with
  | nil => exact List.not_mem_nil
  | cons e args ih =>
    obtain ⟨he, hargs⟩ := List.forall_mem_cons.mp h
    rw [Expr.argsText, isOneLine_append, isOneLine_append]
    exact ⟨⟨by decide, he⟩, ih hargs⟩

theorem Expr.IsArgument.isOneLine_text {e : Expr} (h : e.IsArgument) : IsOneLine e.text := by
  induction h with
  | number hx =>
    rw [Expr.text]
    exact isOneLine_numberText hx
  | var hn =>
    rw [Expr.text]
    exact isOneLine_of_isRun (isRun_of_scan_name hn)
  | call hhead _ ih =>
    rw [Expr.text, isOneLine_append, isOneLine_append, isOneLine_append]
    exact ⟨⟨⟨by decide, hhead.isOneLine_text⟩, isOneLine_argsText ih⟩, by decide⟩

theorem Expr.IsAssignable.isOneLine_text {e : Expr} (h : e.IsAssignable) : IsOneLine e.text := by
  cases h with
  | number harg => exact harg.isOneLine_text
  | call harg => exact harg.isOneLine_text

/-- The text of a tree of the language is one line. -/
theorem Form.IsLineTree.isOneLine_text {form : Form} (h : form.IsLineTree) :
    IsOneLine form.text := by
  cases h with
  | call harg => exact harg.isOneLine_text
  | @assign n e hn hvalue =>
    have htarget : IsOneLine n := isOneLine_of_isRun (isRun_of_scan_name hn)
    show IsOneLine ("(" ++ "set" ++ " " ++ n ++ " " ++ e.text ++ ")")
    simp only [isOneLine_append]
    exact ⟨⟨⟨⟨⟨⟨by decide, by decide⟩, by decide⟩, htarget⟩, by decide⟩, hvalue.isOneLine_text⟩,
      by decide⟩

end PrefixCalc
