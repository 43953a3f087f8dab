/-
  How evaluations end.

  1. **Complete trees** — `Expr.IsComplete`: no expression is missing in the tree.  What is called
     may be anything, known or not, with any number of arguments.

  2. **Outcome** — `Concludes`: there is a result, or an error that evaluation has found.  What is
     excluded is a crash, and an error of another stage.

  3. **The crux** (`Expr.eval_concludes`) — by induction on the tree.  Every place that would crash
     lies behind a check of the argument count in the same call: `combine_concludes` and
     `evalBuiltin_concludes` say that the check is enough, for operators on evaluated arguments and
     for functions on arguments that are not evaluated yet.
-/
import PrefixCalc.Proofs.Language.RoundTrip

namespace PrefixCalc

/-! ## Outcomes -/

/-- A result, or an error that evaluation has found. -/
def Concludes {α : Type} (r : Except Fault α) : Prop :=
  ∀ f, r = .error f → ∃ e, f = .error e ∧ e.kind = .eval

theorem concludes_ok {α : Type} (a : α) : Concludes (.ok a) := by
  intro f h
  nomatch h

theorem concludes_error {α : Type} {e : Error} (h : e.kind = .eval) :
    Concludes (.error (.error e) : Except Fault α) := by
  intro f hf
  exact ⟨e, (Except.error.inj hf).symm, h⟩

/-- One step after another. -/
theorem Concludes.bind {α β : Type} {x : Except Fault α} {next : α → Except Fault β}
    (hx : Concludes x) (hnext : ∀ a, x = .ok a → Concludes (next a)) : Concludes (x >>= next) := by
  intro f hf
  cases x with
  | error f' => exact hx f (congrArg Except.error (Except.error.inj hf))
  | ok a => exact hnext a rfl f hf

/-! ## Counting arguments -/

theorem Arity.check_concludes (a : Arity) (name : String) (n : Int) :
    Concludes (a.check name n) := by
  rw [Arity.check]
  split
  · exact concludes_ok ()
  · exact concludes_error rfl

theorem Arity.admits_of_check {a : Arity} {name : String} {n : Int}
    (h : a.check name n = .ok ()) : a.admits n = true := by
  rw [Arity.check] at h
  split at h
  · assumption
  · nomatch h

namespace Operator

theorem check_concludes (op : Operator) (n : Nat) : Concludes (op.check n) := by
  rw [check]
  cases op.arity? with
  | none => exact concludes_error rfl
  | some a => exact a.check_concludes op.symbol n

/-- An operator that passes its check is in the table and takes that many arguments. -/
theorem admits_of_check {op : Operator} {n : Nat} (h : op.check n = .ok ()) :
    ∃ a, op.arity? = some a ∧ a.admits n = true := by
  rw [check] at h
  cases harity : op.arity? with
  | none => rw [harity] at h; nomatch h
  | some a => rw [harity] at h; exact ⟨a, rfl, Arity.admits_of_check h⟩

/-- An operator that has passed its check finds the arguments that it looks for. -/
theorem combine_concludes {op : Operator} {xs : List Float} (h : op.check xs.length = .ok ()) :
    Concludes (op.combine xs) := by
  obtain ⟨a, harity, hadmits⟩ := admits_of_check h
  have two : Arity.exactly 2 = a → ∃ x y, xs = [x, y] := by
    rintro rfl
    rw [Arity.admits_exactly, decide_eq_true_eq] at hadmits
    exact List.length_eq_two.mp hadmits
  have atLeast (n : Nat) (hn : 1 ≤ n) : Arity.atLeast n = a → ∃ x rest, xs = x :: rest := by
    rintro rfl
    rw [Arity.admits_atLeast, decide_eq_true_eq] at hadmits
    exact List.exists_cons_of_length_pos (Nat.lt_of_lt_of_le hn hadmits)
  cases op with
  | add => exact concludes_ok _
  | mul => exact concludes_ok _
  | sub =>
    obtain ⟨x, rest, rfl⟩ := atLeast 1 (by decide) (Option.some.inj harity)
    exact concludes_ok _
  | eq =>
    obtain ⟨x, rest, rfl⟩ := atLeast 2 (by decide) (Option.some.inj harity)
    exact concludes_ok _
  | div =>
    obtain ⟨x, y, rfl⟩ := two (Option.some.inj harity)
    rw [combine]
    split
    · exact concludes_error rfl
    · exact concludes_ok _
  | ne => obtain ⟨x, y, rfl⟩ := two (Option.some.inj harity); exact concludes_ok _
  | lt => obtain ⟨x, y, rfl⟩ := two (Option.some.inj harity); exact concludes_ok _
  | le => obtain ⟨x, y, rfl⟩ := two (Option.some.inj harity); exact concludes_ok _
  | gt => obtain ⟨x, y, rfl⟩ := two (Option.some.inj harity); exact concludes_ok _
  | ge => obtain ⟨x, y, rfl⟩ := two (Option.some.inj harity); exact concludes_ok _
  | unknown code => nomatch harity

end Operator

namespace Builtin

theorem check_concludes (f : Builtin) (n : Nat) : Concludes (f.check n) := by
  rw [check]
  cases f.arity? with
  | none => exact concludes_error rfl
  | some a => exact a.check_concludes f.name n

/-- A function that passes its check is in the table and takes that many arguments. -/
theorem admits_of_check {f : Builtin} {n : Nat} (h : f.check n = .ok ()) :
    ∃ a, f.arity? = some a ∧ a.admits n = true := by
  rw [check] at h
  cases harity : f.arity? with
  | none => rw [harity] at h; nomatch h
  | some a => rw [harity] at h; exact ⟨a, rfl, Arity.admits_of_check h⟩

end Builtin

/-! ## Names -/

/-- A name that is found among the constants has a value there. -/
theorem Constant.exists_value_of_ofName? {name : String} {c : Constant}
    (h : Constant.ofName? name = some c) : ∃ x, c.value? = some x := by
  have hmem : c ∈ Constant.all := List.mem_of_find?_eq_some h
  cases c with
  | pi => exact ⟨_, rfl⟩
  | e => exact ⟨_, rfl⟩
  | unknown code => simp [Constant.all] at hmem

theorem Environment.lookup_concludes (env : Environment) (name : String) :
    Concludes (env.lookup name) := by
  rw [lookup]
  split
  · exact concludes_ok _
  · split
    · exact concludes_error rfl
    · next c hc =>
      obtain ⟨x, hx⟩ := Constant.exists_value_of_ofName? hc
      rw [hx]
      exact concludes_ok x

/-! ## Trees -/

/-- No expression is missing. -/
inductive Expr.IsComplete : Expr → Prop
  | number (x : Float) : IsComplete (.number x)
  | var (name : String) : IsComplete (.var name)
  | call (head : Head) {args : List Expr} : (∀ e ∈ args, IsComplete e) →
      IsComplete (.call head args)

namespace Expr

variable {env : Environment}

theorem evalAll_concludes {args : List Expr} (h : ∀ e ∈ args, Concludes (e.eval env)) :
    Concludes (evalAll env args) := by
  induction args with
  | nil => exact concludes_ok []
  | cons e args ih =>
    obtain ⟨he, hargs⟩ := List.forall_mem_cons.mp h
    rw [evalAll]
    exact he.bind fun x _ => (ih hargs).bind fun xs _ => concludes_ok (x :: xs)

/-- There are as many values as expressions. -/
theorem length_of_evalAll {args : List Expr} {xs : List Float} (h : evalAll env args = .ok xs) :
    xs.length = args.length := by
  induction args generalizing xs with
  | nil =>
    rw [evalAll] at h
    rw [← Except.ok.inj h]
    rfl
  | cons e args ih =>
    rw [evalAll, bind_eq_ok_iff] at h
    obtain ⟨x, -, h⟩ := h
    obtain ⟨ys, hys, h⟩ := bind_eq_ok_iff.mp h
    rw [← Except.ok.inj h, List.length_cons, List.length_cons, ih hys]

/-- A function that has passed its check finds the arguments that it looks for. -/
theorem evalBuiltin_concludes (f : Builtin) {args : List Expr}
    (h : ∀ e ∈ args, Concludes (e.eval env)) : Concludes (evalBuiltin env f args) := by
  cases args with
  | nil =>
    rw [evalBuiltin]
    refine (f.check_concludes 0).bind fun _ hcheck => ?_
    obtain ⟨a, harity, hadmits⟩ := Builtin.admits_of_check hcheck
    -- every function takes an argument
    cases f with
    | sqrt => cases harity; nomatch hadmits
    | pow => cases harity; nomatch hadmits
    | choose => cases harity; nomatch hadmits
    | unknown code => nomatch harity
  | cons e₁ rest =>
    obtain ⟨h₁, hrest⟩ := List.forall_mem_cons.mp h
    rw [evalBuiltin.eq_def]
    refine (f.check_concludes (rest.length + 1)).bind fun _ hcheck => ?_
    obtain ⟨a, harity, hadmits⟩ := Builtin.admits_of_check hcheck
    have hlength (n : Nat) : Arity.exactly (n + 1) = a → rest.length = n := by
      rintro rfl
      rw [Arity.admits_exactly, decide_eq_true_eq] at hadmits
      exact Nat.succ.inj hadmits
    cases f with
    | sqrt => exact h₁.bind fun x _ => concludes_ok _
    | pow =>
      obtain ⟨e₂, rfl⟩ := List.length_eq_one_iff.mp (hlength 1 (Option.some.inj harity))
      have h₂ := hrest e₂ List.mem_cons_self
      exact h₁.bind fun x _ => h₂.bind fun y _ => concludes_ok _
    | choose =>
      obtain ⟨e₂, e₃, rfl⟩ := List.length_eq_two.mp (hlength 2 (Option.some.inj harity))
      refine h₁.bind fun x _ => ?_
      cases isTrue x with
      | true => exact hrest e₂ (by simp)
      | false => exact hrest e₃ (by simp)
    | unknown code => nomatch harity

/-- A complete expression has a value, or evaluating it finds an error. -/
theorem eval_concludes (env : Environment) {e : Expr} (h : e.IsComplete) :
    Concludes (e.eval env) := by
  induction h with
  | number x => exact concludes_ok x
  | var name => exact env.lookup_concludes name
  | @call head args _ ih =>
    cases head with
    | operator op =>
      rw [eval]
      refine (op.check_concludes args.length).bind fun _ hcheck => ?_
      refine (evalAll_concludes ih).bind fun xs hxs => ?_
      rw [← length_of_evalAll hxs] at hcheck
      exact Operator.combine_concludes hcheck
    | function name =>
      rw [eval]
      cases env.function? name with
      | none => exact concludes_error rfl
      | some f => exact evalBuiltin_concludes f ih
    | unknown code name => exact concludes_error rfl

/-- Completeness is needed: one argument that is missing is enough. -/
example (env : Environment) :
    eval env (.call (.operator .add) [.number 1, .missing]) = .error .crash := rfl

end Expr

/-! ## Lines -/

theorem Expr.IsArgument.isComplete {e : Expr} (h : e.IsArgument) : e.IsComplete := by
  induction h with
  | number _ => exact .number _
  | var _ => exact .var _
  | call _ _ ih => exact .call _ ih

theorem Expr.IsAssignable.isComplete {e : Expr} (h : e.IsAssignable) : e.IsComplete := by
  cases h with
  | number harg => exact harg.isComplete
  | call harg => exact harg.isComplete

/-- The trees of the language have a result, or executing them finds an error. -/
theorem Form.IsLineTree.exec_concludes {form : Form} (h : form.IsLineTree) (env : Environment) :
    Concludes (form.exec env).1 := by
  cases h with
  | call harg => exact Expr.eval_concludes env harg.isComplete
  | @assign n e _ hvalue =>
    rw [fst_exec_assign]
    exact (Expr.eval_concludes env hvalue.isComplete).bind fun x _ => concludes_ok _

/-- A line that parses has a value, or executing it finds an error. -/
theorem Environment.run_concludes {line : Bytes} {form : Form} (h : Form.ofLine line = .ok form)
    (env : Environment) : Concludes (env.run line).1 := by
  rw [run, h]
  exact (isLineTree_of_ofLine h).exec_concludes env

end PrefixCalc
