/-
  Trees that have been checked can only fail by dividing.

  1. **Specification** — `Expr.IsChecked`: every variable of the tree has a value or is a constant,
     every function can be called and every operator is in the table, and each is given a number of
     arguments that it takes.  Nothing is said of values, nor of which parts are evaluated.

  2. **The crux** (`IsChecked.eq_divisionByZero`) — an evaluation ends with what one of its visits
     finds wrong.  That is nothing where a node is visited, so it is the divisor of a division.
-/
import PrefixCalc.Proofs.Environment.Order

namespace PrefixCalc

/-- Every name means something, and everything that is called takes that many arguments. -/
inductive Expr.IsChecked (env : Environment) : Expr → Prop
  | number (x : Float) : IsChecked env (.number x)
  | var {name : String} : name ∈ env.vars.names ∨ name ∈ Constant.all.map Constant.name →
      IsChecked env (.var name)
  | operator {op : Operator} {a : Arity} {args : List Expr} : op.arity? = some a →
      a.admits args.length = true → (∀ e ∈ args, IsChecked env e) →
      IsChecked env (.call (.operator op) args)
  | function {name : String} {f : Builtin} {a : Arity} {args : List Expr} :
      env.function? name = some f → f.arity? = some a → a.admits args.length = true →
      (∀ e ∈ args, IsChecked env e) → IsChecked env (.call (.function name) args)

/-- There is a division in the tree. -/
def Expr.Divides (e : Expr) : Prop := ∃ p args, e.at? p = some (.call (.operator .div) args)

/-- A name of a constant is found among them. -/
theorem Constant.exists_ofName? {name : String} (h : name ∈ Constant.all.map Constant.name) :
    ∃ c, Constant.ofName? name = some c := by
  obtain ⟨c, hc, hname⟩ := List.mem_map.mp h
  rw [← Option.isSome_iff_exists, Constant.ofName?, List.find?_isSome]
  exact ⟨c, hc, beq_iff_eq.mpr hname⟩

namespace Expr

variable {env : Environment} {e : Expr}

namespace IsChecked

/-- Nothing is wrong with a checked expression by itself. -/
theorem fault?_eq_none (h : e.IsChecked env) : e.fault? env = none := by
  cases h with
  | number x => rfl
  | @var name hname =>
    rcases hname with hname | hname
    · obtain ⟨x, hx⟩ := NameTable.mem_names_iff.mp hname
      simp [fault?, hx]
    · obtain ⟨c, hc⟩ := Constant.exists_ofName? hname
      simp [fault?, hc]
  | operator harity hadmits _ => exact Operator.fault?_eq_none_iff.mpr ⟨_, harity, hadmits⟩
  | @function name f a args hname harity hadmits _ =>
    have hcallee : env.callee (.function name) = .builtin f := by rw [Environment.callee, hname]
    rw [fault?, hcallee]
    exact Builtin.fault?_eq_none_iff.mpr ⟨a, harity, hadmits⟩

theorem of_mem_args (h : e.IsChecked env) {a : Expr} (ha : a ∈ e.args) : a.IsChecked env := by
  cases h with
  | number x => cases ha
  | var _ => cases ha
  | operator _ _ hargs => exact hargs a ha
  | function _ _ _ hargs => exact hargs a ha

/-- The parts of a checked expression are checked. -/
theorem of_at? (h : e.IsChecked env) {p : Position} {t : Expr} (ht : e.at? p = some t) :
    t.IsChecked env := by
  induction p generalizing e with
  | nil => exact Option.some.inj ht ▸ h
  | cons i p ih =>
    obtain ⟨a, ha, ht⟩ := Option.bind_eq_some_iff.mp ht
    exact ih (h.of_mem_args (List.mem_of_getElem? ha)) ht

end IsChecked

/-- Only a division has a divisor with which something can be wrong, and it can only be zero. -/
theorem eq_of_divisorFault? {f : Fault} (h : e.divisorFault? env = some f) :
    f = .error .divisionByZero ∧ ∃ args, e = .call (.operator .div) args := by
  unfold divisorFault? at h
  split at h
  · next a b =>
    refine ⟨?_, [a, b], rfl⟩
    split at h
    · split at h
      · exact (Option.some.inj h).symm
      · cases h
    · cases h
  · cases h

/-- A checked expression that does not have a value divides by zero. -/
theorem IsChecked.eq_divisionByZero (h : e.IsChecked env) {f : Fault} (hf : e.eval env = .error f) :
    f = .error .divisionByZero ∧ e.Divides := by
  obtain ⟨v, -, hv⟩ := eval_eq_error_iff.mp hf
  cases v with
  | node p =>
    obtain ⟨t, ht, hfault⟩ := Option.bind_eq_some_iff.mp hv
    rw [(h.of_at? ht).fault?_eq_none] at hfault
    cases hfault
  | divisor p =>
    obtain ⟨t, ht, hfault⟩ := Option.bind_eq_some_iff.mp hv
    obtain ⟨hzero, args, rfl⟩ := eq_of_divisorFault? hfault
    exact ⟨hzero, p, args, ht⟩

/-- **Checked trees only fail by dividing by zero.**  A tree in which every name means something and
    everything called takes its number of arguments has a value, or dividing by zero is the error,
    and it always has a value if there is no division in it. -/
theorem eval_of_isChecked {env : Environment} {e : Expr} (h : e.IsChecked env) :
    ((∃ x, e.eval env = .ok x) ∨ ∃ err, e.eval env = .error (.error err) ∧ err.kind = .eval ∧
      err.message = "Cannot divide by 0") ∧
    (¬ e.Divides → ∃ x, e.eval env = .ok x) := by
  cases heval : e.eval env with
  | ok x => exact ⟨Or.inl ⟨x, rfl⟩, fun _ => ⟨x, rfl⟩⟩
  | error f =>
    obtain ⟨rfl, hdivides⟩ := h.eq_divisionByZero heval
    exact ⟨Or.inr ⟨.divisionByZero, rfl, rfl, rfl⟩, fun hnone => absurd hdivides hnone⟩

/-- A quotient with a variable, a constant and an alias in it. -/
theorem eval_of_isChecked_quotient :
    let env := (Environment.empty.setVariable "x" 4).setAlias "root" .sqrt
    let e : Expr := .call (.operator .div) [.call (.function "root") [.var "x"], .var "pi"]
    e.IsChecked env ∧
      ((∃ x, e.eval env = .ok x) ∨ ∃ err, e.eval env = .error (.error err) ∧ err.kind = .eval ∧
        err.message = "Cannot divide by 0") := by
  intro env e
  have hx : (var "x").IsChecked env := .var (Or.inl (NameTable.mem_names_insert.mpr (Or.inl rfl)))
  have hpi : (var "pi").IsChecked env := .var (Or.inr (by decide))
  have hroot : (call (.function "root") [.var "x"]).IsChecked env :=
    .function rfl rfl rfl (List.forall_mem_singleton.mpr hx)
  have h : e.IsChecked env :=
    .operator rfl rfl (List.forall_mem_cons.mpr ⟨hroot, List.forall_mem_singleton.mpr hpi⟩)
  exact ⟨h, (eval_of_isChecked h).1⟩

end Expr

end PrefixCalc
