/-
  What an evaluation does not come to has no part in its result.

  1. **Parts that are reached** — the evaluation of a call comes to a part of an argument exactly if
     there is nothing wrong with the call by itself, the call demands the argument, and the
     evaluation of the argument comes to the part (`reaches_argument_iff`).

  2. **Replacement** — `Expr.replace` puts other expressions at any positions of a tree.

  3. **Independence** (`eval_replace`) — by induction on the tree: whatever is put in place of parts
     that are not reached, the result stays.  The arguments that a call demands keep their results
     by induction, and the others cannot be told apart by it.
-/
import PrefixCalc.Proofs.Environment.Order

namespace PrefixCalc

variable {env : Environment}

/-! ## Parts that are reached -/

namespace Reached

variable {fault? : Visit → Option Fault} {us vs : List Visit} {u v : Visit}

theorem not_nil : ¬ Reached fault? [] v := by
  rintro ⟨before, after, hnil, -⟩
  simp at hnil

theorem append_iff :
    Reached fault? (us ++ vs) v ↔
      Reached fault? us v ∨ (∀ u ∈ us, fault? u = none) ∧ Reached fault? vs v := by
  constructor
  · rintro ⟨before, after, heq, hbefore⟩
    rcases List.append_eq_append_iff.mp heq with ⟨rest, rfl, rfl⟩ | ⟨rest, rfl, hrest⟩
    · obtain ⟨hus, hrest⟩ := List.forall_mem_append.mp hbefore
      exact Or.inr ⟨hus, rest, after, rfl, hrest⟩
    · cases rest with
      | nil =>
        rw [List.append_nil]
        exact Or.inr ⟨hbefore, [], after, hrest.symm, List.forall_mem_nil _⟩
      | cons w rest =>
        obtain ⟨rfl, rfl⟩ := List.cons.inj hrest
        exact Or.inl ⟨before, rest, rfl, hbefore⟩
  · rintro (⟨before, after, rfl, hbefore⟩ | ⟨hus, before, after, rfl, hbefore⟩)
    · exact ⟨before, after ++ vs, by simp, hbefore⟩
    · exact ⟨us ++ before, after, by simp, List.forall_mem_append.mpr ⟨hus, hbefore⟩⟩

theorem cons_iff :
    Reached fault? (u :: vs) v ↔ v = u ∨ fault? u = none ∧ Reached fault? vs v := by
  constructor
  · rintro ⟨before, after, heq, hbefore⟩
    cases before with
    | nil => exact Or.inl (List.cons.inj heq).1.symm
    | cons w before =>
      obtain ⟨rfl, rfl⟩ := List.cons.inj heq
      obtain ⟨hu, hbefore⟩ := List.forall_mem_cons.mp hbefore
      exact Or.inr ⟨hu, before, after, rfl, hbefore⟩
  · rintro (rfl | ⟨hu, before, after, rfl, hbefore⟩)
    · exact ⟨[], vs, rfl, List.forall_mem_nil _⟩
    · exact ⟨u :: before, after, rfl, List.forall_mem_cons.mpr ⟨hu, hbefore⟩⟩

/-- What is reached in an argument by itself. -/
theorem within_iff {head : Head} {args : List Expr} {i j : Nat} {a : Expr}
    (hi : args[i]? = some a) {p : Position} :
    Reached (Visit.fault? env (.call head args)) ((a.visits env).map (.within i)) (.node (j :: p)) ↔
      j = i ∧ a.Reaches env (.node p) := by
  constructor
  · rintro ⟨before, after, heq, hbefore⟩
    obtain ⟨before, rest, hvisits, rfl, hrest⟩ := List.map_eq_append_iff.mp heq
    obtain ⟨v, after, rfl, hv, rfl⟩ := List.map_eq_cons_iff.mp hrest
    cases v with
    | divisor q => cases hv
    | node q =>
      cases hv
      refine ⟨rfl, before, after, hvisits, fun u hu => ?_⟩
      rw [← Visit.fault?_within hi]
      exact hbefore _ (List.mem_map_of_mem hu)
  · rintro ⟨rfl, before, after, hvisits, hbefore⟩
    refine ⟨before.map (.within j), after.map (.within j), by rw [hvisits]; simp [Visit.within], ?_⟩
    intro u hu
    obtain ⟨w, hw, rfl⟩ := List.mem_map.mp hu
    rw [Visit.fault?_within hi, hbefore w hw]

end Reached

namespace Expr

/-- Nothing is wrong with anything in an argument exactly if it has a value. -/
theorem fault?_within_eq_none_iff {head : Head} {args : List Expr} {i : Nat} {a : Expr}
    (hi : args[i]? = some a) :
    (∀ u ∈ (a.visits env).map (Visit.within i), u.fault? env (call head args) = none) ↔
      ∃ x, a.eval env = .ok x := by
  rw [← List.findSome?_eq_none_iff, findSome?_within hi, findSome?_visits]
  cases a.eval env with
  | ok x => simp [faultOf]
  | error f => simp [faultOf]

/-- What is reached in the arguments behind the first ones. -/
theorem reached_visitsOfAll_iff (head : Head) (before : List Expr) {es : List Expr} {i : Nat}
    {p : Position} :
    Reached (Visit.fault? env (call head (before ++ es))) (visitsOfAll env before.length es)
        (.node (i :: p)) ↔
      ∃ k, i = before.length + k ∧ (∀ j < k, ∃ a x, es[j]? = some a ∧ a.eval env = .ok x) ∧
        ∃ a, es[k]? = some a ∧ a.Reaches env (.node p) := by
  induction es generalizing before with
  | nil => simp [visitsOfAll, Reached.not_nil]
  | cons e es ih =>
    have hfirst : (before ++ e :: es)[before.length]? = some e := by simp
    have happend : before ++ e :: es = (before ++ [e]) ++ es := by simp
    have hlength : before.length + 1 = (before ++ [e]).length := by simp
    rw [visitsOfAll, Reached.append_iff, Reached.within_iff hfirst,
      fault?_within_eq_none_iff hfirst, happend, hlength, ih (before ++ [e]), ← hlength]
    constructor
    · rintro (⟨rfl, hreaches⟩ | ⟨⟨x, hx⟩, k, rfl, hbefore, hreaches⟩)
      · exact ⟨0, rfl, fun j hj => absurd hj (Nat.not_lt_zero j), e, rfl, hreaches⟩
      · refine ⟨k + 1, by omega, fun j hj => ?_, hreaches⟩
        cases j with
        | zero => exact ⟨e, x, rfl, hx⟩
        | succ j => exact hbefore j (by omega)
    · rintro ⟨k, rfl, hbefore, a, ha, hreaches⟩
      cases k with
      | zero =>
        obtain rfl := Option.some.inj ha
        exact Or.inl ⟨rfl, hreaches⟩
      | succ k =>
        obtain ⟨_, x, he, hx⟩ := hbefore 0 (by omega)
        obtain rfl := Option.some.inj he
        exact Or.inr ⟨⟨x, hx⟩, k, by omega, fun j hj => hbefore (j + 1) (by omega), a, ha, hreaches⟩

/-- What is reached in the arguments of a choice. -/
theorem reached_visitsOfChoice_iff (head : Head) {c a b : Expr} {i : Nat} {p : Position} :
    Reached (Visit.fault? env (call head [c, a, b])) (visitsOfChoice env [c, a, b])
        (.node (i :: p)) ↔
      (i = 0 ∨ ∃ x, c.eval env = .ok x ∧ i = if isTrue x then 1 else 2) ∧
        ∃ e, [c, a, b][i]? = some e ∧ e.Reaches env (.node p) := by
  rw [visitsOfChoice, Reached.append_iff, Reached.within_iff (i := 0) rfl,
    fault?_within_eq_none_iff (i := 0) rfl]
  constructor
  · rintro (⟨rfl, hreaches⟩ | ⟨⟨x, hx⟩, hreached⟩)
    · exact ⟨Or.inl rfl, c, rfl, hreaches⟩
    · simp only [hx] at hreached
      split at hreached
      · next htrue =>
        obtain ⟨rfl, hreaches⟩ := (Reached.within_iff (i := 1) rfl).mp hreached
        exact ⟨Or.inr ⟨x, hx, (if_pos htrue).symm⟩, a, rfl, hreaches⟩
      · next hfalse =>
        obtain ⟨rfl, hreaches⟩ := (Reached.within_iff (i := 2) rfl).mp hreached
        exact ⟨Or.inr ⟨x, hx, (if_neg hfalse).symm⟩, b, rfl, hreaches⟩
  · rintro ⟨rfl | ⟨x, hx, hi⟩, e, he, hreaches⟩
    · obtain rfl := Option.some.inj he
      exact Or.inl ⟨rfl, hreaches⟩
    · refine Or.inr ⟨⟨x, hx⟩, ?_⟩
      simp only [hx]
      split at hi
      · next htrue =>
        subst hi
        obtain rfl := Option.some.inj he
        rw [if_pos htrue]
        exact (Reached.within_iff (i := 1) rfl).mpr ⟨rfl, hreaches⟩
      · next hfalse =>
        subst hi
        obtain rfl := Option.some.inj he
        rw [if_neg hfalse]
        exact (Reached.within_iff (i := 2) rfl).mpr ⟨rfl, hreaches⟩

/-- An evaluation comes to a part of an argument exactly if the call is not refused, the argument is
    demanded, and the evaluation of the argument comes to the part. -/
theorem reaches_argument_iff {head : Head} {args : List Expr} {i : Nat} {p : Position} :
    (call head args).Reaches env (.node (i :: p)) ↔
      (call head args).fault? env = none ∧ env.Demands head args i ∧
        ∃ a, args[i]? = some a ∧ a.Reaches env (.node p) := by
  have hroot : (Visit.node []).fault? env (call head args) = (call head args).fault? env := rfl
  have hbelow : ¬ Visit.node (i :: p) = .node [] := by simp
  rw [Reaches, visits, Reached.cons_iff, hroot, or_iff_right hbelow]
  refine and_congr_right fun hlocal => ?_
  by_cases hchoose : env.callee head = .builtin .choose
  · obtain ⟨c, a, b, rfl, -⟩ := eval_choice hlocal hchoose
    rw [if_pos hchoose, reached_visitsOfChoice_iff, Environment.Demands, if_pos hchoose]
    simp
  · have hdivisor : ¬ Reached (Visit.fault? env (call head args))
        (if head = .operator .div then [.divisor []] else []) (.node (i :: p)) := by
      split
      · simp [Reached.cons_iff, Reached.not_nil]
      · exact Reached.not_nil
    have hargs : Reached (Visit.fault? env (call head args)) (visitsOfAll env 0 args)
        (.node (i :: p)) ↔ _ := reached_visitsOfAll_iff head []
    rw [if_neg hchoose, Environment.Demands, if_neg hchoose, Reached.append_iff, hargs]
    simp [hdivisor]

theorem reaches_root (env : Environment) (e : Expr) : e.Reaches env (.node []) := by
  cases e with
  | call head args =>
    rw [Reaches, visits]
    exact Reached.cons_iff.mpr (Or.inl rfl)
  | _ => exact Reached.cons_iff.mpr (Or.inl rfl)

/-- Below the root there is something in calls only. -/
theorem Reaches.exists_eq_call {e : Expr} {i : Nat} {p : Position}
    (h : e.Reaches env (.node (i :: p))) : ∃ head args, e = .call head args := by
  cases e with
  | call head args => exact ⟨head, args, rfl⟩
  | _ => simp [Reaches, visits, Reached.cons_iff, Reached.not_nil] at h

/-- What is reached lies in calls that are not refused, in arguments that these demand. -/
theorem Reaches.demands {e : Expr} {p q : Position} {i : Nat}
    (h : e.Reaches env (.node (p ++ i :: q))) :
    ∃ head args, e.at? p = some (.call head args) ∧ (call head args).fault? env = none ∧
      env.Demands head args i := by
  induction p generalizing e with
  | nil =>
    obtain ⟨head, args, rfl⟩ := h.exists_eq_call
    obtain ⟨hlocal, hdemands, -⟩ := reaches_argument_iff.mp h
    exact ⟨head, args, rfl, hlocal, hdemands⟩
  | cons j p ih =>
    obtain ⟨head, args, rfl⟩ := h.exists_eq_call
    obtain ⟨-, -, a, ha, hreaches⟩ := reaches_argument_iff.mp h
    rw [at?_cons ha]
    exact ih hreaches

end Expr

/-! ## Replacement -/

mutual

/-- The expression with `new p` in place of what stands at `p`, wherever there is something new.
    No call gets more or fewer arguments, unless it is replaced itself. -/
def Expr.replace (new : Position → Option Expr) : Expr → Expr
  | .call head args => (new []).getD (.call head (Expr.replaceAll new 0 args))
  | e => (new []).getD e

/-- The same of arguments from the one of number `i` on. -/
def Expr.replaceAll (new : Position → Option Expr) (i : Nat) : List Expr → List Expr
  | [] => []
  | e :: es => e.replace (fun p => new (i :: p)) :: Expr.replaceAll new (i + 1) es

end

namespace Expr

theorem length_replaceAll (new : Position → Option Expr) (i : Nat) (es : List Expr) :
    (replaceAll new i es).length = es.length := by
  induction es generalizing i with
  | nil => rfl
  | cons e es ih => rw [replaceAll, List.length_cons, List.length_cons, ih]

theorem getElem?_replaceAll (new : Position → Option Expr) (i k : Nat) (es : List Expr) :
    (replaceAll new i es)[k]? = es[k]?.map fun e => e.replace fun p => new ((i + k) :: p) := by
  induction es generalizing i k with
  | nil => rfl
  | cons e es ih =>
    rw [replaceAll]
    cases k with
    | zero => rfl
    | succ k => rw [List.getElem?_cons_succ, List.getElem?_cons_succ, ih, Nat.add_assoc,
        Nat.add_comm 1 k]

/-! ## Independence -/

/-- Parts of an expression that its evaluation does not come to can be replaced by others, without
    any change in the result. -/
theorem eval_replace {e : Expr} (new : Position → Option Expr)
    (h : ∀ p, e.Reaches env (.node p) → new p = none) : (e.replace new).eval env = e.eval env := by
  have hroot : new [] = none := h [] (reaches_root env e)
  induction e generalizing new with
  | number x => rw [show (number x).replace new = (new []).getD (number x) from rfl, hroot]; rfl
  | var name => rw [show (var name).replace new = (new []).getD (var name) from rfl, hroot]; rfl
  | missing => rw [show missing.replace new = (new []).getD missing from rfl, hroot]; rfl
  | call head args ih =>
    rw [replace, hroot, Option.getD_none]
    refine (eval_call_congr_of_demands rfl (length_replaceAll new 0 args).symm ?_).symm
    intro hlocal i a a' ha ha' hdemands
    have hnew : ∀ p, a.Reaches env (.node p) → new (i :: p) = none := fun p hp =>
      h (i :: p) (reaches_argument_iff.mpr ⟨hlocal, hdemands, a, ha, hp⟩)
    rw [getElem?_replaceAll, ha, Nat.zero_add] at ha'
    rw [← Option.some.inj ha']
    exact (ih a (List.mem_of_getElem? ha) _ hnew (hnew [] (reaches_root env a))).symm

/-- **The first fault wins.**  Evaluating an expression ends with a fault exactly if that is what is
    wrong with the first thing, in the order of the visits, with which anything is wrong, and it
    ends with a value exactly if nothing is wrong with anything that it comes to.  Whatever is put
    in place of parts that it does not come to, the result is the same.  These are the arguments of
    a call that is refused by itself, those behind an argument without a value, and those that a
    condition does not select, at any depth: in every call around a part that is reached, the
    argument with the part in it is demanded.  If nothing is missing in the expression, what ends
    the evaluation is an error and not a crash. -/
theorem eval_first_fault (env : Environment) (e : Expr) :
    (∀ f, e.eval env = .error f ↔ ∃ v, e.Reaches env v ∧ v.fault? env e = some f) ∧
    ((∃ x, e.eval env = .ok x) ↔ ∀ v, e.Reaches env v → v.fault? env e = none) ∧
    (∀ new : Position → Option Expr, (∀ p, e.Reaches env (.node p) → new p = none) →
      (e.replace new).eval env = e.eval env) ∧
    (∀ p i q, e.Reaches env (.node (p ++ i :: q)) → ∃ head args,
      e.at? p = some (.call head args) ∧ (call head args).fault? env = none ∧
      env.Demands head args i) ∧
    (e.IsComplete → ∀ f, e.eval env = .error f → ∃ err, f = .error err ∧ err.kind = .eval) := by
  refine ⟨fun f => eval_eq_error_iff, ⟨?_, ?_⟩, eval_replace, fun p i q h => h.demands,
    fun h => eval_concludes env h⟩
  · rintro ⟨x, hx⟩ v ⟨before, after, hvisits, -⟩
    exact fault?_eq_none_of_eval hx v (by rw [hvisits]; simp)
  · intro h
    cases heval : e.eval env with
    | ok x => exact ⟨x, rfl⟩
    | error f =>
      obtain ⟨v, hreached, hv⟩ := eval_eq_error_iff.mp heval
      rw [h v hreached] at hv
      cases hv

end Expr

end PrefixCalc
