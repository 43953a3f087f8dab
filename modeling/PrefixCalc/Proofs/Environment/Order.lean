/-
  The order of an evaluation, and the first fault in it.

  1. **Specification** — `Expr.visits` lists what an evaluation looks at, in order and by position.
     A node comes before its arguments, the arguments come from left to right, the divisor of a
     division is looked at again after both arguments, and of a choice only the condition and the
     argument that it selects are in the list.  The list does not stop at a fault: `Expr.Reaches`
     says which of the visits take place, those with no fault before them.

  2. **Program** — `Expr.eval`, which knows nothing of positions and lists.

  3. **Agreement** (`findSome?_visits`) — by induction on the tree: the first fault in the list is
     the fault that the evaluation ends with, and if there is none, it ends with a value.
-/
import PrefixCalc.Proofs.Environment.Calls

namespace PrefixCalc

/-! ## Positions -/

/-- Where a part of an expression stands: the arguments to go through, from the root on. -/
abbrev Position := List Nat

namespace Expr

/-- The arguments of a call; everything else has none. -/
def args : Expr → List Expr
  | call _ args => args
  | _ => []

/-- The part of an expression at a position. -/
def at? (e : Expr) : Position → Option Expr
  | [] => some e
  | i :: p => e.args[i]?.bind fun a => a.at? p

theorem at?_cons {head : Head} {args : List Expr} {i : Nat} {a : Expr} (h : args[i]? = some a)
    (p : Position) : (call head args).at? (i :: p) = a.at? p := by
  show args[i]?.bind (fun a => a.at? p) = a.at? p
  rw [h]
  rfl

end Expr

/-! ## Visits -/

/-- One thing that an evaluation looks at. -/
inductive Visit
  /-- The expression at a position, by itself. -/
  | node (p : Position)
  /-- The value of the divisor in the division at a position. -/
  | divisor (p : Position)
deriving Repr, DecidableEq

/-- The visit to an argument as a visit to a part of the call. -/
def Visit.within (i : Nat) : Visit → Visit
  | node p => node (i :: p)
  | divisor p => divisor (i :: p)

mutual

/-- What an evaluation looks at, in order, as if there were no faults. -/
def Expr.visits (env : Environment) : Expr → List Visit
  | .call head args =>
    .node [] ::
      if env.callee head = .builtin .choose then Expr.visitsOfChoice env args
      else Expr.visitsOfAll env 0 args ++ if head = .operator .div then [.divisor []] else []
  | _ => [.node []]

/-- The visits to all arguments from the one of number `i` on. -/
def Expr.visitsOfAll (env : Environment) (i : Nat) : List Expr → List Visit
  | [] => []
  | e :: es => (e.visits env).map (.within i) ++ Expr.visitsOfAll env (i + 1) es

/-- The visits to the condition of a choice and to the argument that its value selects. -/
def Expr.visitsOfChoice (env : Environment) : List Expr → List Visit
  | [c, a, b] =>
    (c.visits env).map (.within 0) ++
      match c.eval env with
      | .ok x => if isTrue x then (a.visits env).map (.within 1) else (b.visits env).map (.within 2)
      | .error _ => []
  | _ => []

end

/-- What is wrong with a division by its divisor: it has the value zero. -/
def Expr.divisorFault? (env : Environment) : Expr → Option Fault
  | .call (.operator .div) [_, b] =>
    match b.eval env with
    | .ok y => if y == 0 then some (.error .divisionByZero) else none
    | .error _ => none
  | _ => none

/-- What a visit finds wrong. -/
def Visit.fault? (env : Environment) (e : Expr) : Visit → Option Fault
  | node p => (e.at? p).bind (Expr.fault? env)
  | divisor p => (e.at? p).bind (Expr.divisorFault? env)

/-- A visit takes place if no visit before it finds anything wrong. -/
def Reached (fault? : Visit → Option Fault) (vs : List Visit) (v : Visit) : Prop :=
  ∃ before after, vs = before ++ v :: after ∧ ∀ u ∈ before, fault? u = none

/-- The evaluation of an expression comes to this visit. -/
def Expr.Reaches (env : Environment) (e : Expr) (v : Visit) : Prop :=
  Reached (Visit.fault? env e) (e.visits env) v

/-- The order in a division: both arguments with all their parts, then the divisor. -/
example (env : Environment) (x y : Float) :
    (Expr.call (.operator .div) [.call (.operator .add) [.number x, .var "n"], .number y]).visits
      env = [.node [], .node [0], .node [0, 0], .node [0, 1], .node [1], .divisor []] := rfl

/-- The order in a choice: the condition, and then only what it selects. -/
example (x : Float) (h : isTrue x = false) :
    (Expr.call (.function "if") [.number x, .var "n", .var "m"]).visits .empty =
      [.node [], .node [0], .node [2]] := by
  have hcallee : Environment.empty.callee (.function "if") = .builtin .choose := rfl
  simp [Expr.visits, Expr.visitsOfChoice, Expr.eval, hcallee, h, Visit.within]

/-! ## The first fault -/

/-- What an evaluation ends with, if it does not end with a value. -/
def faultOf {α : Type} : Except Fault α → Option Fault
  | .ok _ => none
  | .error f => some f

theorem faultOf_eq_some_iff {α : Type} {r : Except Fault α} {f : Fault} :
    faultOf r = some f ↔ r = .error f := by
  cases r with
  | ok a => simp [faultOf]
  | error f' => simp [faultOf]

variable {env : Environment}

/-- A visit finds in the call what it finds in the argument. -/
theorem Visit.fault?_within {head : Head} {args : List Expr} {i : Nat} {a : Expr}
    (h : args[i]? = some a) (v : Visit) :
    (v.within i).fault? env (.call head args) = v.fault? env a := by
  cases v with
  | node p => simp only [within, fault?, Expr.at?_cons h]
  | divisor p => simp only [within, fault?, Expr.at?_cons h]

namespace Expr

theorem findSome?_within {head : Head} {args : List Expr} {i : Nat} {a : Expr}
    (h : args[i]? = some a) (vs : List Visit) :
    (vs.map (.within i)).findSome? (Visit.fault? env (call head args)) =
      vs.findSome? (Visit.fault? env a) := by
  have hfault : Visit.fault? env (call head args) ∘ Visit.within i = Visit.fault? env a :=
    funext (Visit.fault?_within h)
  rw [List.findSome?_map, hfault]

/-- The first fault in the arguments behind the first ones. -/
theorem findSome?_visitsOfAll (head : Head) (before : List Expr) {es : List Expr}
    (ih : ∀ e ∈ es, (e.visits env).findSome? (Visit.fault? env e) = faultOf (e.eval env)) :
    (visitsOfAll env before.length es).findSome? (Visit.fault? env (call head (before ++ es))) =
      faultOf (evalAll env es) := by
  induction es generalizing before with
  | nil => rfl
  | cons e es ihes =>
    obtain ⟨he, hes⟩ := List.forall_mem_cons.mp ih
    have hfirst : (before ++ e :: es)[before.length]? = some e := by simp
    have happend : before ++ e :: es = (before ++ [e]) ++ es := by simp
    have hlength : before.length + 1 = (before ++ [e]).length := by simp
    rw [visitsOfAll, List.findSome?_append, findSome?_within hfirst, he, happend, hlength,
      ihes (before ++ [e]) hes, evalAll]
    cases e.eval env with
    | error f => rfl
    | ok x =>
      cases evalAll env es with
      | error f => rfl
      | ok xs => rfl

/-- The first fault in the condition of a choice and in what it selects. -/
theorem findSome?_visitsOfChoice (head : Head) {c a b : Expr}
    (ih : ∀ e ∈ [c, a, b],
      (e.visits env).findSome? (Visit.fault? env e) = faultOf (e.eval env)) :
    (visitsOfChoice env [c, a, b]).findSome? (Visit.fault? env (call head [c, a, b])) =
      faultOf (c.eval env >>= fun x => if isTrue x then a.eval env else b.eval env) := by
  rw [visitsOfChoice, List.findSome?_append, findSome?_within (i := 0) rfl, ih c (by simp)]
  cases hcond : c.eval env with
  | error f => rfl
  | ok x =>
    show List.findSome? _ (if isTrue x then _ else _) =
      faultOf (if isTrue x then a.eval env else b.eval env)
    split
    · rw [findSome?_within (i := 1) rfl, ih a (by simp)]
    · rw [findSome?_within (i := 2) rfl, ih b (by simp)]

/-- Where a division has values for its arguments, the visit to its divisor finds what computing
    the quotient runs into. -/
theorem divisorFault?_eq {args : List Expr} {xs : List Float}
    (h : (call (.operator .div) args).fault? env = none) (hargs : evalAll env args = .ok xs) :
    (call (.operator .div) args).divisorFault? env =
      faultOf ((Callee.operator .div).compute xs) := by
  have hcount : args.length = 2 := by
    have h : (Callee.operator .div).fault? args.length = none := h
    obtain ⟨a, harity, hadmits⟩ := Operator.fault?_eq_none_iff.mp h
    obtain rfl := Option.some.inj harity
    rwa [Arity.admits_exactly, decide_eq_true_eq] at hadmits
  obtain ⟨a, b, rfl⟩ := List.length_eq_two.mp hcount
  rw [evalAll, bind_eq_ok_iff] at hargs
  obtain ⟨x, -, hrest⟩ := hargs
  obtain ⟨ys, hb, hxs⟩ := bind_eq_ok_iff.mp hrest
  rw [evalAll, bind_eq_ok_iff] at hb
  obtain ⟨y, hy, hys⟩ := hb
  obtain rfl : [y] = ys := Except.ok.inj hys
  obtain rfl : [x, y] = xs := Except.ok.inj hxs
  simp only [divisorFault?, hy, Callee.compute, Operator.combine]
  split
  · rfl
  · rfl

/-- Behind its arguments, a call finds nothing wrong but with a divisor. -/
theorem findSome?_divisor {head : Head} {args : List Expr} {xs : List Float}
    (h : (call head args).fault? env = none) (hchoose : env.callee head ≠ .builtin .choose)
    (hargs : evalAll env args = .ok xs) :
    (if head = .operator .div then [Visit.divisor []] else []).findSome?
      (Visit.fault? env (call head args)) = faultOf ((env.callee head).compute xs) := by
  split
  · next hdiv =>
    subst hdiv
    rw [List.findSome?_singleton]
    exact divisorFault?_eq h hargs
  · next hdiv =>
    have hcallee : env.callee head ≠ .operator .div := fun h => hdiv (Environment.eq_operator h)
    rw [fault?, ← length_of_evalAll hargs] at h
    obtain ⟨x, hx⟩ := Callee.exists_compute h hchoose hcallee
    rw [hx]
    rfl

/-- The first fault in the order of the visits is what the evaluation ends with. -/
theorem findSome?_visits (env : Environment) (e : Expr) :
    (e.visits env).findSome? (Visit.fault? env e) = faultOf (e.eval env) := by
  induction e with
  | number x => rfl
  | missing => rfl
  | var name =>
    cases hlocal : (var name).fault? env with
    | some f => simp [visits, Visit.fault?, at?, hlocal, eval_of_fault? hlocal, faultOf]
    | none =>
      obtain ⟨x, hx⟩ := Environment.lookup_of_fault?_none hlocal
      simp [visits, Visit.fault?, at?, hlocal, eval, hx, faultOf]
  | call head args ih =>
    have hroot : (Visit.node []).fault? env (call head args) = (call head args).fault? env := rfl
    rw [visits, List.findSome?_cons, hroot]
    cases hlocal : (call head args).fault? env with
    | some f => rw [eval_of_fault? hlocal]; rfl
    | none =>
      dsimp only
      split
      · next hchoose =>
        obtain ⟨c, a, b, rfl, heval⟩ := eval_choice hlocal hchoose
        rw [findSome?_visitsOfChoice head ih, heval]
      · next hchoose =>
        have hargs : (visitsOfAll env 0 args).findSome? (Visit.fault? env (call head args)) =
            faultOf (evalAll env args) := findSome?_visitsOfAll head [] ih
        rw [List.findSome?_append, hargs, eval_strict hlocal hchoose]
        cases hxs : evalAll env args with
        | error f => rfl
        | ok xs => exact findSome?_divisor hlocal hchoose hxs

theorem fault?_eq_none_of_eval {e : Expr} {x : Float} (h : e.eval env = .ok x) :
    ∀ v ∈ e.visits env, v.fault? env e = none := by
  have hnone : (e.visits env).findSome? (Visit.fault? env e) = none := by
    rw [findSome?_visits, h]
    rfl
  exact List.findSome?_eq_none_iff.mp hnone

/-- An evaluation ends with a fault exactly if it comes to a visit that finds it. -/
theorem eval_eq_error_iff {e : Expr} {f : Fault} :
    e.eval env = .error f ↔ ∃ v, e.Reaches env v ∧ v.fault? env e = some f := by
  rw [← faultOf_eq_some_iff, ← findSome?_visits, List.findSome?_eq_some_iff]
  constructor
  · rintro ⟨before, v, after, hvisits, hv, hbefore⟩
    exact ⟨v, ⟨before, after, hvisits, hbefore⟩, hv⟩
  · rintro ⟨v, ⟨before, after, hvisits, hbefore⟩, hv⟩
    exact ⟨before, v, after, hvisits, hv, hbefore⟩

end Expr

end PrefixCalc
