/-
  The laws of the operators that take any number of arguments.

  1. **Equality** (`apply_eq_of_two_le`) — the other numbers are compared with the first only.  As
     equality is symmetric and transitive, that is to compare each with each, and the order of the
     numbers has no say, also where one of them is no number and so not even equal to itself.

  2. **Computing step by step** — `Operator.Folds` has the operators that go through their arguments
     from left to right.  One more argument is one more step from what the others come to
     (`combine_concat`).  A call computes that again as its first argument, from its own beginning:
     a sum from zero, which is why it matters that no sum is a negative zero, a product from one.

  3. **Nesting** — `Expr.nested` has the same arguments in calls with two arguments each, one inside
     the other.  All these calls are judged before any of the arguments is looked at, and then the
     parts of the arguments are looked at in the same order (`visited_nested`).
-/
import PrefixCalc.Proofs.Environment.Order
import PrefixCalc.Proofs.Number.Laws

namespace PrefixCalc

open Binary64

namespace Operator

/-! ## Equality -/

/-- To compare the others with the first number is to compare each with each. -/
theorem all_beq_iff_pairwise {x : Float} {xs : List Float} :
    xs.all (· == x) = true ↔ (x :: xs).Pairwise fun a b => (a == b) = true := by
  rw [List.all_eq_true, List.pairwise_cons]
  constructor
  · intro h
    refine ⟨fun y hy => beq_symm (h y hy), ?_⟩
    exact List.pairwise_of_forall_mem_list fun a ha b hb => beq_trans (h a ha) (beq_symm (h b hb))
  · rintro ⟨h, -⟩ y hy
    exact beq_symm (h y hy)

/-- What equality finds, with each number compared with each. -/
theorem apply_eq_of_two_le {xs : List Float} (h : 2 ≤ xs.length) :
    Operator.eq.apply xs =
      .ok (ofTruth (decide (xs.Pairwise fun a b => (a == b) = true))) := by
  obtain ⟨x, rest, rfl⟩ := List.exists_cons_of_length_pos (Nat.lt_of_lt_of_le Nat.zero_lt_two h)
  have hcheck : Operator.eq.check (x :: rest).length = .ok () := by
    have hadmits : (Arity.atLeast 2).admits (x :: rest).length = true := by
      rwa [Arity.admits_atLeast, decide_eq_true_eq]
    rw [Operator.check_eq, Operator.fault?_eq_none_iff.mpr ⟨_, rfl, hadmits⟩]
    rfl
  have hall : rest.all (· == x) = decide ((x :: rest).Pairwise fun a b => (a == b) = true) := by
    rw [Bool.eq_iff_iff, all_beq_iff_pairwise, decide_eq_true_eq]
  rw [apply, hcheck, ← hall]
  rfl

theorem ok_ofTruth_eq_iff {b b' : Bool} :
    (Except.ok (ofTruth b) : Except Fault Float) = .ok (ofTruth b') ↔ b = b' := by
  rw [Except.ok.injEq]
  revert b b'
  decide

theorem pairwise_beq_iff {xs : List Float} :
    (xs.Pairwise fun a b => (a == b) = true) ↔
      ∀ i j : Fin xs.length, i ≠ j → (xs.get i == xs.get j) = true := by
  rw [List.pairwise_iff_get]
  constructor
  · intro h i j hij
    rcases lt_or_gt_of_ne hij with hlt | hgt
    · exact h i j hlt
    · exact beq_symm (h j i hgt)
  · intro h i j hlt
    exact h i j (ne_of_lt hlt)

/-- What is no number is not equal to the number beside it. -/
theorem not_pairwise_of_isNaN {xs : List Float} (h : 2 ≤ xs.length) {x : Float} (hx : x ∈ xs)
    (hnan : x.isNaN = true) : ¬ xs.Pairwise fun a b => (a == b) = true := by
  intro hpairs
  have : Nontrivial (Fin xs.length) := Fin.nontrivial_iff_two_le.mpr h
  obtain ⟨i, rfl⟩ := List.get_of_mem hx
  obtain ⟨j, hj⟩ := exists_ne i
  have heq : (xs.get i == xs.get j) = true := pairwise_beq_iff.mp hpairs i j hj.symm
  rw [beq_eq_false_of_isNaN hnan] at heq
  cases heq

/-- **Equality is symmetric in all its arguments.**  Of two or more numbers it finds that they are
    equal exactly if any two of them are, at whatever places; so it comes to the same in every order
    of the numbers, and where one of them is no number they are not equal. -/
theorem apply_eq_iff_pairwise (xs : List Float) (h : 2 ≤ xs.length) :
    (Operator.eq.apply xs = .ok 1 ↔
      ∀ i j : Fin xs.length, i ≠ j → (xs.get i == xs.get j) = true) ∧
    (¬ (∀ i j : Fin xs.length, i ≠ j → (xs.get i == xs.get j) = true) →
      Operator.eq.apply xs = .ok 0) ∧
    (∀ ys, ys.Perm xs → Operator.eq.apply ys = Operator.eq.apply xs) ∧
    (∀ x ∈ xs, x.isNaN = true → Operator.eq.apply xs = .ok 0) := by
  have hone : (.ok 1 : Except Fault Float) = .ok (ofTruth true) := rfl
  have hzero : (.ok 0 : Except Fault Float) = .ok (ofTruth false) := rfl
  have happly := apply_eq_of_two_le h
  rw [← pairwise_beq_iff, happly, hone, hzero, ok_ofTruth_eq_iff, ok_ofTruth_eq_iff,
    decide_eq_true_eq, decide_eq_false_iff_not]
  refine ⟨Iff.rfl, id, fun ys hys => ?_, fun x hx => not_pairwise_of_isNaN h hx⟩
  have hsame : (ys.Pairwise fun a b => (a == b) = true) ↔ xs.Pairwise fun a b => (a == b) = true :=
    hys.pairwise_iff beq_symm
  rw [apply_eq_of_two_le (hys.length_eq.symm ▸ h), decide_eq_decide.mpr hsame]

/-- Zeros of both signs are equal, and what is no number is not equal to itself. -/
theorem apply_eq_zeros_and_nan :
    Operator.eq.apply [0, -0, 0] = .ok 1 ∧ Operator.eq.apply [nan, nan] = .ok 0 := by
  constructor
  · exact (apply_eq_iff_pairwise [0, -0, 0] (by decide)).1.mpr (by decide)
  · exact (apply_eq_iff_pairwise [nan, nan] (by decide)).2.2.2 nan List.mem_cons_self rfl

/-! ## Computing step by step -/

/-- The operator goes through its arguments from left to right, and takes `n` of them. -/
inductive Folds : Operator → Nat → Prop
  | add (n : Nat) : Folds add n
  | mul (n : Nat) : Folds mul n
  | sub {n : Nat} : 0 < n → Folds sub n

variable {op : Operator} {n m : Nat}

theorem Folds.of_le (h : op.Folds n) (hle : n ≤ m) : op.Folds m := by
  cases h with
  | add n => exact .add m
  | mul n => exact .mul m
  | sub hn => exact .sub (Nat.lt_of_lt_of_le hn hle)

theorem Folds.two (h : op.Folds n) : op.Folds 2 := by
  cases h with
  | add n => exact .add 2
  | mul n => exact .mul 2
  | sub hn => exact .sub Nat.zero_lt_two

theorem Folds.fault?_eq_none (h : op.Folds n) : (Callee.operator op).fault? n = none := by
  rw [fault?_eq_none_iff]
  cases h with
  | add n => exact ⟨_, rfl, by simp⟩
  | mul n => exact ⟨_, rfl, by simp⟩
  | sub hn => exact ⟨_, rfl, by simpa using Nat.succ_le_of_lt hn⟩

/-- A sum that does not begin with a negative zero does not become one. -/
theorem foldl_add_ne_neg_zero {s : Float} (h : s ≠ -0) (xs : List Float) :
    xs.foldl (· + ·) s ≠ -0 := by
  induction xs generalizing s with
  | nil => exact h
  | cons x xs ih => exact ih fun hsum => h (add_eq_neg_zero hsum).1

/-- One more argument is one more step from what the others come to. -/
theorem Folds.combine_concat {xs : List Float} (h : op.Folds xs.length) :
    ∃ s, op.combine xs = .ok s ∧ ∀ y, op.combine (xs ++ [y]) = op.combine [s, y] := by
  cases h with
  | add n =>
    refine ⟨xs.foldl (· + ·) 0, rfl, fun y => ?_⟩
    have hsum : (0 : Float) + xs.foldl (· + ·) 0 = xs.foldl (· + ·) 0 :=
      zero_add_eq (foldl_add_ne_neg_zero (by decide) xs)
    simp only [combine, List.foldl_append, List.foldl_cons, List.foldl_nil, hsum]
  | mul n =>
    refine ⟨xs.foldl (· * ·) 1, rfl, fun y => ?_⟩
    simp only [combine, List.foldl_append, List.foldl_cons, List.foldl_nil, one_mul_eq]
  | sub hn =>
    obtain ⟨x, rest, rfl⟩ := List.exists_cons_of_length_pos hn
    refine ⟨rest.foldl (· - ·) x, rfl, fun y => ?_⟩
    simp only [combine, List.cons_append, List.foldl_append, List.foldl_cons, List.foldl_nil]

end Operator

/-! ## Nesting -/

namespace Expr

variable {env : Environment} {op : Operator}

theorem evalAll_concat (env : Environment) (args : List Expr) (b : Expr) :
    evalAll env (args ++ [b]) =
      evalAll env args >>= fun xs => b.eval env >>= fun y => .ok (xs ++ [y]) := by
  induction args with
  | nil => rfl
  | cons a args ih =>
    rw [List.cons_append, evalAll, evalAll, ih]
    cases a.eval env with
    | error f => rfl
    | ok x =>
      cases evalAll env args with
      | error f => rfl
      | ok xs =>
        cases b.eval env with
        | error f => rfl
        | ok y => rfl

/-- Such a call evaluates all its arguments and computes from their values. -/
theorem eval_of_folds {args : List Expr} (h : op.Folds args.length) :
    (call (.operator op) args).eval env = evalAll env args >>= op.combine :=
  eval_strict h.fault?_eq_none (fun hcallee => by cases hcallee)

/-- The last argument can be split off. -/
theorem eval_concat {args : List Expr} (h : op.Folds args.length) (b : Expr) :
    (call (.operator op) (args ++ [b])).eval env =
      (call (.operator op) [call (.operator op) args, b]).eval env := by
  have hlonger : op.Folds (args ++ [b]).length := h.of_le (by simp)
  have hpair : op.Folds [call (.operator op) args, b].length := h.two
  have hvalues : evalAll env [call (.operator op) args, b] =
      (call (.operator op) args).eval env >>= fun s => b.eval env >>= fun y => .ok [s, y] := by
    rw [← List.singleton_append, evalAll_concat]
    simp only [evalAll]
    cases (call (.operator op) args).eval env <;> rfl
  rw [eval_of_folds hlonger, eval_of_folds hpair, evalAll_concat, hvalues, eval_of_folds h]
  cases hargs : evalAll env args with
  | error f => rfl
  | ok xs =>
    have hfolds : op.Folds xs.length := by rwa [length_of_evalAll hargs]
    obtain ⟨s, hs, hnext⟩ := hfolds.combine_concat
    show (b.eval env >>= fun y => .ok (xs ++ [y])) >>= op.combine =
      (op.combine xs >>= fun s => b.eval env >>= fun y => .ok [s, y]) >>= op.combine
    rw [hs]
    cases b.eval env with
    | error f => rfl
    | ok y => exact hnext y

/-- Calls of an operator one inside the other, each with the one before it and one more argument. -/
def nested (op : Operator) (e : Expr) (bs : List Expr) : Expr :=
  bs.foldl (fun e b => call (.operator op) [e, b]) e

theorem nested_cons (op : Operator) (e b : Expr) (bs : List Expr) :
    nested op e (b :: bs) = nested op (call (.operator op) [e, b]) bs := rfl

/-- Calls around it know an expression by what it comes to. -/
theorem eval_nested_congr {e e' : Expr} (h : e.eval env = e'.eval env) (bs : List Expr) :
    (nested op e bs).eval env = (nested op e' bs).eval env := by
  induction bs generalizing e e' with
  | nil => exact h
  | cons b bs ih =>
    rw [nested_cons, nested_cons]
    exact ih (eval_call_congr rfl (by simp only [List.map_cons, h]))

/-- All further arguments can be split off. -/
theorem eval_append {args : List Expr} (h : op.Folds args.length) (bs : List Expr) :
    (call (.operator op) (args ++ bs)).eval env =
      (nested op (call (.operator op) args) bs).eval env := by
  induction bs generalizing args with
  | nil => rw [List.append_nil]; rfl
  | cons b bs ih =>
    have hlonger : op.Folds (args ++ [b]).length := h.of_le (by simp)
    rw [List.append_cons, ih hlonger, nested_cons]
    exact eval_nested_congr (eval_concat h b) bs

end Expr

/-! ## The order of the visits -/

/-- The part of an expression that a visit looks at. -/
def Visit.part? (e : Expr) : Visit → Option Expr
  | node p => e.at? p
  | divisor p => e.at? (p ++ [1])

namespace Expr

variable {env : Environment} {op : Operator}

/-- What an evaluation looks at, in order, wherever it stands. -/
def visited (env : Environment) (e : Expr) : List Expr := (e.visits env).filterMap (Visit.part? e)

/-- A visit looks at the same part in the call and in the argument. -/
theorem part?_within {head : Head} {args : List Expr} {i : Nat} {a : Expr}
    (h : args[i]? = some a) (v : Visit) : (v.within i).part? (call head args) = v.part? a := by
  cases v with
  | node p => exact at?_cons h p
  | divisor p => exact at?_cons h (p ++ [1])

/-- What is looked at in the arguments behind the first ones. -/
theorem filterMap_visitsOfAll (env : Environment) (head : Head) (before es : List Expr) :
    (visitsOfAll env before.length es).filterMap (Visit.part? (call head (before ++ es))) =
      es.flatMap (visited env) := by
  induction es generalizing before with
  | nil => rfl
  | cons e es ih =>
    have hfirst : (before ++ e :: es)[before.length]? = some e := by simp
    have hpart : Visit.part? (call head (before ++ e :: es)) ∘ Visit.within before.length =
        Visit.part? e := funext (part?_within hfirst)
    have hrest := ih (before ++ [e])
    rw [List.length_append, List.append_assoc] at hrest
    rw [visitsOfAll, List.filterMap_append, List.filterMap_map, hpart, List.flatMap_cons]
    exact congrArg (e.visited env ++ ·) hrest

/-- A call is looked at before its arguments, and these from left to right. -/
theorem visited_of_folds {args : List Expr} (h : op.Folds args.length) :
    (call (.operator op) args).visited env =
      call (.operator op) args :: args.flatMap (visited env) := by
  have hdiv : ¬ Head.operator op = .operator .div := by
    rintro ⟨⟩
    cases h
  have hchoose : ¬ env.callee (.operator op) = .builtin .choose := fun hcallee => by cases hcallee
  have hargs := filterMap_visitsOfAll env (.operator op) [] args
  rw [visited, visits, if_neg hchoose, if_neg hdiv, List.append_nil]
  exact congrArg (call (.operator op) args :: ·) hargs

/-- Nested calls are looked at from the outside in, before the arguments of any of them. -/
theorem visited_nested (h : op.Folds 2) (env : Environment) (e : Expr) (bs : List Expr) :
    ∃ calls, (nested op e bs).visited env = calls ++ e.visited env ++ bs.flatMap (visited env) ∧
      ∀ c ∈ calls, ∃ a b, c = call (.operator op) [a, b] := by
  induction bs generalizing e with
  | nil =>
    refine ⟨[], ?_, List.forall_mem_nil _⟩
    rw [List.flatMap_nil, List.append_nil]
    rfl
  | cons b bs ih =>
    obtain ⟨calls, hvisited, hcalls⟩ := ih (call (.operator op) [e, b])
    have hpair : (call (.operator op) [e, b]).visited env =
        call (.operator op) [e, b] :: (e.visited env ++ b.visited env) := by
      rw [visited_of_folds h, List.flatMap_cons, List.flatMap_singleton]
    refine ⟨calls ++ [call (.operator op) [e, b]], ?_, ?_⟩
    · rw [nested_cons, hvisited, hpair, List.flatMap_cons]
      simp
    · exact List.forall_mem_append.mpr ⟨hcalls, List.forall_mem_singleton.mpr ⟨e, b, rfl⟩⟩

/-- **Many arguments are nested calls.**  In every environment, a call of an operator that goes
    through its arguments comes to the same value or the same fault as a call with two arguments, the
    first of them the call without the last argument; and so with any number of arguments split off.
    With nothing wrong with any of the calls by themselves, both evaluations then look at the same
    parts of the arguments in the same order. -/
theorem eval_eq_nested {op : Operator} {args : List Expr} (h : op.Folds args.length)
    (env : Environment) :
    (∀ b, (call (.operator op) (args ++ [b])).eval env =
      (call (.operator op) [call (.operator op) args, b]).eval env) ∧
    ∀ bs, (call (.operator op) (args ++ bs)).eval env =
        (nested op (call (.operator op) args) bs).eval env ∧
      (call (.operator op) (args ++ bs)).visited env =
        call (.operator op) (args ++ bs) :: (args ++ bs).flatMap (visited env) ∧
      ∃ calls, (nested op (call (.operator op) args) bs).visited env =
          calls ++ (args ++ bs).flatMap (visited env) ∧
        ∀ c ∈ calls, ∃ as, c = call (.operator op) as ∧ c.fault? env = none := by
  refine ⟨eval_concat h, fun bs => ⟨eval_append h bs, visited_of_folds (h.of_le (by simp)), ?_⟩⟩
  obtain ⟨calls, hvisited, hcalls⟩ := visited_nested h.two env (call (.operator op) args) bs
  refine ⟨calls ++ [call (.operator op) args], ?_, List.forall_mem_append.mpr ⟨?_, ?_⟩⟩
  · rw [hvisited, visited_of_folds h, List.flatMap_append]
    simp
  · intro c hc
    obtain ⟨a, b, rfl⟩ := hcalls c hc
    exact ⟨[a, b], rfl, h.two.fault?_eq_none⟩
  · exact List.forall_mem_singleton.mpr ⟨args, rfl, h.fault?_eq_none⟩

/-- A sum of negative zeros begins with a zero that is not negative, once in the flat call and again
    in every nested one; and a name without a value is found by both. -/
theorem eval_eq_nested_of_negative_zeros :
    let zero : Expr := .number (-0)
    let one : Expr := call (.operator .add) [zero]
    let two : Expr := call (.operator .add) [one, zero]
    Operator.add.Folds [zero].length ∧ two.eval .empty = .ok 0 ∧
      (call (.operator .add) [two, .var "x"]).eval .empty =
        .error (.error (.undefinedName "x")) := by
  intro zero one two
  have hfolds : Operator.add.Folds [zero].length := .add 1
  obtain ⟨hlast, hall⟩ := eval_eq_nested hfolds .empty
  refine ⟨hfolds, ?_, ?_⟩
  · rw [← hlast zero]
    rfl
  · have hnested := (hall [zero, .var "x"]).1
    exact hnested.symm.trans rfl

end Expr

end PrefixCalc
