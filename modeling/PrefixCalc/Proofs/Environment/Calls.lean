/-
  What a call comes to.

  1. **Callee** — a head is looked up before anything else happens.  `Environment.callee` says what
     it calls: an operator, a built-in function, or nothing at all, and then what the error is.
     Variables and arguments have no part in that.

  2. **Local faults** — `Expr.fault?` is what is wrong with an expression by itself.  Of a call the
     arguments are counted and not looked into.

  3. **Two ways to go on** — a call without a local fault evaluates all its arguments and computes
     from their values (`eval_strict`), or it is a choice, which evaluates its condition and then
     one of the two others (`eval_choice`).  That is all a call can do, and what follows about
     calls is derived from these two.

  4. **Demand** — `Environment.Demands`: a call comes to an argument if all arguments before it have
     values, or, in a choice, if it is the condition or what the condition selects.  A call is known
     by its callee and by what the arguments that it demands come to, a value or a fault
     (`eval_call_congr_of_demands`).
-/
import PrefixCalc.Proofs.Environment.Outcome

namespace PrefixCalc

/-- What holds of the numbers and the variables, and of every call if it holds of the arguments,
    holds of every expression. -/
@[elab_as_elim, induction_eliminator]
theorem Expr.induction {motive : Expr → Prop} (number : ∀ x, motive (.number x))
    (var : ∀ name, motive (.var name))
    (call : ∀ head args, (∀ e ∈ args, motive e) → motive (.call head args))
    (missing : motive .missing) (e : Expr) : motive e := by
  have cons (e : Expr) (es : List Expr) (he : motive e) (hes : ∀ a ∈ es, motive a) :
      ∀ a ∈ e :: es, motive a := List.forall_mem_cons.mpr ⟨he, hes⟩
  exact @Expr.rec motive (fun es => ∀ a ∈ es, motive a) number var call missing
    (List.forall_mem_nil _) cons e

/-! ## Callees -/

/-- What a head calls. -/
inductive Callee
  | operator (op : Operator)
  | builtin (f : Builtin)
  /-- There is nothing to call, for this reason. -/
  | nothing (e : Error)
deriving DecidableEq

/-- What a head calls.  An alias goes before a built-in function. -/
def Environment.callee (env : Environment) : Head → Callee
  | .operator op => .operator op
  | .function name =>
    match env.function? name with
    | some f => .builtin f
    | none => .nothing (.unknownFunction name)
  | .unknown code _ => .nothing (.invalidExpression (.unknown code))

/-- Nothing but an operator calls one. -/
theorem Environment.eq_operator {env : Environment} {head : Head} {op : Operator}
    (h : env.callee head = .operator op) : head = .operator op := by
  cases head with
  | operator op' =>
    obtain rfl := Callee.operator.inj h
    rfl
  | function name =>
    rw [callee] at h
    cases hname : env.function? name with
    | none => simp [hname] at h
    | some f => simp [hname] at h
  | unknown code name => cases h

/-- What is wrong with calling something of this arity and name with so many arguments. -/
def callFault? (arity? : Option Arity) (name : String) (unknown : Error) (n : Nat) :
    Option Fault :=
  match arity? with
  | none => some (.error unknown)
  | some a => if a.admits n then none else some (.error (.wrongCount name a))

namespace Callee

/-- What is wrong with calling this with so many arguments. -/
def fault? (n : Nat) : Callee → Option Fault
  | operator op => callFault? op.arity? op.symbol (.unknownOperator op) n
  | builtin f => callFault? f.arity? f.name (.unknownBuiltin f) n
  | nothing e => some (.error e)

/-- What is computed from the values of all the arguments.  A choice has other ways. -/
def compute : Callee → List Float → Except Fault Float
  | operator op, xs => op.combine xs
  | builtin .sqrt, [x] => .ok x.sqrt
  | builtin .pow, [x, y] => .ok (Power.power x y)
  | _, _ => .error .crash

end Callee

/-! ## Checks -/

/-- Nothing is wrong with a call exactly if its callee is in the table and takes that many
    arguments. -/
theorem callFault?_eq_none_iff {arity? : Option Arity} {name : String} {unknown : Error} {n : Nat} :
    callFault? arity? name unknown n = none ↔ ∃ a, arity? = some a ∧ a.admits n = true := by
  cases arity? with
  | none => simp [callFault?]
  | some a => simp [callFault?]

theorem Operator.fault?_eq_none_iff {op : Operator} {n : Nat} :
    (Callee.operator op).fault? n = none ↔ ∃ a, op.arity? = some a ∧ a.admits n = true :=
  callFault?_eq_none_iff

theorem Builtin.fault?_eq_none_iff {f : Builtin} {n : Nat} :
    (Callee.builtin f).fault? n = none ↔ ∃ a, f.arity? = some a ∧ a.admits n = true :=
  callFault?_eq_none_iff

/-- Goes on if nothing is wrong. -/
def raise : Option Fault → Except Fault Unit
  | none => .ok ()
  | some f => .error f

theorem raise_callFault? (arity? : Option Arity) (name : String) (unknown : Error) (n : Nat) :
    raise (callFault? arity? name unknown n) =
      match arity? with
      | none => .error (.error unknown)
      | some a => a.check name n := by
  cases arity? with
  | none => rfl
  | some a =>
    simp only [callFault?, Arity.check]
    split
    · rfl
    · rfl

theorem Operator.check_eq (op : Operator) (n : Nat) :
    op.check n = raise ((Callee.operator op).fault? n) := (raise_callFault? _ _ _ n).symm

theorem Builtin.check_eq (f : Builtin) (n : Nat) :
    f.check n = raise ((Callee.builtin f).fault? n) := (raise_callFault? _ _ _ n).symm

/-- The functions that can be called with so many arguments. -/
theorem Builtin.cases_of_fault?_none {f : Builtin} {n : Nat}
    (h : (Callee.builtin f).fault? n = none) :
    f = .sqrt ∧ n = 1 ∨ f = .pow ∧ n = 2 ∨ f = .choose ∧ n = 3 := by
  obtain ⟨a, harity, hadmits⟩ := fault?_eq_none_iff.mp h
  have hcount (m : Nat) : Arity.exactly m = a → n = m := by
    rintro rfl
    rwa [Arity.admits_exactly, decide_eq_true_eq] at hadmits
  cases f with
  | sqrt => exact Or.inl ⟨rfl, hcount 1 (Option.some.inj harity)⟩
  | pow => exact Or.inr (Or.inl ⟨rfl, hcount 2 (Option.some.inj harity)⟩)
  | choose => exact Or.inr (Or.inr ⟨rfl, hcount 3 (Option.some.inj harity)⟩)
  | unknown code => cases harity

/-- Dividing is the only computation that can fail. -/
theorem Operator.eq_div_of_combine_error {op : Operator} {xs : List Float} {e : Error}
    (h : op.combine xs = .error (.error e)) : op = .div := by
  cases op with
  | div => rfl
  | _ =>
    -- every other operator gives a value, or looks for an argument that is not there
    rcases xs with _ | ⟨x, _ | ⟨y, rest⟩⟩ <;> cases h

/-- From as many values as a callee takes something can be computed, except by dividing. -/
theorem Callee.exists_compute {callee : Callee} {xs : List Float}
    (h : callee.fault? xs.length = none) (hchoose : callee ≠ .builtin .choose)
    (hdiv : callee ≠ .operator .div) : ∃ x, callee.compute xs = .ok x := by
  cases callee with
  | nothing e => cases h
  | builtin f =>
    rcases Builtin.cases_of_fault?_none h with ⟨rfl, hlength⟩ | ⟨rfl, hlength⟩ | ⟨rfl, -⟩
    · obtain ⟨x, rfl⟩ := List.length_eq_one_iff.mp hlength
      exact ⟨x.sqrt, rfl⟩
    · obtain ⟨x, y, rfl⟩ := List.length_eq_two.mp hlength
      exact ⟨Power.power x y, rfl⟩
    · exact absurd rfl hchoose
  | operator op =>
    have hcheck : op.check xs.length = .ok () := by rw [op.check_eq, h]; rfl
    cases hresult : op.combine xs with
    | ok x => exact ⟨x, hresult⟩
    | error f =>
      obtain ⟨e, rfl, -⟩ := Operator.combine_concludes hcheck f hresult
      rw [Operator.eq_div_of_combine_error hresult] at hdiv
      exact absurd rfl hdiv

/-! ## Local faults -/

/-- What is wrong with an expression by itself: a name without a value, or a call of something that
    is not known or does not take that many arguments. -/
def Expr.fault? (env : Environment) : Expr → Option Fault
  | .number _ => none
  | .var name =>
    match env.vars.find? name, Constant.ofName? name with
    | none, none => some (.error (.undefinedName name))
    | _, _ => none
  | .call head args => (env.callee head).fault? args.length
  | .missing => some .crash

theorem Environment.lookup_of_fault?_none {env : Environment} {name : String}
    (h : (Expr.var name).fault? env = none) : ∃ x, env.lookup name = .ok x := by
  rw [Expr.fault?] at h
  rw [lookup]
  cases hvar : env.vars.find? name with
  | some x => exact ⟨x, rfl⟩
  | none =>
    cases hconst : Constant.ofName? name with
    | none => simp [hvar, hconst] at h
    | some c =>
      obtain ⟨x, hx⟩ := Constant.exists_value_of_ofName? hconst
      exact ⟨x, by simp only [hx]⟩

theorem Environment.lookup_of_fault? {env : Environment} {name : String} {f : Fault}
    (h : (Expr.var name).fault? env = some f) : env.lookup name = .error f := by
  rw [Expr.fault?] at h
  rw [lookup]
  cases hvar : env.vars.find? name with
  | some x => simp [hvar] at h
  | none =>
    cases hconst : Constant.ofName? name with
    | some c => simp [hvar, hconst] at h
    | none =>
      simp only [hvar, hconst, Option.some.injEq] at h
      simp only [h]

namespace Expr

variable {env : Environment}

theorem eval_call (env : Environment) (head : Head) (args : List Expr) :
    eval env (.call head args) =
      match env.callee head with
      | .operator op => do
        op.check args.length
        let xs ← evalAll env args
        op.combine xs
      | .builtin f => evalBuiltin env f args
      | .nothing e => .error (.error e) := by
  cases head with
  | operator op => rw [eval]; rfl
  | unknown code name => rw [eval]; rfl
  | function name =>
    rw [eval, Environment.callee]
    cases env.function? name with
    | none => rfl
    | some f => rfl

theorem evalBuiltin_of_fault? {f : Builtin} {args : List Expr} {fault : Fault}
    (h : (Callee.builtin f).fault? args.length = some fault) :
    evalBuiltin env f args = .error fault := by
  have hcheck : f.check args.length = .error fault := by rw [f.check_eq, h]; rfl
  cases args with
  | nil => rw [evalBuiltin, show f.check 0 = .error fault from hcheck]; rfl
  | cons e₁ rest =>
    rw [evalBuiltin.eq_def]
    simp only [List.length_cons] at hcheck
    dsimp only
    rw [hcheck]
    rfl

/-- A local fault ends the evaluation before any argument is looked at. -/
theorem eval_of_fault? {e : Expr} {f : Fault} (h : e.fault? env = some f) :
    e.eval env = .error f := by
  cases e with
  | number x => cases h
  | var name => rw [eval]; exact Environment.lookup_of_fault? h
  | missing => rw [eval, Option.some.inj h]
  | call head args =>
    rw [fault?] at h
    rw [eval_call]
    cases hcallee : env.callee head with
    | operator op =>
      rw [hcallee] at h
      simp only [op.check_eq, h]
      rfl
    | builtin b =>
      rw [hcallee] at h
      exact evalBuiltin_of_fault? h
    | nothing e =>
      rw [hcallee] at h
      rw [← Option.some.inj h]

/-- A call that is not a choice evaluates all its arguments, and then computes from their values. -/
theorem eval_strict {head : Head} {args : List Expr} (h : (call head args).fault? env = none)
    (hchoose : env.callee head ≠ .builtin .choose) :
    eval env (.call head args) = evalAll env args >>= (env.callee head).compute := by
  rw [fault?] at h
  rw [eval_call]
  cases hcallee : env.callee head with
  | nothing e =>
    rw [hcallee] at h
    cases h
  | operator op =>
    rw [hcallee] at h
    simp only [op.check_eq, h]
    rfl
  | builtin f =>
    rw [hcallee] at h hchoose
    rcases Builtin.cases_of_fault?_none h with ⟨rfl, hlength⟩ | ⟨rfl, hlength⟩ | ⟨rfl, -⟩
    · obtain ⟨a, rfl⟩ := List.length_eq_one_iff.mp hlength
      simp only [evalBuiltin, evalAll]
      cases a.eval env with
      | error f => rfl
      | ok x => rfl
    · obtain ⟨a, b, rfl⟩ := List.length_eq_two.mp hlength
      simp only [evalBuiltin, evalAll]
      cases a.eval env with
      | error f => rfl
      | ok x =>
        cases b.eval env with
        | error f => rfl
        | ok y => rfl
    · exact absurd rfl hchoose

/-- A choice evaluates its condition, and then what the condition selects. -/
theorem eval_choice {head : Head} {args : List Expr} (h : (call head args).fault? env = none)
    (hchoose : env.callee head = .builtin .choose) :
    ∃ c a b, args = [c, a, b] ∧ eval env (.call head args) =
      c.eval env >>= fun x => if isTrue x then a.eval env else b.eval env := by
  rw [fault?, hchoose] at h
  rcases Builtin.cases_of_fault?_none h with ⟨hsqrt, -⟩ | ⟨hpow, -⟩ | ⟨-, hlength⟩
  · cases hsqrt
  · cases hpow
  · obtain ⟨c, a, b, rfl⟩ := List.length_eq_three.mp hlength
    refine ⟨c, a, b, rfl, ?_⟩
    rw [eval_call, hchoose]
    simp only [evalBuiltin]
    rfl

end Expr

/-! ## Demand -/

/-- A call of this head comes to its argument of number `i`, provided that it is not refused. -/
def Environment.Demands (env : Environment) (head : Head) (args : List Expr) (i : Nat) : Prop :=
  if env.callee head = .builtin .choose then
    i = 0 ∨ ∃ c x, args[0]? = some c ∧ c.eval env = .ok x ∧ i = if isTrue x then 1 else 2
  else ∀ j < i, ∃ a x, args[j]? = some a ∧ a.eval env = .ok x

namespace Expr

variable {env env' : Environment} {head head' : Head} {args args' : List Expr}

/-- Lists of arguments that come to the same one by one, up to the first without a value. -/
theorem evalAll_congr (hlength : args.length = args'.length)
    (h : ∀ (k : Nat) (a a' : Expr), args[k]? = some a → args'[k]? = some a' →
      (∀ j < k, ∃ b x, args[j]? = some b ∧ b.eval env = .ok x) → a.eval env = a'.eval env') :
    evalAll env args = evalAll env' args' := by
  induction args generalizing args' with
  | nil =>
    obtain rfl := List.length_eq_zero_iff.mp hlength.symm
    rfl
  | cons e args ih =>
    cases args' with
    | nil => cases hlength
    | cons e' args' =>
      have he := h 0 e e' rfl rfl fun j hj => absurd hj (Nat.not_lt_zero j)
      rw [evalAll, evalAll, ← he]
      cases hx : e.eval env with
      | error f => rfl
      | ok x =>
        have hargs : evalAll env args = evalAll env' args' := by
          refine ih (Nat.succ.inj hlength) fun k a a' ha ha' hbefore => ?_
          refine h (k + 1) a a' ha ha' fun j hj => ?_
          cases j with
          | zero => exact ⟨e, x, rfl, hx⟩
          | succ j => exact hbefore j (by omega)
        rw [hargs]

/-- A call is known by its callee, by how many arguments it has, and by what those of them come to
    that it demands. -/
theorem eval_call_congr_of_demands (hcallee : env.callee head = env'.callee head')
    (hlength : args.length = args'.length)
    (h : (call head args).fault? env = none → ∀ (i : Nat) (a a' : Expr), args[i]? = some a →
      args'[i]? = some a' → env.Demands head args i → a.eval env = a'.eval env') :
    eval env (.call head args) = eval env' (.call head' args') := by
  have hfault : (call head args).fault? env = (call head' args').fault? env' := by
    rw [fault?, fault?, hcallee, hlength]
  cases hlocal : (call head args).fault? env with
  | some f => rw [eval_of_fault? hlocal, eval_of_fault? (hfault ▸ hlocal)]
  | none =>
    have h := h hlocal
    have hlocal' : (call head' args').fault? env' = none := hfault ▸ hlocal
    by_cases hchoose : env.callee head = .builtin .choose
    · obtain ⟨c, a, b, rfl, heval⟩ := eval_choice hlocal hchoose
      obtain ⟨c', a', b', rfl, heval'⟩ := eval_choice hlocal' (hcallee ▸ hchoose)
      simp only [Environment.Demands, if_pos hchoose] at h
      have hc := h 0 c c' rfl rfl (Or.inl rfl)
      rw [heval, heval', ← hc]
      cases hx : c.eval env with
      | error f => rfl
      | ok x =>
        show (if isTrue x then a.eval env else b.eval env) =
          if isTrue x then a'.eval env' else b'.eval env'
        split
        · next htrue => exact h 1 a a' rfl rfl (Or.inr ⟨c, x, rfl, hx, (if_pos htrue).symm⟩)
        · next hfalse => exact h 2 b b' rfl rfl (Or.inr ⟨c, x, rfl, hx, (if_neg hfalse).symm⟩)
    · have hchoose' : env'.callee head' ≠ .builtin .choose := hcallee ▸ hchoose
      simp only [Environment.Demands, if_neg hchoose] at h
      rw [eval_strict hlocal hchoose, eval_strict hlocal' hchoose', hcallee,
        evalAll_congr hlength h]

/-- A call is known by its callee and by what its arguments come to. -/
theorem eval_call_congr (hcallee : env.callee head = env'.callee head')
    (hargs : args.map (eval env) = args'.map (eval env')) :
    eval env (.call head args) = eval env' (.call head' args') := by
  have hlength : args.length = args'.length := by simpa using congrArg List.length hargs
  refine eval_call_congr_of_demands hcallee hlength fun _ i a a' ha ha' _ => ?_
  have hi := congrArg (fun rs => rs[i]?) hargs
  simpa only [List.getElem?_map, ha, ha', Option.map_some, Option.some.injEq] using hi

end Expr

end PrefixCalc
