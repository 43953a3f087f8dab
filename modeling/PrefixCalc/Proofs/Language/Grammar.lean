/-
  The grammar of the language, and why the reader of tokens accepts exactly what it derives.

    line      ::=  call  |  '(' set name value ')'
    call      ::=  '(' head argument* ')'
    head      ::=  operator | name
    argument  ::=  literal | name | call
    value     ::=  literal | call

  1. **Specification** — `Form.Line ts form`: the tokens `ts` are a line of the grammar, and `form`
     is the tree of its derivation.  The rules are stated one by one, with no order of reading in
     them.

  2. **Program** — `Expr.parseArgs` goes through the tokens once and keeps the calls that are open
     on a stack.

  3. **The crux** — what a stack of open calls still asks for is written down as `Closes`.  Reading
     arguments that the grammar derives adds them to the innermost call and does nothing else
     (`parseArgs_append`, by induction on the derivation), and whatever is read successfully closes
     the stack (`closes_of_parseArgs`, by induction along the program).  For an empty stack the two
     say that a call is read exactly if it is derived (`parseCall_iff`).
-/
import Mathlib.Data.List.Forall2
import PrefixCalc.Language.Form.Parse

namespace PrefixCalc

/-! ## The grammar -/

/-- `head ::= operator | name` -/
inductive Head.Derives : Token → Head → Prop
  | operator (op : Operator) : Derives (.operator op) (.operator op)
  | function (n : String) : Derives (.name n) (.function n)

/-- `argument*`, the arguments one after another. -/
inductive Expr.Arguments : List Token → List Expr → Prop
  | nil : Arguments [] []
  | literal (x : Float) {ts : List Token} {es : List Expr} :
      Arguments ts es → Arguments (.literal x :: ts) (.number x :: es)
  | name (n : String) {ts : List Token} {es : List Expr} :
      Arguments ts es → Arguments (.name n :: ts) (.var n :: es)
  | call {t : Token} {head : Head} {us ts : List Token} {args es : List Expr} :
      Head.Derives t head → Arguments us args → Arguments ts es →
        Arguments (.openPar :: t :: (us ++ .closePar :: ts)) (.call head args :: es)

/-- `call ::= '(' head argument* ')'` -/
inductive Expr.Call : List Token → Expr → Prop
  | intro {t : Token} {head : Head} {us : List Token} {args : List Expr} :
      Head.Derives t head → Arguments us args →
        Call (.openPar :: t :: (us ++ [.closePar])) (.call head args)

/-- `value ::= literal | call` -/
inductive Expr.Value : List Token → Expr → Prop
  | literal (x : Float) : Value [.literal x] (.number x)
  | call {ts : List Token} {e : Expr} : Call ts e → Value ts e

/-- `line ::= call | '(' set name value ')'` -/
inductive Form.Line : List Token → Form → Prop
  | call {ts : List Token} {e : Expr} : Expr.Call ts e → Line ts (.expression e)
  | assign (n : String) {ts : List Token} {e : Expr} : Expr.Value ts e →
      Line (.openPar :: .keyword .set :: .name n :: (ts ++ [.closePar]))
        (.statement (.assign n e))

theorem Head.derives_iff {t : Token} {head : Head} :
    Head.Derives t head ↔ Head.ofToken t = .ok head := by
  constructor
  · rintro (op | n)
    · rfl
    · rfl
  · intro h
    cases t with
    | operator op =>
      injection h with h
      exact h ▸ .operator op
    | name n =>
      injection h with h
      exact h ▸ .function n
    | literal _ => nomatch h
    | openPar => nomatch h
    | closePar => nomatch h
    | keyword _ => nomatch h
    | unknown _ => nomatch h

/-- A call may stand before other arguments. -/
theorem Expr.Call.arguments_append {us ts : List Token} {e : Expr} {es : List Expr}
    (h : Expr.Call us e) (hes : Expr.Arguments ts es) : Expr.Arguments (us ++ ts) (e :: es) := by
  cases h with
  | intro hhead hargs =>
    have hcall := Expr.Arguments.call hhead hargs hes
    rwa [List.append_cons] at hcall

/-! ## Open calls -/

namespace OpenCall

/-- The call with more arguments, in order. -/
def addAll (c : OpenCall) (es : List Expr) : OpenCall :=
  { c with reversedArgs := es.reverse ++ c.reversedArgs }

theorem addAll_cons (c : OpenCall) (e : Expr) (es : List Expr) :
    c.addAll (e :: es) = (c.add e).addAll es := by
  rw [addAll, addAll, add, List.reverse_cons, List.append_assoc]
  rfl

/-- A call that is opened, filled and closed. -/
theorem close_addAll (head : Head) (args : List Expr) :
    (OpenCall.addAll { head := head } args).close = .call head args := by
  rw [close, addAll, List.append_nil, List.reverse_reverse]

/-- What a stack of open calls asks for: the tokens close the innermost call after some arguments,
    then the call around it, and so on, and `e` is the outermost call when all are closed. -/
def Closes : List OpenCall → OpenCall → List Token → Expr → Prop
  | [], inner, ts, e =>
    ∃ us args, Expr.Arguments us args ∧ ts = us ++ [.closePar] ∧ e = (inner.addAll args).close
  | outer :: others, inner, ts, e =>
    ∃ us args vs, Expr.Arguments us args ∧ ts = us ++ .closePar :: vs ∧
      Closes others (outer.add (inner.addAll args).close) vs e

/-- Tokens of one more argument may stand in front. -/
theorem Closes.argument {around : List OpenCall} {inner : OpenCall} {x : Expr}
    {ws ts : List Token} {e : Expr} (h : Closes around (inner.add x) ts e)
    (harg : ∀ us args, Expr.Arguments us args → Expr.Arguments (ws ++ us) (x :: args)) :
    Closes around inner (ws ++ ts) e := by
  cases around with
  | nil =>
    obtain ⟨us, args, hargs, rfl, rfl⟩ := h
    exact ⟨ws ++ us, x :: args, harg us args hargs, (List.append_assoc _ _ _).symm,
      by rw [addAll_cons]⟩
  | cons outer others =>
    obtain ⟨us, args, vs, hargs, rfl, hrest⟩ := h
    exact ⟨ws ++ us, x :: args, vs, harg us args hargs, (List.append_assoc _ _ _).symm,
      by rw [addAll_cons]; exact hrest⟩

end OpenCall

/-! ## Reading calls -/

/-- Reading derived arguments adds them to the innermost call. -/
theorem parseArgs_append {us : List Token} {args : List Expr} (h : Expr.Arguments us args)
    (around : List OpenCall) (inner : OpenCall) (rest : List Token) :
    Expr.parseArgs around inner (us ++ rest) = Expr.parseArgs around (inner.addAll args) rest := by
  induction h generalizing around inner rest with
  | nil => rfl
  | literal x _ ih =>
    rw [List.cons_append, Expr.parseArgs, ih, OpenCall.addAll_cons]
  | name n _ ih =>
    rw [List.cons_append, Expr.parseArgs, ih, OpenCall.addAll_cons]
  | call hhead _ _ ihargs ihrest =>
    rw [List.cons_append, List.cons_append, Expr.parseArgs, Head.derives_iff.mp hhead,
      List.append_assoc]
    -- the inner call is read up to its parenthesis, then it is an argument of this one
    show Expr.parseArgs (inner :: around) _ _ = _
    rw [ihargs, List.cons_append, Expr.parseArgs, OpenCall.close_addAll, ihrest,
      OpenCall.addAll_cons]

/-- Whatever is read closes the calls that are open. -/
theorem closes_of_parseArgs {around : List OpenCall} {inner : OpenCall} {ts rest : List Token}
    {e : Expr} (h : Expr.parseArgs around inner ts = .ok (e, rest)) :
    ∃ us, ts = us ++ rest ∧ OpenCall.Closes around inner us e := by
  fun_induction Expr.parseArgs around inner ts with
  | case1 => nomatch h
  | case2 inner ts =>
    injection h with h
    injection h with he hrest
    subst he hrest
    exact ⟨[.closePar], rfl, [], [], .nil, rfl, rfl⟩
  | case3 inner ts outer others ih =>
    obtain ⟨us, rfl, hclose⟩ := ih h
    exact ⟨.closePar :: us, rfl, [], [], us, .nil, rfl, hclose⟩
  | case4 around inner x ts ih =>
    obtain ⟨us, rfl, hclose⟩ := ih h
    have harg : ∀ us es, Expr.Arguments us es →
        Expr.Arguments ([.literal x] ++ us) (.number x :: es) := fun _ _ => .literal x
    exact ⟨.literal x :: us, rfl, hclose.argument harg⟩
  | case5 around inner n ts ih =>
    obtain ⟨us, rfl, hclose⟩ := ih h
    have harg : ∀ us es, Expr.Arguments us es →
        Expr.Arguments ([.name n] ++ us) (.var n :: es) := fun _ _ => .name n
    exact ⟨.name n :: us, rfl, hclose.argument harg⟩
  | case6 => nomatch h
  | case7 around inner t ts head hhead ih =>
    obtain ⟨us, rfl, vs, args, ws, hargs, rfl, hclose⟩ := ih h
    rw [OpenCall.close_addAll] at hclose
    refine ⟨.openPar :: t :: (vs ++ .closePar :: ws), rfl, ?_⟩
    have hcall := Expr.Call.intro (Head.derives_iff.mpr hhead) hargs
    have hclosed := hclose.argument fun _ _ => hcall.arguments_append
    rwa [List.cons_append, List.cons_append, ← List.append_cons] at hclosed
  | case8 => nomatch h
  | case9 => nomatch h
  | case10 => nomatch h
  | case11 => nomatch h

/-- A call is read exactly if it is derived, and what comes after it is left. -/
theorem parseCall_iff {ts rest : List Token} {e : Expr} :
    Expr.parseCall ts = .ok (e, rest) ↔
      ∃ us, ts = us ++ rest ∧ Expr.Call (.openPar :: us) e := by
  constructor
  · intro h
    cases ts with
    | nil => nomatch h
    | cons t ts =>
      rw [Expr.parseCall] at h
      cases hhead : Head.ofToken t with
      | error err => rw [hhead] at h; nomatch h
      | ok head =>
        rw [hhead] at h
        obtain ⟨us, rfl, vs, args, hargs, rfl, rfl⟩ := closes_of_parseArgs h
        rw [OpenCall.close_addAll]
        exact ⟨t :: (vs ++ [.closePar]), rfl, .intro (Head.derives_iff.mpr hhead) hargs⟩
  · rintro ⟨us, rfl, hcall⟩
    cases hcall with
    | intro hhead hargs =>
      rw [List.cons_append, Expr.parseCall, Head.derives_iff.mp hhead, List.append_assoc]
      show Expr.parseArgs [] _ _ = _
      rw [parseArgs_append hargs, List.singleton_append, Expr.parseArgs, OpenCall.close_addAll]

/-! ## Reading lines -/

/-- Reading tells what reading some of the tokens gives, and hands the rest on. -/
theorem bind_eq_ok_iff {α β ε : Type} {x : Except ε α} {f : α → Except ε β} {b : β} :
    (x >>= f) = .ok b ↔ ∃ a, x = .ok a ∧ f a = .ok b := by
  cases x with
  | error e => exact ⟨fun h => (nomatch h), fun ⟨_, h, _⟩ => (nomatch h)⟩
  | ok a => exact ⟨fun h => ⟨a, rfl, h⟩, fun ⟨_, h, hb⟩ => Except.ok.inj h ▸ hb⟩

theorem parseValue_iff {ts rest : List Token} {e : Expr} :
    Statement.parseValue ts = .ok (e, rest) ↔ ∃ us, ts = us ++ rest ∧ Expr.Value us e := by
  constructor
  · intro h
    cases ts with
    | nil => nomatch h
    | cons t ts =>
      cases t with
      | openPar =>
        obtain ⟨us, rfl, hcall⟩ := parseCall_iff.mp h
        exact ⟨.openPar :: us, rfl, .call hcall⟩
      | literal x =>
        injection h with h
        injection h with he hrest
        subst he hrest
        exact ⟨[.literal x], rfl, .literal x⟩
      | closePar => nomatch h
      | operator _ => nomatch h
      | name _ => nomatch h
      | keyword _ => nomatch h
      | unknown _ => nomatch h
  · rintro ⟨us, rfl, x | hcall⟩
    · rfl
    · cases hcall with
      | intro hhead hargs => exact parseCall_iff.mpr ⟨_, rfl, .intro hhead hargs⟩

theorem parseAssign_iff {ts rest : List Token} {s : Statement} :
    Statement.parseAssign ts = .ok (s, rest) ↔
      ∃ n us e, ts = .name n :: (us ++ .closePar :: rest) ∧ Expr.Value us e ∧
        s = .assign n e := by
  constructor
  · intro h
    cases ts with
    | nil => nomatch h
    | cons t ts =>
      cases t with
      | name n =>
        rw [Statement.parseAssign, bind_eq_ok_iff] at h
        obtain ⟨⟨e, after⟩, hread, h⟩ := h
        obtain ⟨us, rfl, hvalue⟩ := parseValue_iff.mp hread
        cases after with
        | nil => nomatch h
        | cons t after =>
          cases t with
          | closePar =>
            injection h with h
            injection h with hs hrest
            exact ⟨n, us, e, by rw [hrest], hvalue, hs.symm⟩
          | literal _ => nomatch h
          | openPar => nomatch h
          | operator _ => nomatch h
          | name _ => nomatch h
          | keyword _ => nomatch h
          | unknown _ => nomatch h
      | literal _ => nomatch h
      | openPar => nomatch h
      | closePar => nomatch h
      | operator _ => nomatch h
      | keyword _ => nomatch h
      | unknown _ => nomatch h
  · rintro ⟨n, us, e, rfl, hvalue, rfl⟩
    rw [Statement.parseAssign, bind_eq_ok_iff]
    exact ⟨(e, .closePar :: rest), parseValue_iff.mpr ⟨us, rfl, hvalue⟩, rfl⟩

/-- Behind the first parenthesis of a line. -/
theorem parseInner_iff {ts rest : List Token} {form : Form} :
    Form.parseInner ts = .ok (form, rest) ↔
      ∃ us, ts = us ++ rest ∧ Form.Line (.openPar :: us) form := by
  constructor
  · intro h
    fun_cases Form.parseInner ts with
    | case1 k ts =>
      rw [Form.parseInner, bind_eq_ok_iff] at h
      obtain ⟨⟨s, after⟩, hs, h⟩ := h
      injection h with h
      injection h with hform hrest
      subst hform hrest
      cases k with
      | set =>
        obtain ⟨n, us, e, rfl, hvalue, rfl⟩ := parseAssign_iff.mp hs
        refine ⟨.keyword .set :: .name n :: (us ++ [.closePar]), ?_, .assign n hvalue⟩
        rw [List.cons_append, List.cons_append, ← List.append_cons]
      | define => nomatch hs
      | unknown _ => nomatch hs
    | case2 ts hkeyword =>
      rw [Form.parseInner.eq_2 ts hkeyword, bind_eq_ok_iff] at h
      obtain ⟨⟨e, after⟩, hread, h⟩ := h
      injection h with h
      injection h with hform hrest
      subst hform hrest
      obtain ⟨us, rfl, hcall⟩ := parseCall_iff.mp hread
      exact ⟨us, rfl, .call hcall⟩
  · rintro ⟨us, rfl, hline⟩
    cases hline with
    | call hcall =>
      have hkeyword : ∀ k vs, us ++ rest = .keyword k :: vs → False := by
        intro k vs hus
        cases hcall with
        | intro hhead _ =>
          injection hus with ht _
          subst ht
          nomatch hhead
      rw [Form.parseInner.eq_2 _ hkeyword, bind_eq_ok_iff]
      exact ⟨_, parseCall_iff.mpr ⟨us, rfl, hcall⟩, rfl⟩
    | assign n hvalue =>
      rw [List.cons_append, List.cons_append, ← List.append_cons, Form.parseInner, bind_eq_ok_iff]
      exact ⟨_, parseAssign_iff.mpr ⟨n, _, _, rfl, hvalue, rfl⟩, rfl⟩

/-- Tokens make up a form exactly if the grammar derives it from all of them. -/
theorem parse_eq_ok_iff {ts : List Token} {form : Form} :
    Form.parse ts = .ok form ↔ Form.Line ts form := by
  constructor
  · intro h
    cases ts with
    | nil => nomatch h
    | cons t ts =>
      cases t with
      | openPar =>
        rw [Form.parse, bind_eq_ok_iff] at h
        obtain ⟨⟨form', after⟩, hread, h⟩ := h
        obtain ⟨us, rfl, hline⟩ := parseInner_iff.mp hread
        cases after with
        | nil =>
          injection h with h
          rw [List.append_nil, ← h]
          exact hline
        | cons _ _ => nomatch h
      | literal _ => nomatch h
      | closePar => nomatch h
      | operator _ => nomatch h
      | name _ => nomatch h
      | keyword _ => nomatch h
      | unknown _ => nomatch h
  · intro hline
    obtain ⟨us, rfl⟩ : ∃ us, ts = .openPar :: us := by
      rcases hline with ⟨⟨_, _⟩⟩ | ⟨_, _⟩
      · exact ⟨_, rfl⟩
      · exact ⟨_, rfl⟩
    rw [Form.parse, bind_eq_ok_iff]
    exact ⟨(form, []), parseInner_iff.mpr ⟨us, (List.append_nil us).symm, hline⟩, rfl⟩

/-! ## Tokens built by hand -/

/-- Two records are of one kind and agree in the field of that kind. -/
structure TokenRecord.Agree (r r' : TokenRecord) : Prop where
  kind : r.kind = r'.kind
  value : TokenKind.ofCode r.kind = .literal → r.value = r'.value
  op : TokenKind.ofCode r.kind = .operator → r.op = r'.op
  name : TokenKind.ofCode r.kind = .name → r.name = r'.name
  keyword : TokenKind.ofCode r.kind = .keyword → r.keyword = r'.keyword

theorem TokenRecord.Agree.token_eq {r r' : TokenRecord} (h : r.Agree r') : r'.token = r.token := by
  obtain ⟨hkind, hvalue, hop, hname, hkeyword⟩ := h
  rw [TokenRecord.token, TokenRecord.token, ← hkind]
  cases hk : TokenKind.ofCode r.kind with
  | literal => rw [hvalue hk]
  | openPar => rfl
  | closePar => rfl
  | operator => rw [hop hk]
  | name => rw [hname hk]
  | keyword => rw [hkeyword hk]
  | unknown _ => rfl

theorem TokenRecord.map_token_eq {rs rs' : List TokenRecord}
    (h : List.Forall₂ TokenRecord.Agree rs rs') : rs'.map (·.token) = rs.map (·.token) := by
  induction h with
  | nil => rfl
  | cons hr _ ih => rw [List.map_cons, List.map_cons, hr.token_eq, ih]

/-- **What is read is what the grammar derives.**  Tokens of any kinds, operators and keywords, in
    range or not, give a form exactly if the grammar derives it from the whole list; all others
    give an error; and of tokens built by hand only the fields of their own kinds matter. -/
theorem parse_iff_line (ts : List Token) :
    (∀ form, Form.parse ts = .ok form ↔ Form.Line ts form) ∧
    ((∀ form, ¬ Form.Line ts form) → ∃ e, Form.parse ts = .error e) ∧
    (∀ rs rs' : List TokenRecord, rs.map (·.token) = ts → List.Forall₂ TokenRecord.Agree rs rs' →
      Form.parse (rs'.map (·.token)) = Form.parse ts) := by
  refine ⟨fun form => parse_eq_ok_iff, fun hnone => ?_, fun rs rs' hrs hagree => ?_⟩
  · cases h : Form.parse ts with
    | ok form => exact absurd (parse_eq_ok_iff.mp h) (hnone form)
    | error e => exact ⟨e, rfl⟩
  · rw [TokenRecord.map_token_eq hagree, hrs]

end PrefixCalc
