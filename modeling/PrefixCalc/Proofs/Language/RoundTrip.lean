/-
  Writing a tree and reading a line are inverse to each other.

  1. **Line trees** — `Form.IsLineTree` says which trees belong to the language: calls of operators
     and functions, assignments of a number or a call, and inside them numbers, variables and calls
     to any depth, with names that are names and numbers that have a word.

  2. **Reading gives line trees** (`isLineTree_of_ofLine`) — the tokens of a line are lawful, and
     the derivation of a line from lawful tokens builds a line tree, rule by rule.

  3. **Line trees are read back** (`ofLine_text`) — by induction on the tree: its text is scanned as
     the tokens of a derivation.  The text of the arguments always ends at a delimiter, the space
     before the next argument or the parenthesis that closes the call, so the words in it stay
     apart.
-/
import PrefixCalc.Environment.Evaluate
import PrefixCalc.Proofs.Language.Grammar
import PrefixCalc.Proofs.Language.Spelling

namespace PrefixCalc

/-! ## Line trees -/

/-- The head of a call in the language: an operator of the table, or a name. -/
inductive Head.IsLineHead : Head → Prop
  | operator {op : Operator} : op ∈ Operator.all → IsLineHead (.operator op)
  | function {n : String} : Token.scan (Utf8.ofString n) = .ok [.name n] → IsLineHead (.function n)

/-- The expressions that can stand as an argument. -/
inductive Expr.IsArgument : Expr → Prop
  | number {x : Float} : IsWritable x → IsArgument (.number x)
  | var {n : String} : Token.scan (Utf8.ofString n) = .ok [.name n] → IsArgument (.var n)
  | call {head : Head} {args : List Expr} : head.IsLineHead → (∀ e ∈ args, IsArgument e) →
      IsArgument (.call head args)

/-- The expressions that can be assigned: numbers and calls. -/
inductive Expr.IsAssignable : Expr → Prop
  | number {x : Float} : IsArgument (.number x) → IsAssignable (.number x)
  | call {head : Head} {args : List Expr} : IsArgument (.call head args) →
      IsAssignable (.call head args)

/-- The trees of the language. -/
inductive Form.IsLineTree : Form → Prop
  | call {head : Head} {args : List Expr} : (Expr.call head args).IsArgument →
      IsLineTree (.expression (.call head args))
  | assign {n : String} {e : Expr} : Token.scan (Utf8.ofString n) = .ok [.name n] →
      e.IsAssignable → IsLineTree (.statement (.assign n e))

/-! ## From a line to its tree -/

theorem Head.Derives.isLineHead {t : Token} {head : Head} (h : Head.Derives t head)
    (hlawful : t.IsLawful) : head.IsLineHead := by
  cases h with
  | operator op => exact .operator hlawful
  | function n => exact .function hlawful

theorem Expr.Arguments.isArgument {ts : List Token} {es : List Expr} (h : Expr.Arguments ts es)
    (hlawful : ∀ t ∈ ts, t.IsLawful) : ∀ e ∈ es, e.IsArgument := by
  induction h with
  | nil => nofun
  | @literal x ts es _ ih =>
    obtain ⟨hx, hts⟩ := List.forall_mem_cons.1 hlawful
    exact List.forall_mem_cons.2 ⟨.number hx, ih hts⟩
  | @name n ts es _ ih =>
    obtain ⟨hn, hts⟩ := List.forall_mem_cons.1 hlawful
    exact List.forall_mem_cons.2 ⟨.var hn, ih hts⟩
  | @call t head us ts args es hhead _ _ ihargs ihrest =>
    have ht : t.IsLawful := hlawful t (by simp)
    have hus : ∀ u ∈ us, u.IsLawful := fun u hu => hlawful u (by simp [hu])
    have hts : ∀ u ∈ ts, u.IsLawful := fun u hu => hlawful u (by simp [hu])
    exact List.forall_mem_cons.2 ⟨.call (hhead.isLineHead ht) (ihargs hus), ihrest hts⟩

theorem Expr.Call.isArgument {ts : List Token} {e : Expr} (h : Expr.Call ts e)
    (hlawful : ∀ t ∈ ts, t.IsLawful) :
    ∃ head args, e = .call head args ∧ (Expr.call head args).IsArgument := by
  cases h with
  | @intro t head us args hhead hargs =>
    have ht : t.IsLawful := hlawful t (by simp)
    have hus : ∀ u ∈ us, u.IsLawful := fun u hu => hlawful u (by simp [hu])
    exact ⟨head, args, rfl, .call (hhead.isLineHead ht) (hargs.isArgument hus)⟩

theorem Form.Line.isLineTree {ts : List Token} {form : Form} (h : Form.Line ts form)
    (hlawful : ∀ t ∈ ts, t.IsLawful) : form.IsLineTree := by
  cases h with
  | call hcall =>
    obtain ⟨head, args, rfl, harg⟩ := hcall.isArgument hlawful
    exact .call harg
  | @assign n ts e hvalue =>
    have hn : (Token.name n).IsLawful := hlawful _ (by simp)
    have hts : ∀ t ∈ ts, t.IsLawful := fun t ht => hlawful t (by simp [ht])
    refine .assign hn ?_
    cases hvalue with
    | literal x => exact .number (.number (hts _ List.mem_cons_self))
    | call hcall =>
      obtain ⟨head, args, rfl, harg⟩ := hcall.isArgument hts
      exact .call harg

theorem ofLine_eq_ok_iff {line : Bytes} {form : Form} :
    Form.ofLine line = .ok form ↔ ∃ ts, Token.scan line = .ok ts ∧ Form.Line ts form := by
  rw [Form.ofLine, scan_trim, bind_eq_ok_iff]
  exact exists_congr fun ts => and_congr_right fun _ => parse_eq_ok_iff

theorem isLineTree_of_ofLine {line : Bytes} {form : Form} (h : Form.ofLine line = .ok form) :
    form.IsLineTree := by
  obtain ⟨ts, hscan, hline⟩ := ofLine_eq_ok_iff.1 h
  exact hline.isLineTree (isLawful_of_scan hscan)

/-! ## From a tree to its line -/

/-- The text of an expression is scanned as tokens that stand for it among arguments. -/
def Expr.IsReadBack (e : Expr) : Prop :=
  ∃ ws, Writes e.text.toList ws ∧
    ∀ ts es, Expr.Arguments ts es → Expr.Arguments (ws ++ ts) (e :: es)

theorem Head.IsLineHead.writes {head : Head} (h : head.IsLineHead) :
    ∃ t, Head.Derives t head ∧ Writes head.text.toList [t] := by
  cases h with
  | @operator op hop => exact ⟨.operator op, .operator op, @writes_text (.operator op) hop⟩
  | @function n hn => exact ⟨.name n, .function n, @writes_text (.name n) hn⟩

/-- Arguments up to the parenthesis that closes their call: a delimiter comes first. -/
theorem writes_argsText {args : List Expr} (h : ∀ e ∈ args, e.IsReadBack) :
    ∃ us d ds, Expr.Arguments us args ∧ isDelimiter d = true ∧
      (Expr.argsText args).toList ++ [')'] = d :: ds ∧ Writes (d :: ds) (us ++ [.closePar]) := by
  induction args with
  | nil => exact ⟨[], ')', [], .nil, rfl, rfl, writes_nil.cons_closePar⟩
  | cons e args ih =>
    obtain ⟨⟨ws, hws, harg⟩, hargs⟩ := List.forall_mem_cons.1 h
    obtain ⟨us, d, ds, hus, hd, htext, hds⟩ := ih hargs
    refine ⟨ws ++ us, ' ', e.text.toList ++ d :: ds, harg us args hus, rfl, ?_, ?_⟩
    · rw [Expr.argsText, String.toList_append, String.toList_append, List.append_assoc, htext]
      rfl
    · rw [List.append_assoc]
      exact (hws.append_delimiter hd hds).cons_space

theorem writes_call {head : Head} {args : List Expr} (hhead : head.IsLineHead)
    (hargs : ∀ e ∈ args, e.IsReadBack) :
    ∃ ts, Expr.Call ts (.call head args) ∧ Writes (Expr.call head args).text.toList ts := by
  obtain ⟨t, ht, hthead⟩ := hhead.writes
  obtain ⟨us, d, ds, hus, hd, htext, hds⟩ := writes_argsText hargs
  refine ⟨_, .intro ht hus, ?_⟩
  have hclose : ")".toList = [')'] := rfl
  rw [Expr.text, String.toList_append, String.toList_append, String.toList_append,
    List.append_assoc, List.append_assoc, hclose, htext]
  exact (hthead.append_delimiter hd hds).cons_openPar

theorem Expr.IsArgument.isReadBack {e : Expr} (h : e.IsArgument) : e.IsReadBack := by
  induction h with
  | @number x hx => exact ⟨[.literal x], @writes_text (.literal x) hx, fun _ _ => .literal x⟩
  | @var n hn => exact ⟨[.name n], @writes_text (.name n) hn, fun _ _ => .name n⟩
  | call hhead _ ih =>
    obtain ⟨ws, hcall, hwrites⟩ := writes_call hhead ih
    exact ⟨ws, hwrites, fun _ _ => hcall.arguments_append⟩

theorem Expr.IsArgument.exists_call_writes {head : Head} {args : List Expr}
    (h : (Expr.call head args).IsArgument) :
    ∃ ts, Expr.Call ts (.call head args) ∧ Writes (Expr.call head args).text.toList ts := by
  cases h with
  | call hhead hargs => exact writes_call hhead fun e he => (hargs e he).isReadBack

/-- What is assigned is written as a value of the grammar. -/
theorem Expr.IsAssignable.writes {e : Expr} (h : e.IsAssignable) :
    ∃ ts, Expr.Value ts e ∧ Writes e.text.toList ts := by
  cases h with
  | @number x harg =>
    cases harg with
    | number hx => exact ⟨[.literal x], .literal x, @writes_text (.literal x) hx⟩
  | call harg =>
    obtain ⟨ts, hcall, hwrites⟩ := harg.exists_call_writes
    exact ⟨ts, .call hcall, hwrites⟩

theorem Form.IsLineTree.writes {form : Form} (h : form.IsLineTree) :
    ∃ ts, Form.Line ts form ∧ Writes form.text.toList ts := by
  cases h with
  | call harg =>
    obtain ⟨ts, hcall, hwrites⟩ := harg.exists_call_writes
    exact ⟨ts, .call hcall, hwrites⟩
  | @assign n e hn hvalue =>
    obtain ⟨ts, hts, hwrites⟩ := hvalue.writes
    refine ⟨_, .assign n hts, ?_⟩
    -- word by word from the end: each is followed by a space or by the last parenthesis
    have hend := hwrites.append_delimiter rfl writes_nil.cons_closePar
    have hname := (@writes_text (.name n) hn).append_delimiter rfl hend.cons_space
    have hset := (@writes_keyword .set List.mem_cons_self).append_delimiter rfl hname.cons_space
    have htext : (Form.statement (.assign n e)).text.toList =
        '(' :: (Keyword.name .set).toList ++
          ' ' :: (n.toList ++ ' ' :: (e.text.toList ++ [')'])) := by
      simp [Form.text, Statement.text, Statement.assign, StatementKind.keyword]
    rw [htext]
    exact hset.cons_openPar

theorem ofLine_text {form : Form} (h : form.IsLineTree) :
    Form.ofLine (Utf8.ofString form.text) = .ok form := by
  obtain ⟨ts, hline, hwrites⟩ := h.writes
  exact ofLine_eq_ok_iff.2 ⟨ts, scan_ofString_iff.2 hwrites, hline⟩

/-- **Writing and reading are inverse on the language.**  Reading a line gives a line tree; a line
    tree is read back from its text, with every number equal in all its bits; and so a line may be
    replaced by the text of its tree without any change in what running it does. -/
theorem ofLine_text_inverse :
    (∀ line form, Form.ofLine line = .ok form → form.IsLineTree) ∧
    (∀ form : Form, form.IsLineTree → Form.ofLine (Utf8.ofString form.text) = .ok form) ∧
    (∀ line form, Form.ofLine line = .ok form →
      ∀ env : Environment, env.run (Utf8.ofString form.text) = env.run line) := by
  refine ⟨fun line form => isLineTree_of_ofLine, fun form => ofLine_text, ?_⟩
  intro line form h env
  rw [Environment.run, Environment.run, h, ofLine_text (isLineTree_of_ofLine h)]

end PrefixCalc
