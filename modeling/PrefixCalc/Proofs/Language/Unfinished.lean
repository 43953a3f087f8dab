/-
  Unfinished lines are recognised exactly.

  1. **Specification** — tokens are unfinished if they can be continued to a line of the language.
     Three messages say that the tokens ended too early, and they are given by three errors only
     (`Error.message_mem_endMessages_iff`).

  2. **Program** — the reader takes each token as it comes, and an error ends it at once.

  3. **The crux** — what reading some tokens foretells about reading more of them (`Foretells`): what
     was read stays as it is and the rest grows, or the tokens ended too early and some
     continuation is read to its end, or no continuation makes a difference to the error.  One
     reader after another foretells if both do (`Foretells.bind`), and the reader of arguments does
     by induction along the program, since any stack of open calls can be closed
     (`parseArgs_closing`).
-/
import PrefixCalc.Language.Form.Parse

namespace PrefixCalc

/-! ## Errors at the end of the tokens -/

/-- The text begins with these characters. -/
def BeginsWith (cs : List Char) (s : String) : Prop := cs <+: s.toList

theorem beginsWith_append (s t : String) : BeginsWith s.toList (s ++ t) := by
  rw [BeginsWith, String.toList_append]
  exact List.prefix_append _ _

theorem BeginsWith.append {cs : List Char} {s : String} (h : BeginsWith cs s) (t : String) :
    BeginsWith cs (s ++ t) := by
  rw [BeginsWith, String.toList_append]
  exact h.trans (List.prefix_append _ _)

theorem BeginsWith.append_left {cs : List Char} {t : String} (h : BeginsWith cs t) (s : String) :
    BeginsWith (s.toList ++ cs) (s ++ t) := by
  rw [BeginsWith, String.toList_append]
  exact (List.prefix_append_right_inj _).mpr h

/-- The kinds of tokens are called by names with a capital letter. -/
theorem TokenKind.beginsWith_label (k : TokenKind) :
    ∃ c ∈ ['L', 'R', 'O', 'N', 'K', 'T'], BeginsWith [c] k.label := by
  have hknown : ∀ label : String, ∀ c, label.toList.head? = some c → BeginsWith [c] label := by
    intro label c h
    obtain ⟨cs, hcs⟩ := List.head?_eq_some_iff.mp h
    exact ⟨cs, hcs.symm⟩
  cases k with
  | literal => exact ⟨'L', by decide, hknown _ _ rfl⟩
  | openPar => exact ⟨'L', by decide, hknown _ _ rfl⟩
  | closePar => exact ⟨'R', by decide, hknown _ _ rfl⟩
  | operator => exact ⟨'O', by decide, hknown _ _ rfl⟩
  | name => exact ⟨'N', by decide, hknown _ _ rfl⟩
  | keyword => exact ⟨'K', by decide, hknown _ _ rfl⟩
  | unknown code => exact ⟨'T', by decide, ((hknown "TokenKind(" 'T' rfl).append _).append _⟩

namespace Error

/-- The tokens ended too early. -/
def isAtEnd : Error → Bool
  | unclosedExpression => true
  | unexpectedEnd => true
  | unclosedStatement => true
  | _ => false

/-- The messages that say so. -/
def endMessages : List String :=
  ["Unable to find last parentheses of expression", "Unexpected end of token-stream",
    "Unable to find last parentheses of statement"]

/-- A text that begins otherwise than these messages is none of them. -/
theorem notMem_endMessages {cs : List Char} {s : String} (h : BeginsWith cs s)
    (hcs : ∀ t ∈ endMessages, ¬ cs <+: t.toList) : s ∉ endMessages :=
  fun hmem => hcs s hmem h

theorem insteadOf_notMem (found : Token) (expected : String) :
    insteadOf found expected ∉ endMessages := by
  obtain ⟨c, hc, hlabel⟩ := found.kind.beginsWith_label
  have hbegin := hlabel.append_left "Unexpected "
  -- the one message that begins so goes on with a small letter
  have hcapital : ∀ t ∈ endMessages, ¬ "Unexpected ".toList ++ [c] <+: t.toList := by
    simp only [List.mem_cons, List.not_mem_nil, or_false] at hc
    rcases hc with rfl | rfl | rfl | rfl | rfl | rfl <;> decide
  exact notMem_endMessages ((((hbegin.append _).append _).append _).append _) hcapital

/-- The three messages belong to the three errors, and to no others. -/
theorem message_mem_endMessages_iff (e : Error) :
    e.message ∈ endMessages ↔ e.isAtEnd = true := by
  have other {e : Error} (hend : e.isAtEnd = false) (h : e.message ∉ endMessages) :
      e.message ∈ endMessages ↔ e.isAtEnd = true := iff_of_false h (by rw [hend]; decide)
  have starts {e : Error} (s t : String) (hmessage : e.message = s ++ t) (hend : e.isAtEnd = false)
      (hs : ∀ m ∈ endMessages, ¬ s.toList <+: m.toList) :
      e.message ∈ endMessages ↔ e.isAtEnd = true :=
    other hend (hmessage ▸ notMem_endMessages (beginsWith_append s t) hs)
  cases e with
  | unclosedExpression => decide
  | unexpectedEnd => decide
  | unclosedStatement => decide
  | notParenthesized => decide
  | definition => decide
  | divisionByZero => decide
  | nothingToEvaluate => decide
  | invalidNumber word => exact starts "Invalid number " _ rfl rfl (by decide)
  | unrecognizedWord word => exact starts "Unrecognized token " _ rfl rfl (by decide)
  | invalidHead t => exact starts "Invalid first token " _ rfl rfl (by decide)
  | unexpectedKind kind => exact starts "Unexpected token " _ rfl rfl (by decide)
  | unknownKeyword k => exact starts "Unknown keyword " _ rfl rfl (by decide)
  | unknownOperator op => exact starts "Unknown operator " _ rfl rfl (by decide)
  | unknownBuiltin f => exact starts "Unknown function " _ rfl rfl (by decide)
  | unknownFunction name => exact starts "Unknown function " _ rfl rfl (by decide)
  | undefinedName name => exact starts "Undefined constant " _ rfl rfl (by decide)
  | invalidExpression kind => exact starts "Invalid expression kind " _ rfl rfl (by decide)
  | invalidStatement kind => exact starts "Invalid statement kind " _ rfl rfl (by decide)
  | misplacedOperator op =>
    exact starts "Operator " _ (String.append_assoc ..) rfl (by decide)
  | misplacedKeyword k => exact starts "Keyword " _ (String.append_assoc ..) rfl (by decide)
  | trailingToken t => exact starts "Unexpected token " _ (String.append_assoc ..) rfl (by decide)
  | wrongCount name arity =>
    have hquote : BeginsWith "'".toList (wrongCount name arity).message :=
      ((((beginsWith_append "'" name).append _).append _).append _)
    exact other rfl (notMem_endMessages hquote (by decide))
  | expectedName found => exact other rfl (insteadOf_notMem found _)
  | expectedValue found => exact other rfl (insteadOf_notMem found _)
  | expectedClose found => exact other rfl (insteadOf_notMem found _)

end Error

/-! ## What reading foretells -/

/-- What reading some tokens tells about reading more of them. -/
inductive Foretells {α : Type} (read : List Token → Except Error (α × List Token))
    (ts : List Token) : Prop
  /-- What was read stays as it is, and further tokens are left. -/
  | done (a : α) (rest : List Token) : (∀ more, read (ts ++ more) = .ok (a, rest ++ more)) →
      Foretells read ts
  /-- The tokens ended too early, and others can follow. -/
  | awaits (e : Error) (more : List Token) (a : α) : e.isAtEnd = true → read ts = .error e →
      read (ts ++ more) = .ok (a, []) → Foretells read ts
  /-- The error is there whatever follows. -/
  | refused (e : Error) : e.isAtEnd = false → (∀ more, read (ts ++ more) = .error e) →
      Foretells read ts

namespace Foretells

variable {α β : Type} {read : List Token → Except Error (α × List Token)}

/-- An error at the first token, whatever follows. -/
theorem refused_cons {t : Token} {e : Error} (he : e.isAtEnd = false)
    (h : ∀ us, read (t :: us) = .error e) (ts : List Token) : Foretells read (t :: ts) :=
  .refused e he fun more => h (ts ++ more)

/-- Where reading comes to what another reader makes of other tokens, whatever follows. -/
theorem of_eq {read' : List Token → Except Error (α × List Token)} {ts us : List Token}
    (h : Foretells read' ts) (heq : ∀ more, read (us ++ more) = read' (ts ++ more)) :
    Foretells read us := by
  cases h with
  | done a rest hdone => exact .done a rest fun more => (heq more).trans (hdone more)
  | awaits e more a he herror hmore =>
    have hself := heq []
    rw [List.append_nil, List.append_nil] at hself
    exact .awaits e more a he (hself.trans herror) ((heq more).trans hmore)
  | refused e he hrefused => exact .refused e he fun more => (heq more).trans (hrefused more)

/-- A result that is found with some tokens left is found with more tokens left. -/
theorem append_of_ok {ts rest : List Token} {a : α} (h : Foretells read ts)
    (hread : read ts = .ok (a, rest)) (more : List Token) :
    read (ts ++ more) = .ok (a, rest ++ more) := by
  cases h with
  | done a' rest' hdone =>
    have hsame := hdone []
    rw [List.append_nil, List.append_nil, hread] at hsame
    cases hsame
    exact hdone more
  | awaits e _ _ _ herror _ =>
    rw [hread] at herror
    cases herror
  | refused e _ hrefused =>
    have herror := hrefused []
    rw [List.append_nil, hread] at herror
    cases herror

/-- One reader after another.  For the second one to be awaited there must be tokens that it reads to
    their end. -/
theorem bind (hread : ∀ ts, Foretells read ts) {next : α → List Token → Except Error (β × List Token)}
    (hnext : ∀ a ts, Foretells (next a) ts) (hend : ∀ a, ∃ us b, next a us = .ok (b, []))
    (ts : List Token) : Foretells (fun us => read us >>= fun p => next p.1 p.2) ts := by
  cases hread ts with
  | done a rest hdone =>
    have hthen : ∀ more, (read (ts ++ more) >>= fun p => next p.1 p.2) = next a (rest ++ more) := by
      intro more
      rw [hdone more]
      rfl
    exact (hnext a rest).of_eq hthen
  | awaits e more a he herror hmore =>
    -- first what the first reader awaits, then something for the second one
    obtain ⟨us, b, hus⟩ := hend a
    have hboth := (hread (ts ++ more)).append_of_ok hmore us
    rw [List.append_assoc, List.nil_append] at hboth
    refine .awaits e (more ++ us) b he ?_ ?_
    · rw [herror]
      rfl
    · show (read (ts ++ (more ++ us)) >>= fun p => next p.1 p.2) = _
      rw [hboth]
      exact hus
  | refused e he hrefused =>
    refine .refused e he fun more => ?_
    show (read (ts ++ more) >>= fun p => next p.1 p.2) = _
    rw [hrefused more]
    rfl

/-- The same result under another name. -/
theorem map (hread : ∀ ts, Foretells read ts) (f : α → β) (ts : List Token) :
    Foretells (fun us => read us >>= fun p => .ok (f p.1, p.2)) ts := by
  have hnext : ∀ a us, Foretells (fun vs => .ok (f a, vs)) us :=
    fun a us => .done (f a) us fun _ => rfl
  exact bind hread hnext (fun a => ⟨[], f a, rfl⟩) ts

end Foretells

/-! ## Readers -/

theorem Head.ofToken_error {t : Token} {e : Error} (h : Head.ofToken t = .error e) :
    e.isAtEnd = false := by
  cases t with
  | operator op => cases h
  | name n => cases h
  | literal x => cases h; rfl
  | openPar => cases h; rfl
  | closePar => cases h; rfl
  | keyword k => cases h; rfl
  | unknown code => cases h; rfl

/-- Any stack of open calls can be closed. -/
theorem parseArgs_closing (around : List OpenCall) (inner : OpenCall) :
    ∃ ts e, Expr.parseArgs around inner ts = .ok (e, []) := by
  induction around generalizing inner with
  | nil => exact ⟨[.closePar], inner.close, rfl⟩
  | cons outer others ih =>
    obtain ⟨ts, e, hts⟩ := ih (outer.add inner.close)
    exact ⟨.closePar :: ts, e, hts⟩

theorem parseArgs_foretells (around : List OpenCall) (inner : OpenCall) (ts : List Token) :
    Foretells (Expr.parseArgs around inner) ts := by
  fun_induction Expr.parseArgs around inner ts with
  | case1 around inner =>
    obtain ⟨us, e, hus⟩ := parseArgs_closing around inner
    exact .awaits .unclosedExpression us e rfl rfl hus
  | case2 inner ts => exact .done inner.close ts fun _ => rfl
  | case3 inner ts outer others ih => exact ih.of_eq fun _ => rfl
  | case4 around inner x ts ih => exact ih.of_eq fun _ => rfl
  | case5 around inner n ts ih => exact ih.of_eq fun _ => rfl
  | case6 around inner =>
    -- a head, and then all calls are closed
    obtain ⟨us, e, hus⟩ := parseArgs_closing (inner :: around) { head := .operator .add }
    exact .awaits .unclosedExpression (.operator .add :: us) e rfl rfl hus
  | case7 around inner t ts head hhead ih =>
    refine ih.of_eq fun more => ?_
    show Expr.parseArgs around inner (.openPar :: t :: (ts ++ more)) = _
    rw [Expr.parseArgs, hhead]
  | case8 around inner t ts e hhead =>
    refine .refused e (Head.ofToken_error hhead) fun more => ?_
    show Expr.parseArgs around inner (.openPar :: t :: (ts ++ more)) = _
    rw [Expr.parseArgs, hhead]
  | case9 around inner op ts => exact .refused_cons rfl (fun _ => rfl) ts
  | case10 around inner k ts => exact .refused_cons rfl (fun _ => rfl) ts
  | case11 around inner code ts => exact .refused_cons rfl (fun _ => rfl) ts

theorem parseCall_foretells (ts : List Token) : Foretells Expr.parseCall ts := by
  cases ts with
  | nil =>
    obtain ⟨us, e, hus⟩ := parseArgs_closing [] { head := .operator .add }
    exact .awaits .unclosedExpression (.operator .add :: us) e rfl rfl hus
  | cons t ts =>
    cases hhead : Head.ofToken t with
    | error e =>
      refine .refused_cons (Head.ofToken_error hhead) (fun us => ?_) ts
      rw [Expr.parseCall, hhead]
      rfl
    | ok head =>
      refine (parseArgs_foretells [] { head := head } ts).of_eq fun more => ?_
      show Expr.parseCall (t :: (ts ++ more)) = _
      rw [Expr.parseCall, hhead]
      rfl

theorem parseValue_foretells (ts : List Token) : Foretells Statement.parseValue ts := by
  cases ts with
  | nil => exact .awaits .unexpectedEnd [.literal 0] (.number 0) rfl rfl rfl
  | cons t ts =>
    cases t with
    | openPar => exact (parseCall_foretells ts).of_eq fun _ => rfl
    | literal x => exact .done (.number x) ts fun _ => rfl
    | closePar => exact .refused_cons rfl (fun _ => rfl) ts
    | operator op => exact .refused_cons rfl (fun _ => rfl) ts
    | name n => exact .refused_cons rfl (fun _ => rfl) ts
    | keyword k => exact .refused_cons rfl (fun _ => rfl) ts
    | unknown code => exact .refused_cons rfl (fun _ => rfl) ts

/-- Reads the last parenthesis of a statement. -/
def Statement.parseClose (s : Statement) : List Token → Except Error (Statement × List Token)
  | [] => .error .unclosedStatement
  | .closePar :: rest => .ok (s, rest)
  | t :: _ => .error (.expectedClose t)

theorem parseClose_foretells (s : Statement) (ts : List Token) : Foretells s.parseClose ts := by
  cases ts with
  | nil => exact .awaits .unclosedStatement [.closePar] s rfl rfl rfl
  | cons t ts =>
    cases t with
    | closePar => exact .done s ts fun _ => rfl
    | openPar => exact .refused_cons rfl (fun _ => rfl) ts
    | literal x => exact .refused_cons rfl (fun _ => rfl) ts
    | operator op => exact .refused_cons rfl (fun _ => rfl) ts
    | name n => exact .refused_cons rfl (fun _ => rfl) ts
    | keyword k => exact .refused_cons rfl (fun _ => rfl) ts
    | unknown code => exact .refused_cons rfl (fun _ => rfl) ts

/-- An assignment is its name, its value and its last parenthesis. -/
theorem parseAssign_name (n : String) (ts : List Token) :
    Statement.parseAssign (.name n :: ts) =
      Statement.parseValue ts >>= fun p => (Statement.assign n p.1).parseClose p.2 := rfl

theorem parseAssign_foretells (ts : List Token) : Foretells Statement.parseAssign ts := by
  cases ts with
  | nil =>
    exact .awaits .unexpectedEnd [.name "x", .literal 0, .closePar] (.assign "x" (.number 0)) rfl
      rfl rfl
  | cons t ts =>
    cases t with
    | name n =>
      have hrest := Foretells.bind parseValue_foretells
        (fun e us => parseClose_foretells (.assign n e) us) (fun e => ⟨[.closePar], _, rfl⟩) ts
      exact hrest.of_eq fun more => parseAssign_name n (ts ++ more)
    | openPar => exact .refused_cons rfl (fun _ => rfl) ts
    | closePar => exact .refused_cons rfl (fun _ => rfl) ts
    | literal x => exact .refused_cons rfl (fun _ => rfl) ts
    | operator op => exact .refused_cons rfl (fun _ => rfl) ts
    | keyword k => exact .refused_cons rfl (fun _ => rfl) ts
    | unknown code => exact .refused_cons rfl (fun _ => rfl) ts

theorem parseStatement_foretells (k : Keyword) (ts : List Token) :
    Foretells (Statement.parse k) ts := by
  cases k with
  | set => exact parseAssign_foretells ts
  | define => exact .refused .definition rfl fun _ => rfl
  | unknown code => exact .refused (.unknownKeyword (.unknown code)) rfl fun _ => rfl

theorem parseInner_foretells (ts : List Token) : Foretells Form.parseInner ts := by
  cases ts with
  | nil =>
    obtain ⟨us, e, hus⟩ := parseArgs_closing [] { head := .operator .add }
    refine .awaits .unclosedExpression (.operator .add :: us) (.expression e) rfl rfl ?_
    show (Expr.parseArgs [] _ us >>= fun p => .ok (Form.expression p.1, p.2)) = _
    rw [hus]
    rfl
  | cons t ts =>
    have hcall := Foretells.map parseCall_foretells Form.expression (t :: ts)
    cases t with
    | keyword k =>
      have hstatement := Foretells.map (parseStatement_foretells k) Form.statement ts
      exact hstatement.of_eq fun _ => rfl
    | openPar => exact hcall.of_eq fun _ => rfl
    | closePar => exact hcall.of_eq fun _ => rfl
    | literal x => exact hcall.of_eq fun _ => rfl
    | operator op => exact hcall.of_eq fun _ => rfl
    | name n => exact hcall.of_eq fun _ => rfl
    | unknown code => exact hcall.of_eq fun _ => rfl

/-! ## Lines -/

/-- The tokens can be continued to a line of the language. -/
def IsUnfinished (ts : List Token) : Prop :=
  ∃ us form, ts <+: us ∧ us ≠ ts ∧ Form.parse us = .ok form

theorem isUnfinished_nil : IsUnfinished [] :=
  ⟨[.openPar, .operator .add, .closePar], .expression (.call (.operator .add) []),
    List.nil_prefix, by decide, rfl⟩

theorem parse_openPar_of_ok {ts : List Token} {form : Form}
    (h : Form.parseInner ts = .ok (form, [])) : Form.parse (.openPar :: ts) = .ok form := by
  rw [Form.parse, h]
  rfl

theorem parse_openPar_of_trailing {ts rest : List Token} {t : Token} {form : Form}
    (h : Form.parseInner ts = .ok (form, t :: rest)) :
    Form.parse (.openPar :: ts) = .error (.trailingToken t) := by
  rw [Form.parse, h]
  rfl

theorem parse_openPar_of_error {ts : List Token} {e : Error}
    (h : Form.parseInner ts = .error e) : Form.parse (.openPar :: ts) = .error e := by
  rw [Form.parse, h]
  rfl

/-- Tokens that begin with a parenthesis are a line and nothing more is, or they are unfinished and
    the error tells so, or the error is there whatever follows. -/
theorem parse_openPar_cases (ts : List Token) :
    (∃ form, Form.parse (.openPar :: ts) = .ok form ∧
      ∀ t more, Form.parse (.openPar :: (ts ++ t :: more)) = .error (.trailingToken t)) ∨
    (∃ e, e.isAtEnd = true ∧ Form.parse (.openPar :: ts) = .error e ∧
      ∃ more form, Form.parse (.openPar :: (ts ++ more)) = .ok form) ∨
    (∃ e, e.isAtEnd = false ∧ ∀ more, Form.parse (.openPar :: (ts ++ more)) = .error e) := by
  cases parseInner_foretells ts with
  | done form rest hdone =>
    cases rest with
    | nil =>
      have hself := hdone []
      rw [List.append_nil, List.append_nil] at hself
      exact Or.inl ⟨form, parse_openPar_of_ok hself, fun t more =>
        parse_openPar_of_trailing (hdone (t :: more))⟩
    | cons t rest =>
      exact Or.inr (Or.inr ⟨.trailingToken t, rfl, fun more =>
        parse_openPar_of_trailing (hdone more)⟩)
  | awaits e more form he herror hmore =>
    exact Or.inr (Or.inl ⟨e, he, parse_openPar_of_error herror, more, form,
      parse_openPar_of_ok hmore⟩)
  | refused e he hrefused =>
    exact Or.inr (Or.inr ⟨e, he, fun more => parse_openPar_of_error (hrefused more)⟩)

/-- The same of any tokens, in terms of what they can be continued to. -/
theorem parse_cases {ts : List Token} (hne : ts ≠ []) :
    (∃ form, Form.parse ts = .ok form ∧ ¬ IsUnfinished ts) ∨
    (∃ e, e.isAtEnd = true ∧ Form.parse ts = .error e ∧ IsUnfinished ts) ∨
    (∃ e, e.isAtEnd = false ∧ Form.parse ts = .error e ∧
      ∀ us, ts <+: us → Form.parse us = .error e) := by
  obtain ⟨t, ts, rfl⟩ := List.exists_cons_of_ne_nil hne
  by_cases ht : t = .openPar
  · subst ht
    rcases parse_openPar_cases ts with ⟨form, hparse, htrailing⟩ |
      ⟨e, he, herror, more, form, hmore⟩ | ⟨e, he, hrefused⟩
    · refine Or.inl ⟨form, hparse, ?_⟩
      rintro ⟨_, form', ⟨more, rfl⟩, hmore, hline⟩
      cases more with
      | nil => exact hmore (List.append_nil _)
      | cons t more =>
        have herror : Form.parse (.openPar :: ts ++ t :: more) = .error (.trailingToken t) :=
          htrailing t more
        rw [herror] at hline
        cases hline
    · refine Or.inr (Or.inl ⟨e, he, herror, .openPar :: ts ++ more, form,
        List.prefix_append _ _, fun heq => ?_, hmore⟩)
      -- the tokens themselves give an error
      have hline : Form.parse (.openPar :: ts ++ more) = .ok form := hmore
      rw [heq, herror] at hline
      cases hline
    · have hself := hrefused []
      rw [List.append_nil] at hself
      refine Or.inr (Or.inr ⟨e, he, hself, ?_⟩)
      rintro _ ⟨more, rfl⟩
      exact hrefused more
  · have hnot : ∀ us, Form.parse (t :: us) = .error .notParenthesized := by
      intro us
      cases t with
      | openPar => exact absurd rfl ht
      | closePar => rfl
      | literal x => rfl
      | operator op => rfl
      | name n => rfl
      | keyword k => rfl
      | unknown code => rfl
    refine Or.inr (Or.inr ⟨.notParenthesized, rfl, hnot ts, ?_⟩)
    rintro _ ⟨more, rfl⟩
    exact hnot (ts ++ more)

/-- **Unfinished lines are recognised exactly.**  Tokens can be continued to a line of the language
    exactly if there are none yet or the message says that they ended too early.  Every other error
    is final: parsing gives the same error whatever follows. -/
theorem parse_isUnfinished_iff (ts : List Token) :
    ((ts = [] ∨ ∃ e, Form.parse ts = .error e ∧ e.message ∈ Error.endMessages) ↔
      ∃ us form, ts <+: us ∧ us ≠ ts ∧ Form.parse us = .ok form) ∧
    (∀ e, Form.parse ts = .error e → e.message ∉ Error.endMessages → ts ≠ [] →
      ∀ us, ts <+: us → Form.parse us = .error e) := by
  simp only [Error.message_mem_endMessages_iff]
  by_cases hne : ts = []
  · subst hne
    exact ⟨iff_of_true (Or.inl rfl) isUnfinished_nil, fun e _ _ h => absurd rfl h⟩
  rcases parse_cases hne with ⟨form, hparse, hnot⟩ | ⟨e, he, herror, hmore⟩ | ⟨e, he, herror, hfinal⟩
  · refine ⟨iff_of_false ?_ hnot, fun e herror => ?_⟩
    · rintro (h | ⟨e, herror, -⟩)
      · exact hne h
      · rw [hparse] at herror
        cases herror
    · rw [hparse] at herror
      cases herror
  · refine ⟨iff_of_true (Or.inr ⟨e, herror, he⟩) hmore, fun e' herror' he' => ?_⟩
    rw [herror] at herror'
    cases herror'
    exact absurd he he'
  · have hsame : ∀ e', Form.parse ts = .error e' → e' = e := by
      intro e' herror'
      rw [herror] at herror'
      exact (Except.error.inj herror').symm
    refine ⟨iff_of_false ?_ ?_, fun e' herror' _ _ us hus => ?_⟩
    · rintro (h | ⟨e', herror', he'⟩)
      · exact hne h
      · rw [hsame e' herror', he] at he'
        cases he'
    · rintro ⟨us, form, hus, -, hline⟩
      rw [hfinal us hus] at hline
      cases hline
    · rw [hsame e' herror']
      exact hfinal us hus

end PrefixCalc
