/-
  The places of a line where a name can stand, and what it is read as there.

  1. **Specification** — a `Slot` is a place for a word: the text before it and the text behind it,
     both kept apart from the word by delimiters.  Behind an opening parenthesis a name is the head
     of a call, behind the keyword of an assignment it is the target, and in every other place it
     is an argument.

  2. **Trees with a gap** — `Form.Gap` is the tree of such a line without the name.  It is the tree
     around the place and not only some tree: whatever name is written there, the line is read as
     this gap filled with it (`Slot.ReadsAs`).

  3. **The crux** (`Expr.Arguments.exists_fill`) — by induction on the derivation of the arguments,
     which shows one name in it at a time: the name is an argument by itself, or the head of a call,
     or stands deeper in a call, or in the arguments behind it.
-/
import PrefixCalc.Proofs.Language.RoundTrip

namespace PrefixCalc

/-! ## Trees with a gap -/

/-- An expression with a gap in it. -/
inductive Expr.Gap
  | here
  | within (head : Head) (before : List Expr) (inner : Gap) (after : List Expr)

/-- The expression with its gap filled. -/
def Expr.Gap.fill : Expr.Gap → Expr → Expr
  | here, e => e
  | within head before inner after, e => .call head (before ++ inner.fill e :: after)

/-- What a line says, with a gap in it. -/
inductive Form.Gap
  | expression (g : Expr.Gap)
  | value (target : String) (g : Expr.Gap)

/-- The form with its gap filled. -/
def Form.Gap.fill : Form.Gap → Expr → Form
  | expression g, e => .expression (g.fill e)
  | value target g, e => .statement (.assign target (g.fill e))

/-- What fills an argument can stand as an argument. -/
theorem Expr.Gap.isArgument_of_fill {g : Expr.Gap} {e : Expr} (h : (g.fill e).IsArgument) :
    e.IsArgument := by
  induction g with
  | here => exact h
  | within head before inner after ih =>
    cases h with
    | call _ hargs =>
      exact ih (hargs (inner.fill e) (List.mem_append_right before List.mem_cons_self))

/-- What fills the tree of a line can stand as an argument. -/
theorem Form.Gap.isArgument_of_fill {g : Form.Gap} {e : Expr} (h : (g.fill e).IsLineTree) :
    e.IsArgument := by
  cases g with
  | expression g =>
    refine Expr.Gap.isArgument_of_fill (g := g) ?_
    rw [fill] at h
    generalize g.fill e = whole at h ⊢
    cases h with
    | call harg => exact harg
  | value target g =>
    refine Expr.Gap.isArgument_of_fill (g := g) ?_
    rw [fill, Statement.assign] at h
    generalize g.fill e = whole at h ⊢
    cases h with
    | assign _ hvalue =>
      cases hvalue with
      | number harg => exact harg
      | call harg => exact harg

/-! ## Names in a derivation -/

/-- What a name is used for in an expression. -/
inductive NameUse
  | argument
  | head (args : List Expr)

namespace NameUse

/-- The expression that a name makes in this use. -/
def expr : NameUse → String → Expr
  | argument, n => .var n
  | head args, n => .call (.function n) args

/-- The token before a name decides on its use. -/
def IsAfter : NameUse → Token → Prop
  | argument, t => t ≠ .openPar
  | head _, t => t = .openPar

end NameUse

/-- A name on either side of a closing parenthesis. -/
theorem append_closePar_eq {us ts vs ws : List Token} {n : String}
    (h : us ++ .closePar :: ts = vs ++ .name n :: ws) :
    (∃ rest, us = vs ++ .name n :: rest ∧ ws = rest ++ .closePar :: ts) ∨
      ∃ rest, vs = us ++ .closePar :: rest ∧ ts = rest ++ .name n :: ws := by
  rcases List.append_eq_append_iff.mp h with ⟨rest, rfl, hrest⟩ | ⟨rest, rfl, hrest⟩
  · cases rest with
    | nil => cases hrest
    | cons t rest =>
      obtain ⟨rfl, rfl⟩ := List.cons.inj hrest
      exact Or.inr ⟨rest, rfl, rfl⟩
  · cases rest with
    | nil => cases hrest
    | cons t rest =>
      obtain ⟨rfl, rfl⟩ := List.cons.inj hrest
      exact Or.inl ⟨rest, rfl, rfl⟩

theorem Head.Derives.ne_openPar {t : Token} {head : Head} (h : Head.Derives t head) :
    t ≠ .openPar := by
  rintro rfl
  cases h

/-- A name among the tokens of arguments fills a gap in one of them, and any other name in its place
    fills the same gap.  The token `prev` stands before the arguments. -/
theorem Expr.Arguments.exists_fill {ts us : List Token} {n : String} {es : List Expr}
    (h : Expr.Arguments (ts ++ .name n :: us) es) {prev : Token} (hprev : prev ≠ .openPar) :
    ∃ (before : List Expr) (g : Expr.Gap) (use : NameUse) (after : List Expr),
      (∃ t ∈ (prev :: ts).getLast?, use.IsAfter t) ∧
      es = before ++ g.fill (use.expr n) :: after ∧
      ∀ m, Expr.Arguments (ts ++ .name m :: us) (before ++ g.fill (use.expr m) :: after) := by
  generalize htokens : ts ++ .name n :: us = tokens at h
  induction h generalizing ts us prev with
  | nil => simp at htokens
  | @literal x rest es _ ih =>
    cases ts with
    | nil => cases htokens
    | cons t ts =>
      obtain ⟨rfl, hrest⟩ := List.cons.inj htokens
      have hx : Token.literal x ≠ .openPar := by rintro ⟨⟩
      obtain ⟨before, g, use, after, hafter, rfl, hfill⟩ := ih hx hrest
      exact ⟨.number x :: before, g, use, after, hafter, rfl, fun m => .literal x (hfill m)⟩
  | @name k rest es hes ih =>
    cases ts with
    | nil =>
      obtain ⟨hname, rfl⟩ := List.cons.inj htokens
      obtain rfl := Token.name.inj hname
      exact ⟨[], .here, .argument, es, ⟨prev, rfl, hprev⟩, rfl, fun m => .name m hes⟩
    | cons t ts =>
      obtain ⟨rfl, hrest⟩ := List.cons.inj htokens
      have hk : Token.name k ≠ .openPar := by rintro ⟨⟩
      obtain ⟨before, g, use, after, hafter, rfl, hfill⟩ := ih hk hrest
      exact ⟨.var k :: before, g, use, after, hafter, rfl, fun m => .name k (hfill m)⟩
  | @call t head inner rest args es hhead hargs hes ihargs ihes =>
    cases ts with
    | nil => cases htokens
    | cons first ts =>
      obtain ⟨rfl, hcall⟩ := List.cons.inj htokens
      cases ts with
      | nil =>
        obtain ⟨rfl, rfl⟩ := List.cons.inj hcall
        cases hhead with
        | function n =>
          exact ⟨[], .here, .head args, es, ⟨.openPar, rfl, rfl⟩, rfl,
            fun m => .call (.function m) hargs hes⟩
      | cons second ts =>
        obtain ⟨rfl, hinside⟩ := List.cons.inj hcall
        rcases append_closePar_eq hinside.symm with ⟨mid, hinner, rfl⟩ | ⟨mid, rfl, hbehind⟩
        · -- inside the call
          obtain ⟨before, g, use, after, hafter, rfl, hfill⟩ :=
            ihargs hhead.ne_openPar hinner.symm
          refine ⟨[], .within head before g after, use, es, hafter, rfl, fun m => ?_⟩
          have hm := Expr.Arguments.call hhead (hfill m) hes
          rwa [List.append_assoc] at hm
        · -- behind the call
          have hclose : Token.closePar ≠ .openPar := by rintro ⟨⟩
          obtain ⟨before, g, use, after, ⟨t, ht, huse⟩, rfl, hfill⟩ := ihes hclose hbehind.symm
          refine ⟨.call head args :: before, g, use, after, ⟨t, ?_, huse⟩, rfl, fun m => ?_⟩
          · rw [List.getLast?_cons_cons, List.getLast?_cons_cons, ← List.cons_append,
              List.getLast?_append_of_ne_nil _ (List.cons_ne_nil _ _)]
            exact ht
          · show Expr.Arguments (.openPar :: second :: (inner ++ .closePar :: mid ++ .name m :: us)) _
            rw [List.append_assoc]
            exact .call hhead hargs (hfill m)

/-- One argument that begins with a parenthesis is a call. -/
theorem Expr.Arguments.call_of_openPar {ts : List Token} {e : Expr}
    (h : Expr.Arguments (.openPar :: ts) [e]) : Expr.Call (.openPar :: ts) e := by
  cases h with
  | call hhead hargs hnil =>
    cases hnil
    exact .intro hhead hargs

theorem Expr.Call.exists_eq_cons {ts : List Token} {e : Expr} (h : Expr.Call ts e) :
    ∃ rest, ts = .openPar :: rest := by
  cases h with
  | intro _ _ => exact ⟨_, rfl⟩

theorem Expr.Call.exists_fill {ts us : List Token} {n : String} {e : Expr}
    (h : Expr.Call (ts ++ .name n :: us) e) :
    ∃ (g : Expr.Gap) (use : NameUse), (∃ t ∈ ts.getLast?, use.IsAfter t) ∧
      e = g.fill (use.expr n) ∧ ∀ m, Expr.Call (ts ++ .name m :: us) (g.fill (use.expr m)) := by
  have hargs : Expr.Arguments (ts ++ .name n :: us) [e] := by
    simpa using h.arguments_append .nil
  have hclose : Token.closePar ≠ .openPar := by rintro ⟨⟩
  obtain ⟨before, g, use, after, hafter, hes, hfill⟩ := hargs.exists_fill hclose
  obtain ⟨rest, hrest⟩ := h.exists_eq_cons
  cases ts with
  | nil => cases hrest
  | cons t ts =>
    obtain ⟨rfl, -⟩ := List.cons.inj hrest
    cases before with
    | nil =>
      obtain ⟨rfl, rfl⟩ := List.cons.inj hes
      exact ⟨g, use, hafter, rfl, fun m => (hfill m).call_of_openPar⟩
    | cons e before => simp at hes

theorem Expr.Value.exists_fill {ts us : List Token} {n : String} {e : Expr}
    (h : Expr.Value (ts ++ .name n :: us) e) :
    ∃ (g : Expr.Gap) (use : NameUse), (∃ t ∈ ts.getLast?, use.IsAfter t) ∧
      e = g.fill (use.expr n) ∧ ∀ m, Expr.Value (ts ++ .name m :: us) (g.fill (use.expr m)) := by
  generalize htokens : ts ++ .name n :: us = tokens at h
  cases h with
  | literal x =>
    cases ts with
    | nil => cases htokens
    | cons t ts => simp at htokens
  | call hcall =>
    subst htokens
    obtain ⟨g, use, hafter, he, hfill⟩ := hcall.exists_fill
    exact ⟨g, use, hafter, he, fun m => .call (hfill m)⟩

/-- A name in a line fills a gap in its tree, unless it is the target of an assignment; and any other
    name in its place fills the same gap. -/
theorem Form.Line.exists_fill {ts us : List Token} {n : String} {form : Form}
    (h : Form.Line (ts ++ .name n :: us) form) (hset : .keyword .set ∉ ts.getLast?) :
    ∃ (g : Form.Gap) (use : NameUse), (∃ t ∈ ts.getLast?, use.IsAfter t) ∧
      form = g.fill (use.expr n) ∧ ∀ m, Form.Line (ts ++ .name m :: us) (g.fill (use.expr m)) := by
  generalize htokens : ts ++ .name n :: us = tokens at h
  cases h with
  | call hcall =>
    subst htokens
    obtain ⟨g, use, hafter, rfl, hfill⟩ := hcall.exists_fill
    exact ⟨.expression g, use, hafter, rfl, fun m => .call (hfill m)⟩
  | @assign target inner e hvalue =>
    -- the first three tokens are the parenthesis, the keyword and the target
    rcases ts with _ | ⟨first, _ | ⟨second, _ | ⟨third, ts⟩⟩⟩
    · cases htokens
    · cases htokens
    · obtain ⟨rfl, rfl, -⟩ := by simpa using htokens
      exact absurd rfl hset
    · obtain ⟨rfl, rfl, rfl, hinside⟩ := by simpa using htokens
      rcases append_closePar_eq hinside.symm with ⟨mid, rfl, rfl⟩ | ⟨mid, -, hbehind⟩
      · obtain ⟨g, use, ⟨t, ht, huse⟩, rfl, hfill⟩ := hvalue.exists_fill
        refine ⟨.value target g, use, ⟨t, ?_, huse⟩, rfl, fun m => ?_⟩
        · have hne : ts ≠ [] := by
            rintro rfl
            cases ht
          rw [List.getLast?_cons_cons, List.getLast?_cons_cons, List.getLast?_cons_of_ne_nil hne]
          exact ht
        · have hm := Form.Line.assign target (hfill m)
          rwa [List.append_assoc] at hm
      · simp at hbehind

/-! ## Names in a line -/

/-- A place for a word in a line: what is written before it and behind it, with a delimiter or
    nothing on either side of the word. -/
structure Slot where
  before : List Char
  after : List Char
  left : ∀ c ∈ before.getLast?, isDelimiter c = true
  right : ∀ c ∈ after.head?, isDelimiter c = true

namespace Slot

/-- The line has this word in the place. -/
def Holds (p : Slot) (word : String) (line : Bytes) : Prop :=
  Utf8.decode line = p.before ++ (word.toList ++ p.after)

/-- The last token before the place. -/
def IsAfter (p : Slot) (t : Token) : Prop := ∃ ts, Writes p.before (ts ++ [t])

/-- A name in this place is the head of a call. -/
def IsHead (p : Slot) : Prop := p.IsAfter .openPar

/-- A name in this place is neither the head of a call nor the target of an assignment. -/
def IsArgument (p : Slot) : Prop := ¬ p.IsAfter .openPar ∧ ¬ p.IsAfter (.keyword .set)

/-- With any name in the place, the line is read as this form of the name. -/
def ReadsAs (p : Slot) (form : String → Form) : Prop :=
  ∀ n, Token.scan (Utf8.ofString n) = .ok [.name n] →
    ∀ line, p.Holds n line → Form.ofLine line = .ok (form n)

theorem IsAfter.unique {p : Slot} {t u : Token} (ht : p.IsAfter t) (hu : p.IsAfter u) : t = u := by
  obtain ⟨ts, hts⟩ := ht
  obtain ⟨us, hus⟩ := hu
  have heq : ts ++ [t] = us ++ [u] := Except.ok.inj (hts.symm.trans hus)
  exact List.singleton_inj.mp (List.append_inj_right' heq rfl)

/-- A line with a token in the place is scanned in three parts. -/
theorem scan_iff (p : Slot) {word : String} {t : Token} (hword : Writes word.toList [t])
    {line : Bytes} (hline : p.Holds word line) {tokens : List Token} :
    Token.scan line = .ok tokens ↔
      ∃ ts us, Writes p.before ts ∧ Writes p.after us ∧ tokens = ts ++ t :: us := by
  have hafter : ∀ a ∈ word.toList.getLast?, ∀ b ∈ p.after.head?,
      isDelimiter a = true ∨ isDelimiter b = true := fun _ _ b hb => Or.inr (p.right b hb)
  have hbefore : ∀ a ∈ p.before.getLast?, ∀ b ∈ (word.toList ++ p.after).head?,
      isDelimiter a = true ∨ isDelimiter b = true := fun a ha _ _ => Or.inl (p.left a ha)
  constructor
  · intro h
    rw [scan_eq, hline, lexemes_append hbefore, lexemes_append hafter, mapM_eq_ok_iff,
      List.map_append, List.map_append, mapM_eq_ok_iff.mp hword] at h
    obtain ⟨ts, rest, rfl, hts, hrest⟩ := List.map_eq_append_iff.mp h.symm
    obtain ⟨ws, us, rfl, hws, hus⟩ := List.map_eq_append_iff.mp hrest
    obtain ⟨u, rfl, hu⟩ := List.map_eq_singleton_iff.mp hws
    obtain rfl := Except.ok.inj hu
    exact ⟨ts, us, mapM_eq_ok_iff.mpr hts.symm, mapM_eq_ok_iff.mpr hus.symm, rfl⟩
  · rintro ⟨ts, us, hts, hus, rfl⟩
    rw [scan_eq, hline]
    exact hts.append (hword.append hus hafter) hbefore

/-- A name in a line is read as what its place makes of it: there is a gap in the tree that any name
    in this place fills. -/
theorem exists_readsAs (p : Slot) {word n : String} (hword : Writes word.toList [.name n])
    {line : Bytes} (hline : p.Holds word line) {form : Form} (h : Form.ofLine line = .ok form)
    (hset : ¬ p.IsAfter (.keyword .set)) :
    ∃ (g : Form.Gap) (use : NameUse), (∃ t, p.IsAfter t ∧ use.IsAfter t) ∧
      form = g.fill (use.expr n) ∧ p.ReadsAs fun m => g.fill (use.expr m) := by
  obtain ⟨tokens, hscan, htree⟩ := ofLine_eq_ok_iff.mp h
  obtain ⟨ts, us, hts, hus, rfl⟩ := (p.scan_iff hword hline).mp hscan
  have hlast : ∀ t ∈ ts.getLast?, p.IsAfter t := by
    intro t ht
    obtain ⟨init, rfl⟩ := List.getLast?_eq_some_iff.mp ht
    exact ⟨init, hts⟩
  obtain ⟨g, use, ⟨t, ht, huse⟩, hform, hfill⟩ :=
    htree.exists_fill fun hkeyword => hset (hlast _ hkeyword)
  refine ⟨g, use, ⟨t, hlast t ht, huse⟩, hform, fun m hm line' hline' => ?_⟩
  have hscan' := (p.scan_iff (scan_ofString_iff.mp hm) hline').mpr ⟨ts, us, hts, hus, rfl⟩
  exact ofLine_eq_ok_iff.mpr ⟨_, hscan', hfill m⟩

/-- A name that is written as an argument is read as a variable. -/
theorem reads_variable {p : Slot} (hp : p.IsArgument) {word n : String}
    (hword : Writes word.toList [.name n]) {line : Bytes} (hline : p.Holds word line) {form : Form}
    (h : Form.ofLine line = .ok form) :
    ∃ g : Form.Gap, form = g.fill (.var n) ∧ p.ReadsAs fun m => g.fill (.var m) := by
  obtain ⟨g, use, ⟨t, ht, huse⟩, hform, hreads⟩ := p.exists_readsAs hword hline h hp.2
  cases use with
  | argument => exact ⟨g, hform, hreads⟩
  | head args => exact absurd (show p.IsAfter .openPar from huse ▸ ht) hp.1

/-- A name that is written as a head is read as the function of a call. -/
theorem reads_function {p : Slot} (hp : p.IsHead) {word n : String}
    (hword : Writes word.toList [.name n]) {line : Bytes} (hline : p.Holds word line) {form : Form}
    (h : Form.ofLine line = .ok form) :
    ∃ (g : Form.Gap) (args : List Expr), form = g.fill (.call (.function n) args) ∧
      p.ReadsAs fun m => g.fill (.call (.function m) args) := by
  have hset : ¬ p.IsAfter (.keyword .set) := by
    intro hset
    cases hp.unique hset
  obtain ⟨g, use, ⟨t, ht, huse⟩, hform, hreads⟩ := p.exists_readsAs hword hline h hset
  cases use with
  | argument => exact absurd (ht.unique hp) huse
  | head args => exact ⟨g, args, hform, hreads⟩

/-! ## Lines for a name -/

/-- The line with a word in the place. -/
def line (p : Slot) (word : String) : Bytes := Utf8.encode (p.before ++ (word.toList ++ p.after))

theorem holds_line (p : Slot) (word : String) : p.Holds word (p.line word) := Utf8.decode_encode _

/-- A line is read as its tokens derive it. -/
theorem ofLine_line (p : Slot) {word n : String} (hword : Writes word.toList [.name n])
    {ts us : List Token} (hts : Writes p.before ts) (hus : Writes p.after us) {form : Form}
    (h : Form.Line (ts ++ .name n :: us) form) : Form.ofLine (p.line word) = .ok form := by
  have hscan := (p.scan_iff hword (p.holds_line word)).mpr ⟨ts, us, hts, hus, rfl⟩
  exact ofLine_eq_ok_iff.mpr ⟨_, hscan, h⟩

/-- The place of the only argument of a sum. -/
def ofSum : Slot where
  before := ['(', '+', ' ']
  after := [')']
  left := by
    rintro c ⟨⟩
    rfl
  right := by
    rintro c ⟨⟩
    rfl

/-- The place of the head of a call without arguments. -/
def ofCall : Slot where
  before := ['(']
  after := [')']
  left := by
    rintro c ⟨⟩
    rfl
  right := by
    rintro c ⟨⟩
    rfl

theorem isArgument_ofSum : ofSum.IsArgument := by
  have hadd : ofSum.IsAfter (.operator .add) := ⟨[.openPar], rfl⟩
  constructor
  · intro h
    cases hadd.unique h
  · intro h
    cases hadd.unique h

theorem isHead_ofCall : ofCall.IsHead := ⟨[], rfl⟩

theorem ofLine_ofSum {word n : String} (hword : Writes word.toList [.name n]) :
    Form.ofLine (ofSum.line word) = .ok (.expression (.call (.operator .add) [.var n])) := by
  have hbefore : Writes ofSum.before [.openPar, .operator .add] := rfl
  have hafter : Writes ofSum.after [.closePar] := rfl
  exact ofSum.ofLine_line hword hbefore hafter (.call (.intro (.operator .add) (.name n .nil)))

theorem ofLine_ofCall {word n : String} (hword : Writes word.toList [.name n]) :
    Form.ofLine (ofCall.line word) = .ok (.expression (.call (.function n) [])) := by
  have hbefore : Writes ofCall.before [.openPar] := rfl
  have hafter : Writes ofCall.after [.closePar] := rfl
  exact ofCall.ofLine_line hword hbefore hafter (.call (.intro (.function n) .nil))

end Slot

end PrefixCalc
