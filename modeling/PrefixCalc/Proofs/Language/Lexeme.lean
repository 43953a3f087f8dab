/-
  Scanning, said without a reading head.

  1. **Specification** — a text is cut into single delimiters and maximal runs of other characters.
     `IsCut` says what that means: the parts put together are the text, each of them is a delimiter
     or a run, and no two runs stand side by side.  `cut` computes it, and there is no other
     (`isCut_iff`).  White space is dropped, and what remains are the `lexemes`.

  2. **Program** — `Token.scanFrom` reads character by character and gives the one that ends a word
     back to the reading head.

  3. **The crux** (`scanFrom_eq`) — one induction along the program, in which the contents of the
     reading head play the part of the text still to be cut.  Everything else follows from it: the
     first lexeme that is no token decides the error (`mapM_eq_error_iff`), and a gap between two
     lexemes may be any white space (`lexemes_gap`).
-/
import Mathlib.Data.List.SplitBy
import PrefixCalc.Language.Token.Scan
import PrefixCalc.Proofs.Text.Encoding

namespace PrefixCalc

/-! ## Cutting a text -/

/-- Characters of which none is a delimiter. -/
def IsRun (w : List Char) : Prop := w ≠ [] ∧ ∀ c ∈ w, isDelimiter c = false

/-- A delimiter by itself, or a run. -/
def IsPart (w : List Char) : Prop := (∃ d, isDelimiter d = true ∧ w = [d]) ∨ IsRun w

/-- The parts are single delimiters and maximal runs, and together they are the text. -/
structure IsCut (cs : List Char) (parts : List (List Char)) : Prop where
  flatten_eq : parts.flatten = cs
  isPart : ∀ w ∈ parts, IsPart w
  maximal : parts.IsChain fun v w => ¬ (IsRun v ∧ IsRun w)

/-- Two neighbours belong to one word. -/
def isJoined (a b : Char) : Bool := !isDelimiter a && !isDelimiter b

/-- Cuts a text into single delimiters and maximal runs. -/
def cut (cs : List Char) : List (List Char) := cs.splitBy isJoined

theorem isJoined_iff {a b : Char} :
    isJoined a b = true ↔ isDelimiter a = false ∧ isDelimiter b = false := by
  simp [isJoined]

theorem isJoined_eq_false_iff {a b : Char} :
    isJoined a b = false ↔ isDelimiter a = true ∨ isDelimiter b = true := by
  simp [isJoined, Decidable.imp_iff_not_or]

theorem not_isRun_singleton {d : Char} (h : isDelimiter d = true) : ¬ IsRun [d] := by
  intro hrun
  have hd := hrun.2 d (List.mem_singleton_self d)
  rw [h] at hd
  nomatch hd

theorem IsPart.ne_nil {w : List Char} (h : IsPart w) : w ≠ [] := by
  rcases h with ⟨d, -, rfl⟩ | hrun
  · exact List.cons_ne_nil d []
  · exact hrun.1

theorem IsPart.isRun_iff_getLast {w : List Char} (h : IsPart w) (hne : w ≠ []) :
    IsRun w ↔ isDelimiter (w.getLast hne) = false := by
  rcases h with ⟨d, hd, rfl⟩ | hrun
  · show IsRun [d] ↔ isDelimiter d = false
    rw [hd]
    exact iff_of_false (not_isRun_singleton hd) nofun
  · exact iff_of_true hrun (hrun.2 _ (List.getLast_mem hne))

theorem IsPart.isRun_iff_head {w : List Char} (h : IsPart w) (hne : w ≠ []) :
    IsRun w ↔ isDelimiter (w.head hne) = false := by
  rcases h with ⟨d, hd, rfl⟩ | hrun
  · exact IsPart.isRun_iff_getLast (Or.inl ⟨d, hd, rfl⟩) hne
  · exact iff_of_true hrun (hrun.2 _ (List.head_mem hne))

/-- Neighbours are joined all along a list exactly if it is a part. -/
theorem isChain_isJoined_iff {w : List Char} (hne : w ≠ []) :
    w.IsChain (fun a b => isJoined a b = true) ↔ IsPart w := by
  constructor
  · intro h
    cases w with
    | nil => exact absurd rfl hne
    | cons a rest =>
      cases ha : isDelimiter a with
      | true =>
        left
        cases rest with
        | nil => exact ⟨a, ha, rfl⟩
        | cons b rest =>
          have hab := (isJoined_iff.mp (List.isChain_cons_cons.mp h).1).1
          rw [ha] at hab
          nomatch hab
      | false =>
        right
        refine ⟨hne, ?_⟩
        clear hne
        induction rest generalizing a with
        | nil =>
          intro c hc
          rw [List.mem_singleton.mp hc]
          exact ha
        | cons b rest ih =>
          obtain ⟨hab, hrest⟩ := List.isChain_cons_cons.mp h
          intro c hc
          rcases List.mem_cons.mp hc with rfl | hc
          · exact ha
          · exact ih b hrest (isJoined_iff.mp hab).2 c hc
  · rintro (⟨d, -, rfl⟩ | ⟨-, hrun⟩)
    · exact List.isChain_singleton d
    · refine List.Pairwise.isChain (List.pairwise_of_forall_mem_list fun a ha b hb => ?_)
      exact isJoined_iff.mpr ⟨hrun a ha, hrun b hb⟩

/-- Two parts are not one run exactly if their neighbouring characters are not joined. -/
theorem not_isRun_and_isRun_iff {v w : List Char} (hv : IsPart v) (hw : IsPart w) :
    ¬ (IsRun v ∧ IsRun w) ↔ ∃ hv' hw', isJoined (v.getLast hv') (w.head hw') = false := by
  rw [hv.isRun_iff_getLast hv.ne_nil, hw.isRun_iff_head hw.ne_nil, ← isJoined_iff,
    Bool.not_eq_true]
  exact ⟨fun h => ⟨hv.ne_nil, hw.ne_nil, h⟩, fun ⟨_, _, h⟩ => h⟩

/-- A text has exactly one cut. -/
theorem isCut_iff {cs : List Char} {parts : List (List Char)} :
    IsCut cs parts ↔ cut cs = parts := by
  rw [cut, List.splitBy_eq_iff]
  constructor
  · rintro ⟨hflat, hpart, hmax⟩
    refine ⟨hflat.symm, fun h => (hpart [] h).ne_nil rfl, fun w hw => ?_, ?_⟩
    · exact (isChain_isJoined_iff (hpart w hw).ne_nil).mpr (hpart w hw)
    · exact hmax.imp_of_mem_imp fun v w hv hw =>
        (not_isRun_and_isRun_iff (hpart v hv) (hpart w hw)).mp
  · rintro ⟨hflat, hnil, hjoined, hmax⟩
    have hpart : ∀ w ∈ parts, IsPart w := fun w hw =>
      (isChain_isJoined_iff fun h => hnil (h ▸ hw)).mp (hjoined w hw)
    refine ⟨hflat.symm, hpart, ?_⟩
    exact hmax.imp_of_mem_imp fun v w hv hw =>
      (not_isRun_and_isRun_iff (hpart v hv) (hpart w hw)).mpr

/-- Where a delimiter stands on one side or the other, a text can be cut in two first. -/
theorem cut_append {cs ds : List Char}
    (h : ∀ a ∈ cs.getLast?, ∀ b ∈ ds.head?, isDelimiter a = true ∨ isDelimiter b = true) :
    cut (cs ++ ds) = cut cs ++ cut ds :=
  List.splitBy_append fun a ha b hb => isJoined_eq_false_iff.mpr (h a ha b hb)

theorem cut_run {w : List Char} (h : IsRun w) : cut w = [w] :=
  List.splitBy_of_isChain h.1 ((isChain_isJoined_iff h.1).mpr (Or.inr h))

theorem cut_cons_delimiter {d : Char} (h : isDelimiter d = true) (cs : List Char) :
    cut (d :: cs) = [d] :: cut cs := by
  have hcut : cut ([d] ++ cs) = cut [d] ++ cut cs := by
    refine cut_append fun a ha b _ => Or.inl ?_
    rw [← Option.mem_some.mp ha]
    exact h
  exact hcut

/-! ## Lexemes -/

/-- What remains of a text when white space is dropped. -/
inductive Lexeme
  | openPar
  | closePar
  | word (first : Char) (rest : List Char)
deriving DecidableEq

/-- The lexeme that a part is, unless it is white space. -/
def Lexeme.ofPart? : List Char → Option Lexeme
  | [] => none
  | first :: rest =>
    if isBlank first then none
    else if first = '(' then some .openPar
    else if first = ')' then some .closePar
    else some (.word first rest)

/-- The token that a lexeme stands for. -/
def Lexeme.token : Lexeme → Except Error Token
  | openPar => .ok .openPar
  | closePar => .ok .closePar
  | word first rest => Token.ofWord first rest

/-- The lexemes of a text, in order. -/
def lexemes (cs : List Char) : List Lexeme := (cut cs).filterMap Lexeme.ofPart?

theorem isDelimiter_of_isBlank {c : Char} (h : isBlank c = true) : isDelimiter c = true := by
  rw [isDelimiter, h]
  rfl

theorem isDelimiter_eq_false_iff {c : Char} :
    isDelimiter c = false ↔ isBlank c = false ∧ c ≠ '(' ∧ c ≠ ')' := by
  simp [isDelimiter, and_assoc]

@[simp] theorem lexemes_nil : lexemes [] = [] := rfl

theorem lexemes_append {cs ds : List Char}
    (h : ∀ a ∈ cs.getLast?, ∀ b ∈ ds.head?, isDelimiter a = true ∨ isDelimiter b = true) :
    lexemes (cs ++ ds) = lexemes cs ++ lexemes ds := by
  rw [lexemes, cut_append h, List.filterMap_append]
  rfl

@[simp] theorem lexemes_cons_openPar (cs : List Char) :
    lexemes ('(' :: cs) = .openPar :: lexemes cs := by
  rw [lexemes, cut_cons_delimiter rfl]
  rfl

@[simp] theorem lexemes_cons_closePar (cs : List Char) :
    lexemes (')' :: cs) = .closePar :: lexemes cs := by
  rw [lexemes, cut_cons_delimiter rfl]
  rfl

theorem lexemes_cons_blank {c : Char} (h : isBlank c = true) (cs : List Char) :
    lexemes (c :: cs) = lexemes cs := by
  rw [lexemes, cut_cons_delimiter (isDelimiter_of_isBlank h), List.filterMap_cons_none]
  · rfl
  · rw [Lexeme.ofPart?, if_pos h]

theorem lexemes_blank_append {gap : List Char} (h : ∀ c ∈ gap, isBlank c = true)
    (cs : List Char) : lexemes (gap ++ cs) = lexemes cs := by
  induction gap with
  | nil => rfl
  | cons c gap ih =>
    rw [List.cons_append, lexemes_cons_blank (h c List.mem_cons_self)]
    exact ih fun c hc => h c (List.mem_cons_of_mem _ hc)

theorem lexemes_run {first : Char} {rest : List Char} (h : IsRun (first :: rest)) :
    lexemes (first :: rest) = [.word first rest] := by
  obtain ⟨hblank, hopen, hclose⟩ := isDelimiter_eq_false_iff.mp (h.2 first List.mem_cons_self)
  have hpart : Lexeme.ofPart? (first :: rest) = some (.word first rest) := by
    rw [Lexeme.ofPart?, if_neg (by rw [hblank]; nofun), if_neg hopen, if_neg hclose]
  rw [lexemes, cut_run h, List.filterMap_cons_some hpart]
  rfl

/-- A word goes on up to the first delimiter. -/
theorem lexemes_cons_word {c : Char} (h : isDelimiter c = false) (cs : List Char) :
    lexemes (c :: cs) = .word c (cs.takeWhile fun a => !isDelimiter a)
      :: lexemes (cs.dropWhile fun a => !isDelimiter a) := by
  have hrun : IsRun (c :: cs.takeWhile fun a => !isDelimiter a) := by
    refine ⟨List.cons_ne_nil _ _, fun a ha => ?_⟩
    rcases List.mem_cons.mp ha with rfl | ha
    · exact h
    · have hnot := List.all_eq_true.mp List.all_takeWhile a ha
      exact Bool.not_eq_true' _ ▸ hnot
  have hsplit : lexemes ((c :: cs.takeWhile fun a => !isDelimiter a)
      ++ cs.dropWhile fun a => !isDelimiter a)
      = lexemes (c :: cs.takeWhile fun a => !isDelimiter a)
        ++ lexemes (cs.dropWhile fun a => !isDelimiter a) := by
    refine lexemes_append fun a _ b hb => Or.inr ?_
    have hstop := List.head?_dropWhile_not (fun a => !isDelimiter a) cs
    rw [hb] at hstop
    exact Bool.not_eq_false' _ ▸ hstop
  rw [List.cons_append, List.takeWhile_append_dropWhile, lexemes_run hrun] at hsplit
  exact hsplit

/-- White space may stand here, or none: the gap is not empty, or a delimiter (or nothing at all)
    is on one side of it. -/
def MayPart (before gap after : List Char) : Prop :=
  gap ≠ [] ∨ (∀ a ∈ before.getLast?, isDelimiter a = true) ∨
    (∀ b ∈ after.head?, isDelimiter b = true)

/-- The amount and the kind of white space in a gap do not matter. -/
theorem lexemes_gap {before gap after : List Char} (hblank : ∀ c ∈ gap, isBlank c = true)
    (hpart : MayPart before gap after) :
    lexemes (before ++ gap ++ after) = lexemes before ++ lexemes after := by
  rw [List.append_assoc]
  cases gap with
  | nil =>
    refine lexemes_append fun a ha b hb => ?_
    rcases hpart with hne | hbefore | hafter
    · exact absurd rfl hne
    · exact Or.inl (hbefore a ha)
    · exact Or.inr (hafter b hb)
  | cons c gap =>
    have hc := isDelimiter_of_isBlank (hblank c List.mem_cons_self)
    rw [lexemes_append, lexemes_blank_append hblank]
    intro a _ b hb
    rw [List.cons_append, List.head?_cons] at hb
    exact Or.inr (Option.mem_some.mp hb ▸ hc)

/-! ## Scanning -/

/-- Scanning reads the lexemes one by one. -/
theorem scanFrom_eq (c : Cursor Char) :
    Token.scanFrom c = (lexemes c.contents).mapM Lexeme.token := by
  fun_induction Token.scanFrom c with
  | case1 c h =>
    rw [Cursor.contents_of_pop?_none h]
    rfl
  | case2 c first left h hblank ih =>
    rw [Cursor.contents_of_pop?_some h, lexemes_cons_blank hblank, ih]
  | case3 c first left h hblank hopen ih =>
    rw [Cursor.contents_of_pop?_some h, eq_of_beq hopen, lexemes_cons_openPar, List.mapM_cons, ih]
    rfl
  | case4 c first left h hblank hopen hclose ih =>
    rw [Cursor.contents_of_pop?_some h, eq_of_beq hclose, lexemes_cons_closePar, List.mapM_cons, ih]
    rfl
  | case5 c first left h hblank hopen hclose word ih =>
    have hfirst : isDelimiter first = false := by
      rw [isDelimiter_eq_false_iff]
      exact ⟨Bool.not_eq_true _ ▸ hblank, fun h => hopen (beq_of_eq h),
        fun h => hclose (beq_of_eq h)⟩
    rw [Cursor.contents_of_pop?_some h, lexemes_cons_word hfirst, List.mapM_cons, ih,
      ← Cursor.takeUntil_taken, ← Cursor.contents_takeUntil]
    rfl

theorem scan_eq (line : Bytes) :
    Token.scan line = (lexemes (Utf8.decode line)).mapM Lexeme.token :=
  scanFrom_eq _

section Fallible

variable {α β ε : Type} {f : α → Except ε β}

theorem mapM_cons_of_error {a : α} {e : ε} (h : f a = .error e) (as : List α) :
    (a :: as).mapM f = .error e := by
  rw [List.mapM_cons, h]
  rfl

theorem mapM_cons_of_ok {a : α} {b : β} (h : f a = .ok b) (as : List α) :
    (a :: as).mapM f = (as.mapM f).map (b :: ·) := by
  rw [List.mapM_cons, h]
  cases as.mapM f <;> rfl

/-- A list is read as a whole exactly if each of its members is. -/
theorem mapM_eq_ok_iff {as : List α} {bs : List β} :
    as.mapM f = .ok bs ↔ as.map f = bs.map .ok := by
  induction as generalizing bs with
  | nil => cases bs <;> simp [pure, Except.pure]
  | cons a as ih =>
    cases ha : f a with
    | error e =>
      rw [mapM_cons_of_error ha, List.map_cons, ha]
      cases bs <;> simp
    | ok b =>
      rw [mapM_cons_of_ok ha, List.map_cons, ha]
      cases bs with
      | nil => cases as.mapM f <;> simp [Except.map]
      | cons b' bs =>
        rw [List.map_cons, List.cons.injEq, Except.ok.injEq, ← ih]
        cases as.mapM f <;> simp [Except.map]

/-- The first member that cannot be read decides the error. -/
theorem mapM_eq_error_iff {as : List α} {e : ε} :
    as.mapM f = .error e ↔ ∃ before a after, as = before ++ a :: after ∧
      (∀ b ∈ before, ∃ t, f b = .ok t) ∧ f a = .error e := by
  induction as with
  | nil =>
    refine ⟨fun h => (nomatch h), ?_⟩
    rintro ⟨before, a, after, h, -⟩
    exact absurd h (by simp)
  | cons a as ih =>
    cases ha : f a with
    | error e' =>
      rw [mapM_cons_of_error ha, Except.error.injEq]
      constructor
      · intro h
        exact ⟨[], a, as, rfl, nofun, h ▸ ha⟩
      · rintro ⟨before, a', after, h, hbefore, ha'⟩
        cases before with
        | nil =>
          obtain ⟨rfl, -⟩ := List.cons.inj h
          exact Except.error.inj (ha.symm.trans ha')
        | cons b before =>
          obtain ⟨rfl, -⟩ := List.cons.inj h
          obtain ⟨t, ht⟩ := hbefore a List.mem_cons_self
          rw [ha] at ht
          nomatch ht
    | ok t =>
      have hmap : (as.mapM f).map (t :: ·) = .error e ↔ as.mapM f = .error e := by
        cases as.mapM f <;> simp [Except.map]
      rw [mapM_cons_of_ok ha, hmap, ih]
      constructor
      · rintro ⟨before, a', after, rfl, hbefore, ha'⟩
        refine ⟨a :: before, a', after, rfl, fun b hb => ?_, ha'⟩
        rcases List.mem_cons.mp hb with rfl | hb
        · exact ⟨t, ha⟩
        · exact hbefore b hb
      · rintro ⟨before, a', after, h, hbefore, ha'⟩
        cases before with
        | nil =>
          obtain ⟨rfl, -⟩ := List.cons.inj h
          rw [ha] at ha'
          nomatch ha'
        | cons b before =>
          obtain ⟨rfl, rfl⟩ := List.cons.inj h
          exact ⟨before, a', after, rfl, fun b hb => hbefore b (List.mem_cons_of_mem _ hb), ha'⟩

end Fallible

/-- White space around a line does not matter. -/
theorem scan_trim (line : Bytes) : Token.scan (Utf8.trim line) = Token.scan line := by
  obtain ⟨gap, gap', hgap, hgap', h⟩ := Utf8.exists_decode_eq_append_trim line
  have hback : MayPart (gap ++ Utf8.decode (Utf8.trim line)) gap' [] := Or.inr (Or.inr nofun)
  have hlexemes := lexemes_gap hgap' hback
  rw [List.append_nil, ← h, lexemes_blank_append hgap, lexemes_nil, List.append_nil] at hlexemes
  rw [scan_eq, scan_eq, hlexemes]

/-- **Scanning is cutting.**  A line reads as one list of characters, and this list has one cut into
    single delimiters and maximal runs.  Scanning gives the tokens of the lexemes in this cut, in
    order, or the error of the first lexeme that is no token; and a gap between lexemes may be
    filled with any other white space. -/
theorem scan_iff_of_isCut (line : Bytes) :
    ∃ cs parts, Utf8.Reads line cs ∧ IsCut cs parts ∧
      (∀ cs', Utf8.Reads line cs' → cs' = cs) ∧
      (∀ parts', IsCut cs parts' → parts' = parts) ∧
      (∀ ts, Token.scan line = .ok ts ↔
        (parts.filterMap Lexeme.ofPart?).map Lexeme.token = ts.map .ok) ∧
      (∀ e, Token.scan line = .error e ↔
        ∃ before l after, parts.filterMap Lexeme.ofPart? = before ++ l :: after ∧
          (∀ k ∈ before, ∃ t, k.token = .ok t) ∧ l.token = .error e) ∧
      (∀ before gap gap' after line', cs = before ++ gap ++ after →
        Utf8.Reads line' (before ++ gap' ++ after) →
        (∀ c ∈ gap, isBlank c = true) → (∀ c ∈ gap', isBlank c = true) →
        MayPart before gap after → MayPart before gap' after →
        Token.scan line' = Token.scan line) := by
  refine ⟨Utf8.decode line, cut (Utf8.decode line), Utf8.reads_iff.mpr rfl, isCut_iff.mpr rfl,
    fun cs' h => (Utf8.reads_iff.mp h).symm, fun parts' h => (isCut_iff.mp h).symm, ?_, ?_, ?_⟩
  · intro ts
    rw [scan_eq]
    exact mapM_eq_ok_iff
  · intro e
    rw [scan_eq]
    exact mapM_eq_error_iff
  · intro before gap gap' after line' hline hline' hblank hblank' hpart hpart'
    rw [scan_eq, scan_eq, hline, Utf8.reads_iff.mp hline', lexemes_gap hblank hpart,
      lexemes_gap hblank' hpart']

/-- Words that end at a parenthesis, at a wide space or at the end, and a byte that is no
    character: this line has five lexemes. -/
example : lexemes (Utf8.decode (Utf8.ofString "(+\u3000ab) " ++ [0xFF])) =
    [.openPar, .word '+' [], .word 'a' ['b'], .closePar, .word '\uFFFD' []] := by
  decide +kernel

end PrefixCalc
