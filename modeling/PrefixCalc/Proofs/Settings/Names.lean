/-
  The names of settings, and whether a line can use them.

  1. **Valid settings** (`Settings.firstFault?_eq_none_iff`) — the names pass for names, the aliases
     mean built-in functions, and the number of lines is not negative.

  2. **Applied settings** — the tables of an environment are overridden by the configured ones, under
     the names as they are configured.

  3. **Known names** — `Environment.KnowsVariable` and `Environment.KnowsFunction` say that a name,
     written in a line, is read as itself and means what it should.  A name with white space around
     it passes for a name and is stored with its white space, but no line has it: there it is read
     as the name without.  So the configured names are known exactly if trimming leaves them alone.
-/
import PrefixCalc.Proofs.Language.Names
import PrefixCalc.Proofs.Language.Places
import PrefixCalc.Settings.Basic

namespace PrefixCalc

namespace Settings

/-! ## Valid settings -/

theorem variableFault?_eq_none_iff {entry : String × Float} :
    variableFault? entry = none ↔ isName entry.1 = true := by
  rw [variableFault?]
  split
  · next h => exact iff_of_true rfl h
  · next h => exact iff_of_false (fun hnone => by cases hnone) h

theorem aliasFault?_eq_none_iff {entry : String × String} :
    aliasFault? entry = none ↔ isName entry.1 = true ∧ (Builtin.ofName? entry.2).isSome = true := by
  cases hname : isName entry.1 with
  | false => simp [aliasFault?, hname]
  | true =>
    cases htarget : Builtin.ofName? entry.2 with
    | none => simp [aliasFault?, hname, htarget]
    | some f => simp [aliasFault?, hname, htarget]

theorem cacheSizeFault?_eq_none_iff {size : Option Int} :
    cacheSizeFault? size = none ↔ ∀ n ∈ size, 0 ≤ n := by
  cases size with
  | none => simp [cacheSizeFault?]
  | some n => simp [cacheSizeFault?]

/-- Settings have no fault if every part of them has none. -/
theorem firstFault?_eq_none_iff {vars : List (String × Float)} {aliases : List (String × String)}
    {size : Option Int} :
    firstFault? vars aliases size = none ↔
      (∀ entry ∈ vars, isName entry.1 = true) ∧
      (∀ entry ∈ aliases, isName entry.1 = true ∧ (Builtin.ofName? entry.2).isSome = true) ∧
      ∀ n ∈ size, 0 ≤ n := by
  have hvars : vars.findSome? variableFault? = none ↔ ∀ entry ∈ vars, isName entry.1 = true := by
    simp only [List.findSome?_eq_none_iff, variableFault?_eq_none_iff]
  have haliases : aliases.findSome? aliasFault? = none ↔ ∀ entry ∈ aliases,
      isName entry.1 = true ∧ (Builtin.ofName? entry.2).isSome = true := by
    simp only [List.findSome?_eq_none_iff, aliasFault?_eq_none_iff]
  rw [← hvars, ← haliases, ← cacheSizeFault?_eq_none_iff, firstFault?]
  split
  · next hfault => simp [hfault]
  · next hnone hfault => simp [hnone, hfault]
  · next hnone hnone' => simp [hnone, hnone']

theorem isValid_iff {s : Settings} :
    s.isValid = true ↔
      (∀ entry ∈ s.vars.entries, isName entry.1 = true) ∧
      (∀ entry ∈ s.aliases.entries,
        isName entry.1 = true ∧ (Builtin.ofName? entry.2).isSome = true) ∧
      ∀ n ∈ s.cacheSize, 0 ≤ n := by
  rw [isValid, Option.isNone_iff_eq_none, fault?, firstFault?_eq_none_iff]

/-! ## Applied settings -/

theorem installVariables_eq (env : Environment) (vars : List (String × Float)) :
    installVariables env vars = { env with vars := env.vars.insertAll vars } := by
  induction vars generalizing env with
  | nil => rfl
  | cons entry vars ih => exact ih (env.setVariable entry.1 entry.2)

/-- What an alias calls, if its function exists. -/
def installedAlias? (entry : String × String) : Option (String × Builtin) :=
  (Builtin.ofName? entry.2).map fun f => (entry.1, f)

theorem installAliases_eq (env : Environment) (aliases : List (String × String)) :
    installAliases env aliases =
      { env with aliases := env.aliases.insertAll (aliases.filterMap installedAlias?) } := by
  induction aliases generalizing env with
  | nil => rfl
  | cons entry aliases ih =>
    cases h : Builtin.ofName? entry.2 with
    | some f =>
      have hentry : installedAlias? entry = some (entry.1, f) := by rw [installedAlias?, h]; rfl
      have hstep : installAliases env (entry :: aliases) =
          installAliases (env.setAlias entry.1 f) aliases := by
        rw [installAliases, List.foldl_cons, h]
        rfl
      rw [hstep, ih, List.filterMap_cons_some hentry]
      rfl
    | none =>
      have hentry : installedAlias? entry = none := by rw [installedAlias?, h]; rfl
      have hstep : installAliases env (entry :: aliases) = installAliases env aliases := by
        rw [installAliases, List.foldl_cons, h]
        rfl
      rw [hstep, ih, List.filterMap_cons_none hentry]

/-- Settings override the tables of an environment. -/
theorem apply_eq (s : Settings) (env : Environment) :
    s.apply env =
      { vars := env.vars.insertAll s.vars.entries
        aliases := env.aliases.insertAll (s.aliases.entries.filterMap installedAlias?) } := by
  rw [apply, installAliases_eq, installVariables_eq]

/-- A configured variable has its value, whatever it had before. -/
theorem find?_vars_apply {s : Settings} {name : String} {x : Float}
    (h : (name, x) ∈ s.vars.entries) (env : Environment) :
    (s.apply env).vars.find? name = some x := by
  rw [apply_eq]
  exact NameTable.find?_insertAll_of_mem _ s.vars.increasing h

/-- The aliases that are put into an environment keep their order. -/
theorem increasing_installedAliases (s : Settings) :
    Increasing (s.aliases.entries.filterMap installedAlias?) := by
  refine List.Pairwise.filterMap installedAlias? ?_ s.aliases.increasing
  intro a b hab a' ha' b' hb'
  obtain ⟨f, -, rfl⟩ := Option.map_eq_some_iff.mp ha'
  obtain ⟨g, -, rfl⟩ := Option.map_eq_some_iff.mp hb'
  exact hab

/-- A configured alias calls its function, whatever it called before. -/
theorem find?_aliases_apply {s : Settings} {name target : String} {f : Builtin}
    (h : (name, target) ∈ s.aliases.entries) (hf : Builtin.ofName? target = some f)
    (env : Environment) : (s.apply env).aliases.find? name = some f := by
  have hmem : (name, f) ∈ s.aliases.entries.filterMap installedAlias? := by
    refine List.mem_filterMap.mpr ⟨(name, target), h, ?_⟩
    rw [installedAlias?, hf]
    rfl
  rw [apply_eq]
  exact NameTable.find?_insertAll_of_mem _ s.increasing_installedAliases hmem

end Settings

/-! ## Known names -/

namespace Environment

/-- A name is read as a variable in every place for an argument, and has this value. -/
structure KnowsVariable (env : Environment) (name : String) (x : Float) : Prop where
  reads : ∀ p : Slot, p.IsArgument → ∀ line form, p.Holds name line → Form.ofLine line = .ok form →
    ∃ g : Form.Gap, form = g.fill (.var name) ∧ p.ReadsAs fun n => g.fill (.var n)
  eval : (Expr.var name).eval env = .ok x

/-- A name is read as a function in every place for a head, and calls this one. -/
structure KnowsFunction (env : Environment) (name : String) (f : Builtin) : Prop where
  reads : ∀ p : Slot, p.IsHead → ∀ line form, p.Holds name line → Form.ofLine line = .ok form →
    ∃ (g : Form.Gap) (args : List Expr), form = g.fill (.call (.function name) args) ∧
      p.ReadsAs fun n => g.fill (.call (.function n) args)
  eval : ∀ args, (Expr.call (.function name) args).eval env = f.call env args

end Environment

namespace Environment

variable {env : Environment} {name : String}

/-- A variable whose name passes for one is known exactly if its name has no white space around it. -/
theorem knowsVariable_iff (hname : isName name = true) {x : Float}
    (hx : env.vars.find? name = some x) :
    env.KnowsVariable name x ↔ Utf8.trim (Utf8.ofString name) = Utf8.ofString name := by
  constructor
  · intro h
    obtain ⟨n, hn⟩ := isName_eq_true_iff.mp hname
    have hline := Slot.ofLine_ofSum (scan_ofString_iff.mp hn)
    obtain ⟨g, hform, -⟩ :=
      h.reads Slot.ofSum Slot.isArgument_ofSum _ _ (Slot.ofSum.holds_line name) hline
    have htree := isLineTree_of_ofLine hline
    rw [hform] at htree
    cases Form.Gap.isArgument_of_fill htree with
    | var hscan => exact trim_of_scan_name hscan
  · intro htrim
    have hscan := scan_eq_self_iff.mpr ⟨hname, htrim⟩
    constructor
    · intro p hp line form hline h
      exact Slot.reads_variable hp (scan_ofString_iff.mp hscan) hline h
    · rw [Expr.eval, lookup, hx]

/-- The same for the name of a function. -/
theorem knowsFunction_iff (hname : isName name = true) {f : Builtin}
    (hf : env.aliases.find? name = some f) :
    env.KnowsFunction name f ↔ Utf8.trim (Utf8.ofString name) = Utf8.ofString name := by
  constructor
  · intro h
    obtain ⟨n, hn⟩ := isName_eq_true_iff.mp hname
    have hline := Slot.ofLine_ofCall (scan_ofString_iff.mp hn)
    obtain ⟨g, args, hform, -⟩ :=
      h.reads Slot.ofCall Slot.isHead_ofCall _ _ (Slot.ofCall.holds_line name) hline
    have htree := isLineTree_of_ofLine hline
    rw [hform] at htree
    cases Form.Gap.isArgument_of_fill htree with
    | call hhead _ =>
      cases hhead with
      | function hscan => exact trim_of_scan_name hscan
  · intro htrim
    have hscan := scan_eq_self_iff.mpr ⟨hname, htrim⟩
    constructor
    · intro p hp line form hline h
      exact Slot.reads_function hp (scan_ofString_iff.mp hscan) hline h
    · intro args
      rw [Expr.eval, function?, hf]
      rfl

end Environment

/-- **Names of settings.**  A text is scanned as itself exactly if it passes for a name and has no
    white space around it; for bytes, if besides they are UTF-8.  And what valid settings configure
    can be used in a line exactly under the names without white space around them: there a
    variable is read as itself and has the configured value, and an alias is read as itself and
    calls its built-in function. -/
theorem Settings.configured_names_iff (s : Settings) (hvalid : s.isValid = true)
    (env : Environment) :
    (∀ name, Token.scan (Utf8.ofString name) = .ok [.name name] ↔
      isName name = true ∧ Utf8.trim (Utf8.ofString name) = Utf8.ofString name) ∧
    (∀ line n, Token.scan line = .ok [.name n] →
      (Utf8.ofString n = line ↔
        Utf8.trim line = line ∧ Utf8.encode (Utf8.decode line) = line)) ∧
    (∀ name x, (name, x) ∈ s.vars.entries →
      ((s.apply env).KnowsVariable name x ↔
        Utf8.trim (Utf8.ofString name) = Utf8.ofString name)) ∧
    (∀ name target, (name, target) ∈ s.aliases.entries →
      ∃ f, Builtin.ofName? target = some f ∧
        ((s.apply env).KnowsFunction name f ↔
          Utf8.trim (Utf8.ofString name) = Utf8.ofString name)) := by
  obtain ⟨hvars, haliases, -⟩ := isValid_iff.mp hvalid
  refine ⟨fun name => scan_eq_self_iff, fun line n => ofString_eq_iff_of_scan, ?_, ?_⟩
  · intro name x hmem
    exact Environment.knowsVariable_iff (hvars _ hmem) (find?_vars_apply hmem env)
  · intro name target hmem
    obtain ⟨hname, htarget⟩ := haliases _ hmem
    obtain ⟨f, hf⟩ := Option.isSome_iff_exists.mp htarget
    exact ⟨f, hf, Environment.knowsFunction_iff hname (find?_aliases_apply hmem hf env)⟩

/-- A rate and another name for the square root: both can be used. -/
theorem Settings.configured_names_rate_and_root :
    let s : Settings := { vars := .ofList [("rate", 0.25)], aliases := .ofList [("root", "sqrt")] }
    s.isValid = true ∧ (s.apply .empty).KnowsVariable "rate" 0.25 ∧
      (s.apply .empty).KnowsFunction "root" .sqrt := by
  intro s
  have hrate : Token.scan (Utf8.ofString "rate") = .ok [.name "rate"] := scan_ofString_iff.mpr rfl
  have hroot : Token.scan (Utf8.ofString "root") = .ok [.name "root"] := scan_ofString_iff.mpr rfl
  have hvalid : s.isValid = true := by
    refine isValid_iff.mpr ⟨?_, ?_, ?_⟩
    · exact List.forall_mem_singleton.mpr (scan_eq_self_iff.mp hrate).1
    · exact List.forall_mem_singleton.mpr ⟨(scan_eq_self_iff.mp hroot).1, rfl⟩
    · rintro n ⟨⟩
      decide
  obtain ⟨-, -, hvars, haliases⟩ := s.configured_names_iff hvalid .empty
  obtain ⟨f, hf, hiff⟩ := haliases "root" "sqrt" List.mem_cons_self
  obtain rfl : Builtin.sqrt = f := Option.some.inj hf
  exact ⟨hvalid, (hvars "rate" 0.25 List.mem_cons_self).mpr (trim_of_scan_name hrate),
    hiff.mpr (trim_of_scan_name hroot)⟩

/-- A name with white space around it passes for a name, though it is scanned as the name without; and
    settings with such a name are valid, though no line can use it. -/
theorem Settings.configured_name_with_spaces :
    let s : Settings := { vars := .ofList [(" x ", 1)] }
    isName " x " = true ∧ Token.scan (Utf8.ofString " x ") = .ok [.name "x"] ∧
      s.isValid = true ∧ (" x ", 1) ∈ s.vars.entries ∧
      ¬ (s.apply .empty).KnowsVariable " x " 1 := by
  intro s
  have hscan : Token.scan (Utf8.ofString " x ") = .ok [.name "x"] := scan_ofString_iff.mpr rfl
  have hname : isName " x " = true := isName_eq_true_iff.mpr ⟨"x", hscan⟩
  have hmem : (" x ", 1) ∈ s.vars.entries := List.mem_cons_self
  have hvalid : s.isValid = true := by
    refine isValid_iff.mpr ⟨List.forall_mem_singleton.mpr hname, ?_, ?_⟩
    · rintro entry ⟨⟩
    · rintro n ⟨⟩
      decide
  refine ⟨hname, hscan, hvalid, hmem, fun hknown => ?_⟩
  have htrim := (Environment.knowsVariable_iff hname (find?_vars_apply hmem .empty)).mp hknown
  have hself := scan_eq_self_iff.mpr ⟨hname, htrim⟩
  rw [hscan] at hself
  have heq : "x" = " x " := Token.name.inj (List.singleton_inj.mp (Except.ok.inj hself))
  exact absurd heq (by decide)

end PrefixCalc
