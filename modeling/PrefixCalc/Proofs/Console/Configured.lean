/-
  What no line can do to the configured names.

  1. **Specification** — `Environment.KeepsSettings`: the aliases are the configured ones, each for
     the function it was configured for; every configured variable has a value; and every other
     variable has a name that a line can write.

  2. **Start** — settings that were read from a text are valid (`Settings.isValid_of_ofSource`),
     and valid settings applied to nothing are kept.

  3. **Step and run** — a line changes an environment in two ways only: it assigns to a name that
     the line has been read with, or it starts over (`Settings.envAfter`).  Both keep the settings,
     so by induction every list of lines keeps them.
-/
import PrefixCalc.Proofs.Console.Handling
import PrefixCalc.Proofs.Environment.Effect
import PrefixCalc.Proofs.Settings.Names
import PrefixCalc.Settings.Decode

namespace PrefixCalc

/-- An environment in which the names mean what is configured, or were introduced by a line. -/
structure Environment.KeepsSettings (env : Environment) (s : Settings) : Prop where
  aliases_eq : env.aliases.entries.map (fun entry => (entry.1, entry.2.name)) = s.aliases.entries
  isBuiltin : ∀ entry ∈ env.aliases.entries, entry.2 ∈ Builtin.all
  isDefined : ∀ name ∈ s.vars.names, name ∈ env.vars.names
  isScanned : ∀ name ∈ env.vars.names, name ∉ s.vars.names →
    Token.scan (Utf8.ofString name) = .ok [.name name]

/-! ## Start -/

theorem Builtin.ofName?_eq_some {name : String} {f : Builtin} (h : ofName? name = some f) :
    f ∈ all ∧ f.name = name :=
  ⟨List.mem_of_find?_eq_some h, by simpa using List.find?_some h⟩

namespace Settings

theorem isValid_of_ofText {text : Bytes} {s : Settings} (h : ofText text = .ok s) :
    s.isValid = true := by
  rw [ofText] at h
  split at h
  · cases h
    rfl
  · split at h
    · cases h
    · split at h
      · cases h
      · next hfault =>
        cases h
        rw [isValid, hfault]
        rfl

/-- Settings that were read are valid. -/
theorem isValid_of_ofSource {source : Source UInt8} {reason : String} {s : Settings}
    (h : ofSource source reason = .ok s) : s.isValid = true := by
  rw [ofSource] at h
  split at h
  · exact isValid_of_ofText h
  · cases h

theorem entries_aliases_apply (s : Settings) :
    (s.apply .empty).aliases.entries = s.aliases.entries.filterMap installedAlias? := by
  rw [apply_eq]
  exact NameTable.entries_ofList s.increasing_installedAliases

theorem vars_apply (s : Settings) : (s.apply .empty).vars.entries = s.vars.entries := by
  rw [apply_eq]
  exact NameTable.entries_ofList s.vars.increasing

/-- Where every alias has its function, none is left out. -/
theorem map_name_installedAliases {entries : List (String × String)}
    (h : ∀ entry ∈ entries, (Builtin.ofName? entry.2).isSome = true) :
    (entries.filterMap installedAlias?).map (fun entry => (entry.1, entry.2.name)) = entries := by
  induction entries with
  | nil => rfl
  | cons entry entries ih =>
    obtain ⟨hentry, hentries⟩ := List.forall_mem_cons.mp h
    obtain ⟨f, hf⟩ := Option.isSome_iff_exists.mp hentry
    have hinstalled : installedAlias? entry = some (entry.1, f) := by rw [installedAlias?, hf]; rfl
    rw [List.filterMap_cons_some hinstalled, List.map_cons, ih hentries,
      (Builtin.ofName?_eq_some hf).2]

end Settings

namespace Environment

/-- Valid settings are kept by the environment they make. -/
theorem keepsSettings_apply {s : Settings} (h : s.isValid = true) :
    (s.apply .empty).KeepsSettings s := by
  obtain ⟨-, haliases, -⟩ := Settings.isValid_iff.mp h
  have hnames : (s.apply .empty).vars.names = s.vars.names := by
    rw [NameTable.names, NameTable.names, s.vars_apply]
  constructor
  · rw [s.entries_aliases_apply]
    exact Settings.map_name_installedAliases fun entry hentry => (haliases entry hentry).2
  · intro entry hentry
    rw [s.entries_aliases_apply] at hentry
    obtain ⟨configured, -, hinstalled⟩ := List.mem_filterMap.mp hentry
    obtain ⟨f, hf, rfl⟩ := Option.map_eq_some_iff.mp hinstalled
    exact (Builtin.ofName?_eq_some hf).1
  · intro name hname
    rwa [hnames]
  · intro name hname hother
    rw [hnames] at hname
    exact absurd hname hother

/-! ## Step and run -/

/-- The name that a line assigns to is scanned as itself. -/
theorem Assigns.scan_name {env : Environment} {line : Bytes} {name : String} {x : Float}
    (h : env.Assigns line name x) : Token.scan (Utf8.ofString name) = .ok [.name name] := by
  obtain ⟨rhs, hline, -⟩ := h
  cases isLineTree_of_ofLine hline with
  | assign hname _ => exact hname

variable {s : Settings} {env : Environment}

theorem KeepsSettings.setVariable (h : env.KeepsSettings s) {name : String}
    (hname : Token.scan (Utf8.ofString name) = .ok [.name name]) (x : Float) :
    (env.setVariable name x).KeepsSettings s := by
  refine ⟨h.aliases_eq, h.isBuiltin, ?_, ?_⟩
  · intro other hother
    exact NameTable.mem_names_insert.mpr (Or.inr (h.isDefined other hother))
  · intro other hother hnew
    rcases NameTable.mem_names_insert.mp hother with rfl | hother
    · exact hname
    · exact h.isScanned other hother hnew

theorem KeepsSettings.run (h : env.KeepsSettings s) (line : Bytes) :
    (env.run line).2.KeepsSettings s := by
  rcases env.run_effect line with ⟨name, x, hassign, hrun⟩ | ⟨-, hsame⟩
  · rw [hrun]
    exact h.setVariable hassign.scan_name x
  · rw [hsame]
    exact h

theorem KeepsSettings.envAfter (h : env.KeepsSettings s) (hvalid : s.isValid = true)
    (line : Bytes) : (s.envAfter env line).KeepsSettings s := by
  rw [Settings.envAfter]
  cases Command.ofLine (Utf8.trim line) with
  | blank => exact h
  | quit => exact h
  | list => exact h
  | reset => exact keepsSettings_apply hvalid
  | run => exact h.run line

end Environment

namespace Console

variable {s : Settings} {size : Int} {showTrees : Bool} {c : Console}

theorem StartedWith.keepsSettings_handleAll (h : c.StartedWith s size showTrees)
    (hvalid : s.isValid = true) (hkeeps : c.session.env.KeepsSettings s) (lines : List Bytes) :
    (c.handleAll lines).console.session.env.KeepsSettings s := by
  induction lines generalizing c with
  | nil => exact hkeeps
  | cons line lines ih =>
    have hline : (c.handle line).console.session.env.KeepsSettings s := by
      rw [h.env_handle line]
      exact hkeeps.envAfter hvalid line
    by_cases hrunning : (c.handle line).status = .running
    · rw [handleAll_cons_of_running hrunning]
      exact ih (h.handle line) hline
    · rw [handleAll_cons_of_ended hrunning]
      exact hline

/-- **No line changes what is configured.**  In a console that was started with settings read from a
    source, after any lines whatever, the aliases are exactly the configured ones, each for its
    built-in function; every configured variable has a value; and every other variable has a name
    that is scanned as itself. -/
theorem keepsSettings_of_ofSource {source : Source UInt8} {reason : String} {s : Settings}
    (h : Settings.ofSource source reason = .ok s) (size : Int) (showTrees : Bool)
    (lines : List Bytes) :
    ((start s size showTrees).handleAll lines).console.session.env.KeepsSettings s := by
  have hvalid := Settings.isValid_of_ofSource h
  exact (startedWith_start s size showTrees).keepsSettings_handleAll hvalid
    (Environment.keepsSettings_apply hvalid) lines

/-- One alias; a line assigns to a variable of its name, and the console starts over. -/
theorem keepsSettings_of_one_alias :
    let source : Source UInt8 := ⟨Utf8.ofString "aliases: \x7bp: pow\x7d", .finished⟩
    let s : Settings := { aliases := .ofList [("p", "pow")] }
    Settings.ofSource source "" = .ok s ∧
      ((start s 8 false).handleAll [Utf8.ofString "(set p 2)", Utf8.ofString ".reset",
        Utf8.ofString "(set x (p 2 3))"]).console.session.env.KeepsSettings s := by
  intro source s
  have hread : Settings.ofSource source "" = .ok s := by cbv
  exact ⟨hread, keepsSettings_of_ofSource hread 8 false _⟩

end Console

end PrefixCalc
