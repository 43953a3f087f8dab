/-
  The tables of settings can be gone through in any order.

  1. **Orders** — a `Settings.Listing` is an order for the variables and one for the aliases, each
     with every entry of its table once.  `Listing.fault?` and `Listing.apply` check and apply the
     settings along it, and `Settings.fault?` and `Settings.apply` do so in the order of the names.

  2. **Checking** — it stops at the first fault, and which one that is depends on the order; whether
     there is one is a matter of the entries alone.

  3. **Applying** — it writes as it goes.  No name stands in a table twice, and so any two writes can
     change places (`NameTable.insertAll_perm`).
-/
import PrefixCalc.Proofs.Settings.Names

namespace PrefixCalc

namespace NameTable

variable {α : Type}

/-- Of one name there is one entry. -/
theorem eq_of_mem_increasing {l : List (String × α)} (hl : Increasing l) {a b : String × α}
    (ha : a ∈ l) (hb : b ∈ l) (h : a.1 = b.1) : a = b := by
  have hfind {p : String × α} (hp : p ∈ l) : (ofList l).find? p.1 = some p.2 :=
    find?_insertAll_of_mem empty hl hp
  have hvalue : some a.2 = some b.2 := by rw [← hfind ha, h, hfind hb]
  exact Prod.ext h (Option.some.inj hvalue)

/-- Where no name occurs twice, entries can be put into a table in any order. -/
theorem insertAll_perm {l l' : List (String × α)} (h : l.Perm l') (hl : Increasing l')
    (t : NameTable α) : t.insertAll l = t.insertAll l' := by
  refine h.foldl_eq' (fun a ha b hb t => ?_) t
  by_cases hname : a.1 = b.1
  · rw [eq_of_mem_increasing hl (h.mem_iff.mp ha) (h.mem_iff.mp hb) hname]
  · exact t.insert_comm hname a.2 b.2

/-- The entries of a table go before those of the table that they are put into. -/
theorem find?_insertAll_entries (s t : NameTable α) (name : String) :
    (t.insertAll s.entries).find? name = (s.find? name).or (t.find? name) := by
  cases hfind : s.find? name with
  | some value => exact find?_insertAll_of_mem t s.increasing (mem_entries_iff.mpr hfind)
  | none =>
    have hnone : s.entries.reverse.lookup name = none := by
      refine List.lookup_eq_none_iff.mpr fun p hp => bne_iff_ne.mpr ?_
      rintro rfl
      rw [mem_entries_iff.mp (List.mem_reverse.mp hp)] at hfind
      cases hfind
    rw [find?_insertAll, hnone]

end NameTable

namespace Settings

/-! ## Orders -/

/-- An order in which the tables of settings are gone through. -/
structure Listing (s : Settings) where
  vars : List (String × Float)
  aliases : List (String × String)
  vars_perm : vars.Perm s.vars.entries
  aliases_perm : aliases.Perm s.aliases.entries

namespace Listing

variable {s : Settings}

/-- The first fault in this order. -/
def fault? (l : s.Listing) : Option SettingsError := firstFault? l.vars l.aliases s.cacheSize

/-- Puts the configured variables and aliases into an environment, in this order. -/
def apply (l : s.Listing) (env : Environment) : Environment :=
  installAliases (installVariables env l.vars) l.aliases

/-! ## Checking -/

/-- Settings are found without fault, in whatever order, exactly if they are valid. -/
theorem fault?_eq_none_iff (l : s.Listing) : l.fault? = none ↔ s.isValid = true := by
  rw [fault?, firstFault?_eq_none_iff, isValid_iff]
  simp only [l.vars_perm.mem_iff, l.aliases_perm.mem_iff]

/-! ## Applying -/

/-- Settings come to the same, in whatever order they are applied. -/
theorem apply_eq (l : s.Listing) (env : Environment) : l.apply env = s.apply env := by
  have hvars : env.vars.insertAll l.vars = env.vars.insertAll s.vars.entries :=
    NameTable.insertAll_perm l.vars_perm s.vars.increasing env.vars
  have haliases : env.aliases.insertAll (l.aliases.filterMap installedAlias?) =
      env.aliases.insertAll (s.aliases.entries.filterMap installedAlias?) :=
    NameTable.insertAll_perm (l.aliases_perm.filterMap _) s.increasing_installedAliases env.aliases
  rw [apply, installAliases_eq, installVariables_eq, Settings.apply_eq, hvars, haliases]

end Listing

/-- The functions that a name can be an alias for. -/
theorem isSome_ofName?_iff {target : String} :
    (Builtin.ofName? target).isSome = true ↔ ∃ f ∈ Builtin.all, f.name = target := by
  simp [Builtin.ofName?, List.find?_isSome]

/-- The aliases of the built-in functions. -/
def installed (s : Settings) : NameTable Builtin :=
  ⟨s.aliases.entries.filterMap installedAlias?, s.increasing_installedAliases⟩

theorem find?_installed (s : Settings) (name : String) :
    s.installed.find? name = (s.aliases.find? name).bind Builtin.ofName? := by
  refine Option.ext fun f => ?_
  rw [← NameTable.mem_entries_iff, Option.bind_eq_some_iff]
  show (name, f) ∈ s.aliases.entries.filterMap installedAlias? ↔ _
  rw [List.mem_filterMap]
  constructor
  · rintro ⟨⟨other, target⟩, hmem, hentry⟩
    obtain ⟨g, hg, heq⟩ := Option.map_eq_some_iff.mp hentry
    obtain ⟨rfl, rfl⟩ := Prod.mk.inj heq
    exact ⟨target, NameTable.mem_entries_iff.mp hmem, hg⟩
  · rintro ⟨target, htarget, hf⟩
    refine ⟨(name, target), NameTable.mem_entries_iff.mpr htarget, ?_⟩
    rw [installedAlias?, hf]
    rfl

/-- **Settings mean the same in every order of their tables.**  In one order a fault is found exactly
    if one is found in another, and none is found exactly if every name of a variable or an alias is
    a name, every alias means a built-in function, and the number of lines, if it is given, is not
    negative.  Applied to an environment they give the same environment: the old one, overridden by
    all the configured variables and by all the aliases that mean a built-in function.  The order of
    the names, in which settings are checked and applied otherwise, is one of these orders. -/
theorem listings_agree (s : Settings) (l l' : s.Listing) (env : Environment) :
    (l.fault? = none ↔ l'.fault? = none) ∧
    (l.fault? = none ↔
      (∀ name x, s.vars.find? name = some x → isName name = true) ∧
      (∀ name target, s.aliases.find? name = some target →
        isName name = true ∧ ∃ f ∈ Builtin.all, f.name = target) ∧
      ∀ n, s.cacheSize = some n → 0 ≤ n) ∧
    l.apply env = l'.apply env ∧
    (∀ name, (l.apply env).vars.find? name = (s.vars.find? name).or (env.vars.find? name)) ∧
    (∀ name, (l.apply env).aliases.find? name =
      ((s.aliases.find? name).bind Builtin.ofName?).or (env.aliases.find? name)) ∧
    (s.isValid = true ↔ l.fault? = none) ∧ s.apply env = l.apply env := by
  refine ⟨?_, ?_, ?_, fun name => ?_, fun name => ?_, l.fault?_eq_none_iff.symm,
    (l.apply_eq env).symm⟩
  · rw [l.fault?_eq_none_iff, l'.fault?_eq_none_iff]
  · rw [l.fault?_eq_none_iff, isValid_iff]
    simp only [Prod.forall, NameTable.mem_entries_iff, isSome_ofName?_iff, Option.mem_def]
  · rw [l.apply_eq, l'.apply_eq]
  · rw [l.apply_eq, apply_eq]
    exact NameTable.find?_insertAll_entries s.vars env.vars name
  · rw [l.apply_eq, apply_eq, ← find?_installed]
    exact NameTable.find?_insertAll_entries s.installed env.aliases name

/-- Two faults are found in either order, but not the same one first. -/
example :
    firstFault? [] [("f", "g"), ("h", "k")] none = some (.unknownTarget "f" "g") ∧
    firstFault? [] [("h", "k"), ("f", "g")] none = some (.unknownTarget "h" "k") := by
  constructor <;> cbv

end Settings

end PrefixCalc
