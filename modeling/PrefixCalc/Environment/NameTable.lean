/-
  Tables from names, which are texts of characters, to values.  The entries are kept in strictly
  increasing order of name, character by character, so that a table is listed in order as it stands,
  no name occurs twice, and two tables that answer every look-up alike are the same table
  (`ext_find?`).
-/
namespace PrefixCalc

/-- Entries in strictly increasing order of name. -/
def Increasing {α : Type} (l : List (String × α)) : Prop := l.Pairwise fun a b => a.1 < b.1

namespace Increasing

variable {α : Type}

/-- Puts an entry in its place, instead of the one of the same name if there is one. -/
def insert (name : String) (value : α) : List (String × α) → List (String × α)
  | [] => [(name, value)]
  | entry :: rest =>
    if name < entry.1 then (name, value) :: entry :: rest
    else if name = entry.1 then (name, value) :: rest
    else entry :: insert name value rest

theorem eq_or_mem_of_mem_insert {name : String} {value : α} {l : List (String × α)}
    {p : String × α} (h : p ∈ insert name value l) : p = (name, value) ∨ p ∈ l := by
  induction l with
  | nil => exact Or.inl (List.mem_singleton.mp h)
  | cons entry rest ih =>
    rw [insert] at h
    split at h
    · exact List.mem_cons.mp h
    · split at h
      · exact (List.mem_cons.mp h).imp_right (List.mem_cons_of_mem _)
      · rcases List.mem_cons.mp h with h | h
        · exact Or.inr (h ▸ List.mem_cons_self)
        · exact (ih h).imp_right (List.mem_cons_of_mem _)

/-- Inserting keeps the order. -/
theorem increasing_insert (name : String) (value : α) {l : List (String × α)} (h : Increasing l) :
    Increasing (insert name value l) := by
  induction l with
  | nil => exact List.pairwise_singleton _ _
  | cons entry rest ih =>
    have hrest : ∀ b ∈ rest, entry.1 < b.1 := (List.pairwise_cons.mp h).1
    have htail : Increasing rest := (List.pairwise_cons.mp h).2
    rw [insert]
    split
    · next hlt =>
      refine List.pairwise_cons.mpr ⟨fun b hb => ?_, h⟩
      rcases List.mem_cons.mp hb with rfl | hb
      · exact hlt
      · exact String.lt_trans hlt (hrest b hb)
    · next hnlt =>
      split
      · next heq => exact List.pairwise_cons.mpr ⟨fun b hb => heq ▸ hrest b hb, htail⟩
      · next hne =>
        have hgt : entry.1 < name := by
          refine Std.lt_of_le_of_ne (Std.not_lt.mp hnlt) (fun h => hne h.symm)
        refine List.pairwise_cons.mpr ⟨fun b hb => ?_, ih htail⟩
        rcases eq_or_mem_of_mem_insert hb with rfl | hb
        · exact hgt
        · exact hrest b hb

end Increasing

/-- A table from names to values. -/
structure NameTable (α : Type) where
  /-- The entries, in strictly increasing order of name. -/
  entries : List (String × α)
  increasing : Increasing entries

namespace NameTable

variable {α : Type}

/-- The table without entries. -/
def empty : NameTable α := ⟨[], List.Pairwise.nil⟩

instance : Inhabited (NameTable α) := ⟨empty⟩

/-- The value of a name. -/
def find? (t : NameTable α) (name : String) : Option α :=
  (t.entries.find? fun entry => entry.1 == name).map (·.2)

/-- The table in which `name` has this value, whatever it had before. -/
def insert (t : NameTable α) (name : String) (value : α) : NameTable α :=
  ⟨Increasing.insert name value t.entries, Increasing.increasing_insert name value t.increasing⟩

/-- The names in the table, in order. -/
def names (t : NameTable α) : List String := t.entries.map (·.1)

/-- How many names have a value. -/
def size (t : NameTable α) : Nat := t.entries.length

/-- The table with all these entries put into it, the later over the earlier. -/
def insertAll (t : NameTable α) (l : List (String × α)) : NameTable α :=
  l.foldl (fun t entry => t.insert entry.1 entry.2) t

/-- A table from entries in any order, the later over the earlier. -/
def ofList (l : List (String × α)) : NameTable α := empty.insertAll l

/-- After an insertion a look-up finds the new value under its name and the old ones elsewhere. -/
theorem find?_insert (t : NameTable α) (name : String) (value : α) (other : String) :
    (t.insert name value).find? other = if other = name then some value else t.find? other := by
  obtain ⟨l, hl⟩ := t
  simp only [insert, find?]
  induction l with
  | nil =>
    by_cases h : other = name
    · simp [Increasing.insert, h]
    · simp [Increasing.insert, h, show ¬ name = other from fun e => h e.symm]
  | cons entry rest ih =>
    have ih := ih (List.pairwise_cons.mp hl).2
    rw [Increasing.insert]
    split
    · by_cases h : other = name
      · simp [h]
      · simp [h, show ¬ name = other from fun e => h e.symm]
    · split
      · next heq =>
        by_cases h : other = name
        · simp [h]
        · have h1 : ¬ name = other := fun e => h e.symm
          have h2 : ¬ entry.1 = other := fun e => h (heq ▸ e.symm)
          simp [h, h1, h2]
      · next hne =>
        by_cases h : entry.1 = other
        · have h1 : ¬ other = name := fun e => hne (e ▸ h.symm)
          simp [h, h1]
        · simpa [List.find?_cons, h] using ih

theorem find?_insert_eq_some_iff {t : NameTable α} {name other : String} {value x : α} :
    (t.insert name value).find? other = some x ↔
      (other = name ∧ x = value) ∨ (t.find? other = some x ∧ ¬ name = other) := by
  rw [find?_insert]
  by_cases h : other = name
  · simp [h, eq_comm]
  · simp [h, Ne.symm h]

theorem insertAll_cons (t : NameTable α) (entry : String × α) (l : List (String × α)) :
    t.insertAll (entry :: l) = (t.insert entry.1 entry.2).insertAll l := rfl

/-- After several insertions the last one under a name decides. -/
theorem find?_insertAll (t : NameTable α) (l : List (String × α)) (name : String) :
    (t.insertAll l).find? name = (l.reverse.lookup name).or (t.find? name) := by
  induction l generalizing t with
  | nil => rfl
  | cons entry l ih =>
    rw [insertAll_cons, ih, find?_insert, List.reverse_cons, List.lookup_append, Option.or_assoc]
    by_cases h : name = entry.1
    · rw [if_pos h, List.lookup_cons, beq_of_eq h]
      rfl
    · rw [if_neg h, List.lookup_cons, beq_eq_false_iff_ne.mpr h]
      rfl

/-- Where no name is inserted twice, every insertion is found again. -/
theorem find?_insertAll_of_mem (t : NameTable α) {l : List (String × α)} (hl : Increasing l)
    {name : String} {value : α} (h : (name, value) ∈ l) :
    (t.insertAll l).find? name = some value := by
  induction l generalizing t with
  | nil => cases h
  | cons entry l ih =>
    obtain ⟨hentry, htail⟩ := List.pairwise_cons.mp hl
    rw [insertAll_cons]
    rcases List.mem_cons.mp h with rfl | h
    · -- the names that follow are greater
      have hlater : l.reverse.lookup name = none := by
        refine List.lookup_eq_none_iff.mpr fun p hp => bne_iff_ne.mpr fun heq => ?_
        exact String.lt_irrefl p.1 (heq ▸ hentry p (List.mem_reverse.mp hp))
      rw [find?_insertAll, hlater, find?_insert, if_pos rfl]
      rfl
    · exact ih _ htail h

/-- The names of a table are those that have a value. -/
theorem mem_names_iff {t : NameTable α} {name : String} :
    name ∈ t.names ↔ ∃ value, t.find? name = some value := by
  have hfind : (∃ value, t.find? name = some value) ↔
      (t.entries.find? fun entry => entry.1 == name).isSome = true := by
    rw [← Option.isSome_iff_exists, find?, Option.isSome_map]
  rw [hfind, List.find?_isSome, names, List.mem_map]
  simp only [beq_iff_eq]

theorem mem_names_insert {t : NameTable α} {name other : String} {value : α} :
    other ∈ (t.insert name value).names ↔ other = name ∨ other ∈ t.names := by
  rw [mem_names_iff, mem_names_iff, find?_insert]
  by_cases h : other = name
  · simp [h]
  · simp [h]

/-- A name after all others is inserted at the end. -/
theorem entries_insert_of_last {t : NameTable α} {name : String} (value : α)
    (h : ∀ entry ∈ t.entries, entry.1 < name) :
    (t.insert name value).entries = t.entries ++ [(name, value)] := by
  obtain ⟨l, hl⟩ := t
  simp only [insert] at h ⊢
  induction l with
  | nil => rfl
  | cons entry l ih =>
    obtain ⟨hentry, hrest⟩ := List.forall_mem_cons.mp h
    have hne : ¬ name = entry.1 := fun heq => String.lt_irrefl name (heq ▸ hentry)
    rw [Increasing.insert, if_neg (String.lt_asymm hentry), if_neg hne,
      ih (List.pairwise_cons.mp hl).2 hrest]
    rfl

theorem entries_insertAll {t : NameTable α} {l : List (String × α)}
    (h : Increasing (t.entries ++ l)) : (t.insertAll l).entries = t.entries ++ l := by
  induction l generalizing t with
  | nil => exact (List.append_nil _).symm
  | cons entry l ih =>
    have hlast : (t.insert entry.1 entry.2).entries = t.entries ++ [entry] :=
      entries_insert_of_last entry.2 fun other hother =>
        (List.pairwise_append.mp h).2.2 other hother entry List.mem_cons_self
    rw [List.append_cons] at h ⊢
    rw [insertAll_cons, ih (hlast ▸ h), hlast]

/-- Entries that are in order are the entries of their table. -/
theorem entries_ofList {l : List (String × α)} (h : Increasing l) : (ofList l).entries = l :=
  entries_insertAll h

/-- The entries of a table are what its look-ups find. -/
theorem mem_entries_iff {t : NameTable α} {name : String} {value : α} :
    (name, value) ∈ t.entries ↔ t.find? name = some value := by
  constructor
  · intro h
    -- a table is what inserting its own entries makes
    have hfind := find?_insertAll_of_mem empty t.increasing h
    have hentries : (empty.insertAll t.entries).entries = t.entries := entries_ofList t.increasing
    rwa [find?, hentries, ← find?] at hfind
  · intro h
    obtain ⟨entry, hfound, hvalue⟩ := Option.map_eq_some_iff.mp h
    have hname : entry.1 = name := by simpa using List.find?_some hfound
    have hentry : entry = (name, value) := Prod.ext hname hvalue
    exact hentry ▸ List.mem_of_find?_eq_some hfound

/-- Looking every name of a table up goes through its entries. -/
theorem filterMap_names {β : Type} (t : NameTable α) (g : String → α → β) :
    (t.names.filterMap fun name => (t.find? name).map (g name)) =
      t.entries.map fun entry => g entry.1 entry.2 := by
  have hfind : ∀ entry ∈ t.entries, t.find? entry.1 = some entry.2 :=
    fun entry hentry => mem_entries_iff.mp hentry
  rw [names, List.filterMap_map]
  generalize t.entries = l at hfind
  induction l with
  | nil => rfl
  | cons entry l ih =>
    obtain ⟨hentry, hl⟩ := List.forall_mem_cons.mp hfind
    rw [List.filterMap_cons, Function.comp_apply, hentry, ih hl]
    rfl

/-- A table is known by its look-ups. -/
theorem ext_find? {s t : NameTable α} (h : ∀ name, s.find? name = t.find? name) : s = t := by
  obtain ⟨l, hl⟩ := s
  obtain ⟨m, hm⟩ := t
  suffices l = m by subst this; rfl
  simp only [find?] at h
  induction l generalizing m with
  | nil =>
    cases m with
    | nil => rfl
    | cons b m => simpa using h b.1
  | cons a l ih =>
    cases m with
    | nil => simpa using h a.1
    | cons b m =>
      obtain ⟨ha, hl⟩ := List.pairwise_cons.mp hl
      obtain ⟨hb, hm⟩ := List.pairwise_cons.mp hm
      -- a name below every entry is not found
      have below : ∀ (k : List (String × α)) (n : String), (∀ p ∈ k, n < p.1) →
          k.find? (fun entry => entry.1 == n) = none := by
        intro k n hk
        rw [List.find?_eq_none]
        intro p hp heq
        have heq : p.1 = n := by simpa using heq
        exact String.lt_irrefl n (heq ▸ hk p hp)
      have hab : a.1 = b.1 := by
        rcases Std.lt_trichotomy a.1 b.1 with hlt | heq | hgt
        · have hn := h a.1
          rw [List.find?_cons_of_pos (by simp), List.find?_cons_of_neg (by
            simpa using fun e : b.1 = a.1 => String.lt_irrefl _ (e ▸ hlt)),
            below m a.1 fun p hp => String.lt_trans hlt (hb p hp)] at hn
          simp at hn
        · exact heq
        · have hn := h b.1
          rw [List.find?_cons_of_pos (a := b) (by simp), List.find?_cons_of_neg (by
            simpa using fun e : a.1 = b.1 => String.lt_irrefl _ (e ▸ hgt)),
            below l b.1 fun p hp => String.lt_trans hgt (ha p hp)] at hn
          simp at hn
      have hval : a.2 = b.2 := by
        have hn := h a.1
        rw [List.find?_cons_of_pos (by simp), List.find?_cons_of_pos (by simp [hab])] at hn
        simpa using hn
      have hhead : a = b := Prod.ext hab hval
      have htail : l = m := by
        refine ih hl m hm fun n => ?_
        by_cases hna : a.1 = n
        · subst hna
          rw [below l a.1 ha, below m a.1 fun p hp => hab ▸ hb p hp]
        · have hn := h n
          rwa [List.find?_cons_of_neg (by simpa using hna),
            List.find?_cons_of_neg (by simpa [← hab] using hna)] at hn
      rw [hhead, htail]

/-- Entries under different names are inserted in any order. -/
theorem insert_comm (t : NameTable α) {name other : String} (h : name ≠ other) (value value' : α) :
    (t.insert name value).insert other value' = (t.insert other value').insert name value := by
  refine ext_find? fun n => ?_
  rw [find?_insert, find?_insert, find?_insert, find?_insert]
  by_cases hn : n = other
  · rw [if_pos hn, if_neg fun hname => h (hname.symm.trans hn), if_pos hn]
  · rw [if_neg hn, if_neg hn]

end NameTable

end PrefixCalc
