/-
  Texts that are a single name.

  A name of the language is a text that is scanned as itself: one token, the name that it is.  A text
  that is scanned as some name need not be one, since scanning passes over the white space around it
  (`scan_eq_name_iff`).  So `isName` does not hold of the names alone, but of every text that becomes
  one by trimming (`isName_iff`).
-/
import PrefixCalc.Proofs.Language.Spelling

namespace PrefixCalc

/-! ## One word and nothing else -/

/-- A part that is no lexeme is white space. -/
theorem isBlank_of_ofPart?_none {w : List Char} (hpart : IsPart w) (h : Lexeme.ofPart? w = none) :
    ∀ c ∈ w, isBlank c = true := by
  cases w with
  | nil => exact absurd rfl hpart.ne_nil
  | cons first rest =>
    have hblank : isBlank first = true := by
      rw [Lexeme.ofPart?] at h
      split at h
      · next hblank => exact hblank
      · split at h
        · cases h
        · split at h <;> cases h
    rcases hpart with ⟨d, -, hd⟩ | hrun
    · obtain ⟨-, rfl⟩ := List.cons.inj hd
      exact List.forall_mem_singleton.mpr hblank
    · -- a run has no white space in it
      have hnot := (isDelimiter_eq_false_iff.mp (hrun.2 first List.mem_cons_self)).1
      rw [hblank] at hnot
      cases hnot

theorem eq_cons_of_ofPart?_word {w : List Char} {first : Char} {rest : List Char}
    (h : Lexeme.ofPart? w = some (.word first rest)) : w = first :: rest := by
  cases w with
  | nil => cases h
  | cons c cs =>
    rw [Lexeme.ofPart?] at h
    split at h
    · cases h
    · split at h
      · cases h
      · split at h
        · cases h
        · injection h with h
          injection h with hc hcs
          rw [hc, hcs]

/-- A text with one word has white space around it, and nothing else. -/
theorem exists_append_of_lexemes_eq_word {cs : List Char} {first : Char} {rest : List Char}
    (h : lexemes cs = [.word first rest]) :
    ∃ gap gap', (∀ c ∈ gap, isBlank c = true) ∧ (∀ c ∈ gap', isBlank c = true) ∧
      cs = gap ++ (first :: rest) ++ gap' := by
  have hcut : IsCut cs (cut cs) := isCut_iff.mpr rfl
  obtain ⟨before, w, after, hparts, hbefore, hw, hafter⟩ := List.filterMap_eq_cons_iff.mp h
  have hblank : ∀ parts : List (List Char), (∀ p ∈ parts, p ∈ cut cs) →
      (∀ p ∈ parts, Lexeme.ofPart? p = none) → ∀ c ∈ parts.flatten, isBlank c = true := by
    intro parts hsub hnone c hc
    obtain ⟨p, hp, hcp⟩ := List.mem_flatten.mp hc
    exact isBlank_of_ofPart?_none (hcut.isPart p (hsub p hp)) (hnone p hp) c hcp
  refine ⟨before.flatten, after.flatten, ?_, ?_, ?_⟩
  · refine hblank before (fun p hp => ?_) hbefore
    rw [hparts]
    exact List.mem_append_left _ hp
  · refine hblank after (fun p hp => ?_) (List.filterMap_eq_nil_iff.mp hafter)
    rw [hparts]
    exact List.mem_append_right _ (List.mem_cons_of_mem w hp)
  · rw [← hcut.flatten_eq, hparts, List.flatten_append, List.flatten_cons,
      eq_cons_of_ofPart?_word hw, List.append_assoc]

/-! ## Names -/

theorem Token.toList_of_ofWord_name {first : Char} {rest : List Char} {n : String}
    (h : Token.ofWord first rest = .ok (.name n)) : n.toList = first :: rest := by
  simp only [ofWord] at h
  split at h
  · cases h
  · split at h
    · split at h <;> cases h
    · split at h
      · split at h
        · cases h
        · injection h with h
          injection h with h
          rw [← h, String.toList_ofList]
      · cases h

/-- What is scanned as a name is this name as a word, and nothing else. -/
theorem lexemes_of_scan_name {line : Bytes} {n : String} (h : Token.scan line = .ok [.name n]) :
    ∃ first rest, n.toList = first :: rest ∧ lexemes (Utf8.decode line) = [.word first rest] := by
  rw [scan_eq, mapM_eq_ok_iff] at h
  obtain ⟨l, hl, htoken⟩ := List.map_eq_singleton_iff.mp h
  cases l with
  | openPar => cases htoken
  | closePar => cases htoken
  | word first rest => exact ⟨first, rest, Token.toList_of_ofWord_name htoken, hl⟩

/-- No character of a name is a delimiter. -/
theorem isRun_of_scan_name {line : Bytes} {n : String} (h : Token.scan line = .ok [.name n]) :
    IsRun n.toList := by
  obtain ⟨first, rest, hn, hlexemes⟩ := lexemes_of_scan_name h
  have hmem : Lexeme.word first rest ∈ lexemes (Utf8.decode line) := by
    rw [hlexemes]
    exact List.mem_singleton_self _
  rw [hn]
  exact isRun_of_mem_lexemes hmem

/-- A line is scanned as a name exactly if, without the white space around it, it reads as a name of
    the language. -/
theorem scan_eq_name_iff {line : Bytes} {n : String} :
    Token.scan line = .ok [.name n] ↔
      Utf8.decode (Utf8.trim line) = n.toList ∧
        Token.scan (Utf8.ofString n) = .ok [.name n] := by
  constructor
  · intro h
    refine ⟨?_, isLawful_of_scan h (.name n) (List.mem_singleton_self _)⟩
    rw [← scan_trim] at h
    obtain ⟨first, rest, hn, hlexemes⟩ := lexemes_of_scan_name h
    obtain ⟨gap, gap', hgap, hgap', hline⟩ := exists_append_of_lexemes_eq_word hlexemes
    -- a trimmed line leaves no room for white space around its word
    obtain ⟨hhead, hlast⟩ := Utf8.isBlank_ends_trim line
    have hfront : gap = [] := by
      cases gap with
      | nil => rfl
      | cons c gap =>
        have hc := hhead c (by rw [hline]; rfl)
        rw [hgap c List.mem_cons_self] at hc
        cases hc
    have hback : gap' = [] := by
      rcases List.eq_nil_or_concat gap' with hnil | ⟨gap', c, rfl⟩
      · exact hnil
      · have hend : c ∈ (Utf8.decode (Utf8.trim line)).getLast? := by
          rw [hline, List.concat_eq_append, ← List.append_assoc, List.getLast?_concat]
          rfl
        have hc := hlast c hend
        rw [hgap' c (by simp)] at hc
        cases hc
    rw [hline, hfront, hback, hn, List.nil_append, List.append_nil]
  · rintro ⟨hline, hn⟩
    rw [scan_eq, Utf8.decode_ofString] at hn
    rw [← scan_trim, scan_eq, hline]
    exact hn

/-- A name is not changed by trimming. -/
theorem trim_of_scan_name {n : String} (h : Token.scan (Utf8.ofString n) = .ok [.name n]) :
    Utf8.trim (Utf8.ofString n) = Utf8.ofString n := by
  refine Utf8.trim_eq_self fun c hc => ?_
  rw [Utf8.decode_ofString] at hc
  exact (isDelimiter_eq_false_iff.mp ((isRun_of_scan_name h).2 c hc)).1

/-- A line that is scanned as a name is the name itself exactly if it has no white space around it and
    is UTF-8. -/
theorem ofString_eq_iff_of_scan {line : Bytes} {n : String} (h : Token.scan line = .ok [.name n]) :
    Utf8.ofString n = line ↔
      Utf8.trim line = line ∧ Utf8.encode (Utf8.decode line) = line := by
  obtain ⟨hline, hn⟩ := scan_eq_name_iff.mp h
  constructor
  · rintro rfl
    refine ⟨trim_of_scan_name hn, ?_⟩
    rw [Utf8.decode_ofString]
    rfl
  · rintro ⟨htrim, hencode⟩
    rw [htrim] at hline
    rw [← hencode, hline]
    rfl

theorem isName_eq_true_iff {s : String} :
    isName s = true ↔ ∃ n, Token.scan (Utf8.ofString s) = .ok [.name n] := by
  constructor
  · intro h
    rw [isName] at h
    split at h
    · next n hscan => exact ⟨n, hscan⟩
    · cases h
  · rintro ⟨n, hscan⟩
    rw [isName, hscan]

/-- A text passes for a name exactly if trimming makes it one. -/
theorem isName_iff {s : String} :
    isName s = true ↔ ∃ n, Token.scan (Utf8.ofString n) = .ok [.name n] ∧
      Utf8.trim (Utf8.ofString s) = Utf8.ofString n := by
  rw [isName_eq_true_iff]
  refine exists_congr fun n => ?_
  rw [scan_eq_name_iff, and_comm, and_congr_right_iff]
  intro _
  constructor
  · intro hdecode
    have hlawful : Utf8.encode (Utf8.decode (Utf8.trim (Utf8.ofString s))) =
        Utf8.trim (Utf8.ofString s) := Utf8.encode_decode_trim s.toList
    rw [← hlawful, hdecode]
    rfl
  · intro htrim
    rw [htrim, Utf8.decode_ofString]

/-- A text is a name exactly if it passes for one and has no white space around it. -/
theorem scan_eq_self_iff {s : String} :
    Token.scan (Utf8.ofString s) = .ok [.name s] ↔
      isName s = true ∧ Utf8.trim (Utf8.ofString s) = Utf8.ofString s := by
  constructor
  · intro h
    exact ⟨isName_eq_true_iff.mpr ⟨s, h⟩, trim_of_scan_name h⟩
  · rintro ⟨hname, htrim⟩
    obtain ⟨n, hn, hs⟩ := isName_iff.mp hname
    have heq : s = n := Utf8.ofString_inj.mp (htrim.symm.trans hs)
    rw [heq]
    exact hn

end PrefixCalc
