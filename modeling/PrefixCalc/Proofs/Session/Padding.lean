/-
  White space around a line cannot be noticed.

  Scanning skips white space and trimming cuts it off, each in its own way: scanning goes through
  the characters of the whole line, and trimming looks for white space from both ends.  They agree on
  what it is for every list of bytes (`scan_trim`, `Utf8.trimEnds_eq_trim`).  So it is the same
  whether a line is trimmed before it is scanned, as parsing does, or not, as `isName` does, and
  lines that differ in padding are one line to a session: they have one key among the lines held.
-/
import PrefixCalc.Proofs.Text.Ends
import PrefixCalc.Proofs.Language.Names
import PrefixCalc.Proofs.Session.Transparency

namespace PrefixCalc

/-- Parsing gets the tokens of the line as it is. -/
theorem ofLine_eq_scan_bind (line : Bytes) :
    Form.ofLine line = Token.scan line >>= Form.parse := by
  rw [Form.ofLine, scan_trim]

/-- Only the trimmed line counts, for the answer as for the lines held and for the log. -/
theorem Session.parse_congr (s : Session) {line line' : Bytes}
    (h : Utf8.trim line = Utf8.trim line') : s.parse line = s.parse line' := by
  rw [parse, parse, h]

theorem scan_congr {line line' : Bytes} (h : Utf8.trim line = Utf8.trim line') :
    Token.scan line = Token.scan line' := by
  rw [← scan_trim line, h, scan_trim]

/-- **Padding is invisible.**  For every list of bytes, lawful or not: trimming changes neither the
    tokens nor the error of a line, a second time it changes nothing, and white space at the end is
    the same whether the line is read from its end or from its front.  Two lines differ in padding
    exactly if they are the same after trimming, and so under the same key.  Such lines have the
    same tokens or the same error.  Parsing works on these, also in a session after any number of
    actions; what a session does with the one line it does with the other; and the tokens decide
    whether a text passes for a name. -/
theorem padded_lines_agree (line : Bytes) :
    Token.scan (Utf8.trim line) = Token.scan line ∧
    Utf8.trim (Utf8.trim line) = Utf8.trim line ∧
    Utf8.trimEnds line = Utf8.trim line ∧
    ∀ line', (Utf8.DifferInPadding line line' ↔ Utf8.trim line = Utf8.trim line') ∧
      (Utf8.DifferInPadding line line' →
        Token.scan line' = Token.scan line ∧
        Form.ofLine line' = Token.scan line >>= Form.parse ∧
        (∀ size actions, (((Session.new size).after actions).parse line').answer =
          Token.scan line >>= Form.parse) ∧
        (∀ s : Session, s.parse line' = s.parse line) ∧
        ∀ name, Utf8.ofString name = line' →
          (isName name = true ↔ ∃ n, Token.scan (Utf8.trim line) = .ok [.name n])) := by
  refine ⟨scan_trim line, Utf8.trim_trim line, Utf8.trimEnds_eq_trim line, fun line' =>
    ⟨Utf8.differInPadding_iff, fun hpadding => ?_⟩⟩
  have htrim : Utf8.trim line' = Utf8.trim line := (Utf8.differInPadding_iff.mp hpadding).symm
  have hscan : Token.scan line' = Token.scan line := scan_congr htrim
  have hform : Form.ofLine line' = Token.scan line >>= Form.parse := by
    rw [ofLine_eq_scan_bind, hscan]
  refine ⟨hscan, hform, fun size actions => ?_, fun s => s.parse_congr htrim, ?_⟩
  · have hanswer := (Session.parse_spec (Session.sound_after_new size actions) line').1
    rw [hanswer, hform]
  · rintro name rfl
    rw [isName_eq_true_iff, scan_trim, hscan]

/-- A name with wide white space around it, and with other white space around it: what a session
    takes for the name passes for it as a text too. -/
theorem padded_lines_agree_on_rate :
    Utf8.DifferInPadding (Utf8.ofString "\u3000rate\u0085") (Utf8.ofString " rate\n") ∧
    Token.scan (Utf8.ofString " rate\n") = .ok [.name "rate"] ∧ isName " rate\n" = true := by
  have hpadding :
      Utf8.DifferInPadding (Utf8.ofString "\u3000rate\u0085") (Utf8.ofString " rate\n") :=
    ⟨Utf8.ofString "rate",
      ⟨['\u3000'], ['\u0085'], List.forall_mem_singleton.mpr rfl,
        List.forall_mem_singleton.mpr rfl, by decide⟩,
      ⟨[' '], ['\n'], List.forall_mem_singleton.mpr rfl, List.forall_mem_singleton.mpr rfl,
        by decide⟩⟩
  obtain ⟨htrim, -, -, hline⟩ := padded_lines_agree (Utf8.ofString "\u3000rate\u0085")
  obtain ⟨hscan, -, -, -, hname⟩ := (hline _).2 hpadding
  have hcore : Utf8.trim (Utf8.ofString "\u3000rate\u0085") = Utf8.ofString "rate" := by decide
  have hrate : Token.scan (Utf8.ofString "rate") = .ok [.name "rate"] := scan_ofString_iff.mpr rfl
  rw [hcore, hrate] at htrim
  refine ⟨hpadding, hscan.trans htrim.symm, (hname " rate\n" rfl).mpr ⟨"rate", ?_⟩⟩
  rw [hcore, hrate]

end PrefixCalc
