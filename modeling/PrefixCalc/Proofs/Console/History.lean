/-
  What a run at the prompt leaves in the history file.

  1. **Specification** — the entries of a file are its lines without what ends them
     (`History.entriesOf`); a run adds the lines that were entered, up to the one that asks to quit,
     without the blank ones (`entered`) and without repetitions (`History.withoutRepeats`).

  2. **Programs** — `History.load` reads the file through a buffer and stops at the first line that
     does not fit or is not UTF-8; `Console.prompting` adds to what was read; and at the end the file
     is written anew, unless the input broke off.

  3. **The crux** — every history that occurs is the last of some entries (`History.ofEntries`), and
     pushing, appending and reading do to it what putting entries at the end of the list does.  So a
     run leaves the entries before the first line that could not be read, then those added: nothing
     is lost if every line of the file can be read, and everything behind one that cannot.
-/
import PrefixCalc.Proofs.Console.Loops

namespace PrefixCalc

namespace History

/-! ## The entries of a file -/

/-- A line without its line feed. -/
def body (line : Bytes) : Bytes := if line.getLast? = some 0x0A then line.dropLast else line

/-- The entry that a line of a file holds.  A carriage return belongs to the line feed behind it. -/
def entryOf (line : Bytes) : Bytes :=
  if line.getLast? = some 0x0A then BufferedLine.dropReturn line.dropLast else line

/-- The entries that a file holds. -/
def entriesOf (contents : Bytes) : List Bytes := (linesOf contents).map entryOf

/-- A line of a file can be read: it fits into the buffer, and its entry is UTF-8. -/
def IsReadable (line : Bytes) : Prop :=
  (body line).length < BufferedLine.bufferSize ∧ Utf8.isLawful (entryOf line) = true

instance (line : Bytes) : Decidable (IsReadable line) := inferInstanceAs (Decidable (_ ∧ _))

/-- Lines up to the first that cannot be read. -/
def readable (lines : List Bytes) : List Bytes := lines.takeWhile fun line => decide (IsReadable line)

theorem readable_cons_of_isReadable {line : Bytes} (h : IsReadable line) (lines : List Bytes) :
    readable (line :: lines) = line :: readable lines := by
  simp [readable, h]

theorem readable_cons_of_not_isReadable {line : Bytes} (h : ¬ IsReadable line)
    (lines : List Bytes) : readable (line :: lines) = [] := by
  simp [readable, h]

theorem readable_eq_self {lines : List Bytes} (h : ∀ line ∈ lines, IsReadable line) :
    readable lines = lines :=
  List.takeWhile_eq_self_iff.mpr fun line hline => decide_eq_true (h line hline)

theorem getLast?_ne_lineFeed {line : Bytes} (h : 0x0A ∉ line) : line.getLast? ≠ some 0x0A :=
  fun hlast => h (List.mem_of_getLast? hlast)

theorem body_of_notMem {line : Bytes} (h : 0x0A ∉ line) : body line = line :=
  if_neg (getLast?_ne_lineFeed h)

theorem body_concat (line : Bytes) : body (line ++ [0x0A]) = line := by
  rw [body, List.getLast?_concat, if_pos rfl, List.dropLast_concat]

theorem entryOf_of_notMem {line : Bytes} (h : 0x0A ∉ line) : entryOf line = line :=
  if_neg (getLast?_ne_lineFeed h)

theorem entryOf_concat (line : Bytes) : entryOf (line ++ [0x0A]) = BufferedLine.dropReturn line := by
  rw [entryOf, List.getLast?_concat, if_pos rfl, List.dropLast_concat]

/-- What a history is kept as holds its entries, where none of them would be cut differently. -/
theorem entriesOf_contents {entries : List Bytes}
    (h : ∀ entry ∈ entries, 0x0A ∉ entry ∧ entry.getLast? ≠ some 0x0D) :
    entriesOf (contents ⟨entries⟩) = entries := by
  induction entries with
  | nil => rfl
  | cons entry entries ih =>
    obtain ⟨⟨hfeed, hreturn⟩, hentries⟩ := List.forall_mem_cons.mp h
    have hcontents : contents ⟨entry :: entries⟩ = entry ++ 0x0A :: contents ⟨entries⟩ := by
      simp only [contents, List.flatMap_cons, List.append_assoc, List.singleton_append]
    rw [hcontents, entriesOf, linesOf_append_lineFeed hfeed, List.map_cons, entryOf_concat,
      BufferedLine.dropReturn, if_neg hreturn]
    exact congrArg (entry :: ·) (ih hentries)

end History

/-! ## Reading through the buffer -/

namespace BufferedLine

/-- A line that fits is read whole. -/
theorem read_append_lineFeed {line : Bytes} (h : 0x0A ∉ line) (hlen : line.length < bufferSize)
    (rest : Bytes) : read (line ++ 0x0A :: rest) = ⟨dropReturn line, false, rest⟩ := by
  have htake : (line ++ 0x0A :: rest).take bufferSize =
      line ++ 0x0A :: rest.take (bufferSize - line.length - 1) := by
    rw [List.take_append, List.take_of_length_le (Nat.le_of_lt hlen)]
    obtain ⟨n, hn⟩ : ∃ n, bufferSize - line.length = n + 1 := ⟨bufferSize - line.length - 1, by omega⟩
    rw [hn, List.take_succ_cons, Nat.add_sub_cancel]
  have hdrop : (line ++ 0x0A :: rest).drop (line.length + 1) = rest := by
    rw [List.drop_length_add_append]
    rfl
  simp only [read, htake, takeWhile_append_lineFeed h, hdrop]
  rw [if_pos]
  simp

theorem read_of_notMem {line : Bytes} (h : 0x0A ∉ line) (hlen : line.length < bufferSize) :
    read line = ⟨line, false, []⟩ := by
  have htake : line.take bufferSize = line := List.take_of_length_le (Nat.le_of_lt hlen)
  have hwhole : line.takeWhile (· != 0x0A) = line :=
    List.takeWhile_eq_self_iff.mpr (bne_lineFeed_of_notMem h)
  simp only [read, htake, hwhole]
  rw [if_neg (Nat.lt_irrefl _), if_pos hlen]

/-- Of a line that does not fit there is only a part. -/
theorem isPart_read {line : Bytes} (h : 0x0A ∉ line) (hlen : bufferSize ≤ line.length)
    (rest : Bytes) : (read (line ++ rest)).isPart = true := by
  have htake : (line ++ rest).take bufferSize = line.take bufferSize :=
    List.take_append_of_le_length hlen
  have hheld : (line.take bufferSize).length = bufferSize := by
    rw [List.length_take, Nat.min_eq_left hlen]
  have hwhole : (line.take bufferSize).takeWhile (· != 0x0A) = line.take bufferSize :=
    List.takeWhile_eq_self_iff.mpr fun b hb => bne_lineFeed_of_notMem h b (List.mem_of_mem_take hb)
  simp only [read, htake, hwhole, hheld]
  rw [if_neg (Nat.lt_irrefl _), if_neg (Nat.lt_irrefl _)]

/-- What reading does at the first line of a text. -/
theorem read_of_isLineCut {text first : Bytes} {later : List Bytes}
    (h : IsLineCut text (first :: later)) :
    text ≠ [] ∧ ∃ rest, IsLineCut rest later ∧
      if (History.body first).length < bufferSize then
        read text = ⟨History.entryOf first, false, rest⟩
      else (read text).isPart = true := by
  cases h with
  | unfinished hne hline =>
    refine ⟨hne, [], .nil, ?_⟩
    rw [History.body_of_notMem hline, History.entryOf_of_notMem hline]
    split
    · next hlen => exact read_of_notMem hline hlen
    · next hlen =>
      have hpart := isPart_read hline (Nat.not_lt.mp hlen) []
      rwa [List.append_nil] at hpart
  | @line line rest _ hline hrest =>
    refine ⟨List.append_ne_nil_of_right_ne_nil line (List.cons_ne_nil 0x0A rest), rest, hrest, ?_⟩
    rw [History.body_concat, History.entryOf_concat]
    split
    · next hlen => exact read_append_lineFeed hline hlen rest
    · next hlen => exact isPart_read hline (Nat.not_lt.mp hlen) (0x0A :: rest)

/-- Where every line fits, what is read are the entries of the text. -/
theorem map_line_readAll {text : Bytes} {lines : List Bytes} (h : IsLineCut text lines)
    (hfit : ∀ line ∈ lines, (History.body line).length < bufferSize) :
    (readAll text).map (·.line) = lines.map History.entryOf := by
  induction lines generalizing text with
  | nil =>
    cases h
    rw [readAll, dif_pos rfl]
    rfl
  | cons first later ih =>
    obtain ⟨hne, rest, hrest, hread⟩ := read_of_isLineCut h
    obtain ⟨hfirst, hlater⟩ := List.forall_mem_cons.mp hfit
    rw [if_pos hfirst] at hread
    rw [readAll, dif_neg hne, hread, List.map_cons, List.map_cons, ih hrest hlater]

end BufferedLine

/-! ## Histories as the last of some entries -/

namespace History

/-- The history of these entries: as many of the last as are kept. -/
def ofEntries (entries : List Bytes) : History := ⟨entries.drop (entries.length - limit)⟩

/-- Lines without those that repeat the one before them; `last` is what comes before the first. -/
def withoutRepeats (last : Option Bytes) : List Bytes → List Bytes
  | [] => []
  | line :: lines =>
    if last = some line then withoutRepeats last lines
    else line :: withoutRepeats (some line) lines

theorem ofEntries_of_length_le {entries : List Bytes} (h : entries.length ≤ limit) :
    ofEntries entries = ⟨entries⟩ := by
  rw [ofEntries, Nat.sub_eq_zero_of_le h, List.drop_zero]

theorem push_ofEntries (entries : List Bytes) (line : Bytes) :
    (ofEntries entries).push line = ofEntries (entries ++ [line]) := by
  have hkept : entries.drop (entries.length - limit) ++ [line] =
      (entries ++ [line]).drop (entries.length - limit) :=
    (List.drop_append_of_le_length (Nat.sub_le _ _)).symm
  -- dropping what is too much before the line came and then the rest is dropping it at once
  have hcount : entries.length - limit +
      ((entries ++ [line]).length - (entries.length - limit) - limit) =
      (entries ++ [line]).length - limit := by
    rw [List.length_append, List.length_singleton]
    omega
  simp only [push, ofEntries, hkept, List.length_drop, List.drop_drop, hcount]

theorem getLast?_ofEntries (entries : List Bytes) :
    (ofEntries entries).lines.getLast? = entries.getLast? := by
  rw [ofEntries, List.getLast?_drop]
  split
  · next hlen =>
    have hempty : entries.length = 0 := by
      have hpos : 0 < limit := by decide
      omega
    rw [List.length_eq_zero_iff.mp hempty]
    rfl
  · rfl

/-- Lines that are entered one after another are added without repetitions. -/
theorem foldl_append_ofEntries (entries lines : List Bytes) :
    lines.foldl append (ofEntries entries) =
      ofEntries (entries ++ withoutRepeats entries.getLast? lines) := by
  induction lines generalizing entries with
  | nil => rw [withoutRepeats, List.append_nil, List.foldl_nil]
  | cons line lines ih =>
    rw [List.foldl_cons, append, getLast?_ofEntries, withoutRepeats]
    by_cases hrepeated : entries.getLast? = some line
    · rw [if_pos hrepeated, if_pos hrepeated, ih]
    · rw [if_neg hrepeated, if_neg hrepeated, push_ofEntries, ih, List.getLast?_concat,
        List.append_assoc, List.singleton_append]

/-- Reading adds the entries before the first line that cannot be read. -/
theorem addRead_readAll {text : Bytes} {lines : List Bytes} (h : IsLineCut text lines)
    (entries : List Bytes) (n : Nat) :
    ((ofEntries entries).addRead n (BufferedLine.readAll text)).1 =
      ofEntries (entries ++ (readable lines).map entryOf) := by
  induction lines generalizing text entries n with
  | nil =>
    cases h
    rw [BufferedLine.readAll, dif_pos rfl, addRead, readable, List.takeWhile_nil, List.map_nil,
      List.append_nil]
  | cons first later ih =>
    obtain ⟨hne, rest, hrest, hread⟩ := BufferedLine.read_of_isLineCut h
    rw [BufferedLine.readAll, dif_neg hne, addRead]
    by_cases hlen : (body first).length < BufferedLine.bufferSize
    · rw [if_pos hlen] at hread
      rw [hread, if_neg Bool.false_ne_true]
      cases hlawful : Utf8.isLawful (entryOf first) with
      | true =>
        rw [readable_cons_of_isReadable ⟨hlen, hlawful⟩, if_neg (by decide), push_ofEntries,
          ih hrest, List.map_cons, List.append_assoc, List.singleton_append]
      | false =>
        have hfirst : ¬ IsReadable first := fun hfirst => by rw [hfirst.2] at hlawful; cases hlawful
        rw [readable_cons_of_not_isReadable hfirst, List.map_nil, List.append_nil]
        rfl
    · have hfirst : ¬ IsReadable first := fun hfirst => hlen hfirst.1
      rw [if_neg hlen] at hread
      rw [if_pos hread, readable_cons_of_not_isReadable hfirst, List.map_nil, List.append_nil]

theorem load_file (path : String) (contents : Bytes) :
    (load path (.file contents)).1 = ofEntries ((readable (linesOf contents)).map entryOf) :=
  addRead_readAll (isLineCut_iff.mpr rfl) [] 1

end History

/-! ## A run at the prompt -/

/-- The lines of a run that are remembered: up to the one that asks to quit, without the blank ones. -/
def entered (lines : List Bytes) : List Bytes :=
  (Console.upToQuit lines).filter fun line => !Utf8.isAllBlank line

/-- The run ends with a reading error: no prompt can be shown, or the input breaks off before a line
    asks to quit. -/
def Settings.BreaksOff (s : Settings) (lines : List Bytes) (ending : SourceEnd) : Prop :=
  s.promptFault?.isSome = true ∨ ending = .broken ∧ ∀ line ∈ lines, ¬ AsksToQuit line

/-- The entries after a run: the old ones, and then what was entered. -/
def remembered (old lines : List Bytes) : List Bytes :=
  old ++ History.withoutRepeats old.getLast? (entered lines)

namespace Settings

variable {s : Settings}

theorem isEmpty_historyFile (hfile : s.historyFile ≠ "") : ¬ s.historyFile.isEmpty = true :=
  fun hempty => hfile (String.isEmpty_iff.mp hempty)

theorem openHistory_file (hfile : s.historyFile ≠ "") (contents : Bytes) :
    (s.openHistory (.file contents)).1 =
      History.ofEntries ((History.readable (linesOf contents)).map History.entryOf) := by
  rw [openHistory, if_neg (isEmpty_historyFile hfile)]
  exact History.load_file s.historyFile contents

theorem closeHistory_none (hfile : s.historyFile ≠ "") (history : History) :
    s.closeHistory history none = .done (some history.contents) := by
  simp only [closeHistory, if_neg (isEmpty_historyFile hfile)]

theorem closeHistory_some (hfile : s.historyFile ≠ "") (history : History) (cause : String) :
    ∃ message, s.closeHistory history (some cause) = .failed message := by
  simp only [closeHistory, if_neg (isEmpty_historyFile hfile)]
  exact ⟨_, rfl⟩

end Settings

namespace Console

variable {s : Settings} {size : Int} {showTrees : Bool} {c : Console}

/-- The first line is appended, unless it is blank. -/
theorem foldl_append_filter_cons (history : History) (line : Bytes) (lines : List Bytes) :
    ((line :: lines).filter fun line => !Utf8.isAllBlank line).foldl History.append history =
      (lines.filter fun line => !Utf8.isAllBlank line).foldl History.append
        (if Utf8.isAllBlank line then history else history.append line) := by
  cases hblank : Utf8.isAllBlank line with
  | true => rw [List.filter_cons_of_neg (by simp [hblank]), if_pos rfl]
  | false =>
    rw [List.filter_cons_of_pos (by simp [hblank]), if_neg Bool.false_ne_true, List.foldl_cons]

/-- Prompting appends what is entered. -/
theorem StartedWith.history_prompting (h : c.StartedWith s size showTrees) (history : History)
    (ending : SourceEnd) (lines : List Bytes) :
    (c.prompting history ending lines).2 = (entered lines).foldl History.append history := by
  induction lines generalizing c history with
  | nil => rfl
  | cons line lines ih =>
    have hstatus := h.status_handle line
    by_cases hquit : AsksToQuit line
    · rw [if_pos hquit] at hstatus
      rw [entered, upToQuit, if_pos hquit, foldl_append_filter_cons]
      simp only [prompting, enter, hstatus]
      rfl
    · rw [if_neg hquit] at hstatus
      rw [entered, upToQuit, if_neg hquit, foldl_append_filter_cons]
      simp only [prompting, enter, hstatus]
      exact ih (h.handle line) _

/-- How a run ends. -/
theorem StartedWith.converse_end (h : c.StartedWith s size showTrees) (lines : List Bytes)
    (ending : SourceEnd) (reason : String) (stored : Stored) (unwritable : Option String) :
    (s.BreaksOff lines ending →
      ∃ e : ReadError, (c.converse lines ending reason stored unwritable).2 = .failed e.message) ∧
    (¬ s.BreaksOff lines ending →
      (c.converse lines ending reason stored unwritable).2 =
        s.closeHistory ((entered lines).foldl History.append (s.openHistory stored).1)
          unwritable) := by
  have hhistory := h.history_prompting (s.openHistory stored).1 ending lines
  have hstatus : (c.prompting (s.openHistory stored).1 ending lines).1.status = .running ↔
      ∀ line ∈ lines, ¬ AsksToQuit line := by
    rw [(c.prompting_spec (s.openHistory stored).1 ending lines).2.2]
    exact h.status_handleAll_iff lines
  simp only [converse, h.settings_eq, Settings.BreaksOff]
  cases hprompt : s.promptFault? with
  | some e => exact ⟨fun _ => ⟨e, rfl⟩, fun hnot => absurd (Or.inl rfl) hnot⟩
  | none =>
    dsimp only
    rw [hhistory, ← hstatus]
    -- of the six combinations only a running console whose input breaks off fails
    cases (c.prompting (s.openHistory stored).1 ending lines).1.status <;> cases ending <;> simp

/-- A run that does not fail leaves the entries before the first line that could not be read, then
    what was entered, as far as that many are kept. -/
theorem StartedWith.converse_done (h : c.StartedWith s size showTrees) (hfile : s.historyFile ≠ "")
    {lines : List Bytes} {ending : SourceEnd} (hends : ¬ s.BreaksOff lines ending)
    (reason : String) (contents : Bytes) :
    (c.converse lines ending reason (.file contents) none).2 =
      .done (some (History.ofEntries
        (remembered ((History.readable (linesOf contents)).map History.entryOf) lines)).contents) := by
  rw [(h.converse_end lines ending reason (.file contents) none).2 hends,
    Settings.openHistory_file hfile, History.foldl_append_ofEntries,
    Settings.closeHistory_none hfile]
  rfl

/-- Where every line of the file can be read and there is room for all entries, a run that does not
    fail leaves what the file held before, and then what was entered. -/
theorem StartedWith.converse_done_of_isReadable (h : c.StartedWith s size showTrees)
    (hfile : s.historyFile ≠ "") {lines : List Bytes} {ending : SourceEnd}
    (hends : ¬ s.BreaksOff lines ending) (reason : String) {contents : Bytes}
    (hreadable : ∀ line ∈ linesOf contents, History.IsReadable line)
    (hroom : (remembered (History.entriesOf contents) lines).length ≤ History.limit) :
    (c.converse lines ending reason (.file contents) none).2 =
      .done (some (History.contents ⟨remembered (History.entriesOf contents) lines⟩)) := by
  rw [h.converse_done hfile hends reason contents, History.readable_eq_self hreadable,
    ← History.entriesOf, History.ofEntries_of_length_le hroom]

/-- A run ends well exactly if it is not broken off and the history file can be written. -/
theorem StartedWith.converse_isDone_iff (h : c.StartedWith s size showTrees)
    (hfile : s.historyFile ≠ "") (lines : List Bytes) (ending : SourceEnd) (reason : String)
    (contents : Bytes) (unwritable : Option String) :
    (∃ kept, (c.converse lines ending reason (.file contents) unwritable).2 = .done kept) ↔
      ¬ s.BreaksOff lines ending ∧ unwritable = none := by
  obtain ⟨hbroken, hended⟩ := h.converse_end lines ending reason (.file contents) unwritable
  constructor
  · rintro ⟨kept, hkept⟩
    have hends : ¬ s.BreaksOff lines ending := by
      intro hbreaks
      obtain ⟨e, he⟩ := hbroken hbreaks
      cases hkept.symm.trans he
    refine ⟨hends, ?_⟩
    cases unwritable with
    | none => rfl
    | some cause =>
      rw [hended hends] at hkept
      obtain ⟨message, hfailed⟩ := Settings.closeHistory_some hfile _ cause
      cases hkept.symm.trans hfailed
  · rintro ⟨hends, rfl⟩
    exact ⟨_, h.converse_done hfile hends reason contents⟩

/-- **No history is lost** if every line of the history file can be read.  A run ends well exactly if
    it is not broken off and the file can be written; the file afterwards holds what it held before,
    in order, and then the lines that were entered and are not blank, in order, without those that
    repeat the entry before them, as long as there is room for all of them.  If the run is broken
    off the file is as it was, whatever it holds. -/
theorem converse_keeps_history (s : Settings) (size : Int) (showTrees : Bool)
    (hfile : s.historyFile ≠ "") (contents : Bytes) (lines : List Bytes) (ending : SourceEnd)
    (reason : String) (unwritable : Option String) :
    let outcome :=
      ((start s size showTrees).converse lines ending reason (.file contents) unwritable).2
    let entries := remembered (History.entriesOf contents) lines
    (∀ kept, outcome = .done kept → (∀ line ∈ linesOf contents, History.IsReadable line) →
      entries.length ≤ History.limit →
      outcome.stored (.file contents) = .file (History.contents ⟨entries⟩)) ∧
    ((∃ kept, outcome = .done kept) ↔ ¬ s.BreaksOff lines ending ∧ unwritable = none) ∧
    (s.BreaksOff lines ending →
      ∃ e : ReadError, outcome = .failed e.message ∧
        outcome.stored (.file contents) = .file contents) ∧
    ((∀ entry ∈ entries, 0x0A ∉ entry ∧ entry.getLast? ≠ some 0x0D) →
      History.entriesOf (History.contents ⟨entries⟩) = entries) := by
  intro outcome entries
  have hstart := startedWith_start s size showTrees
  have hiff := hstart.converse_isDone_iff hfile lines ending reason contents unwritable
  refine ⟨?_, hiff, ?_, History.entriesOf_contents⟩
  · intro kept hkept hreadable hroom
    obtain ⟨hends, rfl⟩ := hiff.mp ⟨kept, hkept⟩
    have hdone : outcome = .done (some (History.contents ⟨entries⟩)) :=
      hstart.converse_done_of_isReadable hfile hends reason hreadable hroom
    rw [hdone]
    rfl
  · intro hbreaks
    obtain ⟨e, he⟩ :=
      (hstart.converse_end lines ending reason (.file contents) unwritable).1 hbreaks
    have hfailed : outcome = .failed e.message := he
    refine ⟨e, hfailed, ?_⟩
    rw [hfailed]
    rfl

/-- A file of one entry, which is entered once more, and then a blank line and another line are. -/
theorem converse_keeps_history_of_one_entry :
    let s : Settings := { historyFile := "h" }
    let contents := Utf8.ofString "(+ 1 2)\n"
    let lines := [Utf8.ofString "(+ 1 2)", Utf8.ofString "", Utf8.ofString "(+ 3)"]
    let outcome := ((start s 8 false).converse lines .finished "" (.file contents) none).2
    (∀ line ∈ linesOf contents, History.IsReadable line) ∧
      outcome.stored (.file contents) = .file (Utf8.ofString "(+ 1 2)\n(+ 3)\n") := by
  intro s contents lines outcome
  have hreadable : ∀ line ∈ linesOf contents, History.IsReadable line := by decide
  obtain ⟨hkept, hdone, -, -⟩ :=
    converse_keeps_history s 8 false (by decide) contents lines .finished "" none
  have hends : ¬ s.BreaksOff lines .finished := by
    rintro (hprompt | ⟨hbroken, -⟩)
    · exact absurd hprompt (by decide)
    · cases hbroken
  obtain ⟨kept, houtcome⟩ := hdone.mpr ⟨hends, rfl⟩
  refine ⟨hreadable, (hkept kept houtcome hreadable (by decide)).trans ?_⟩
  exact congrArg Stored.file (by decide)

/-- A file whose second line does not fit into the buffer: after a run that ends well, this line and
    the one behind it are gone. -/
theorem converse_loses_history_at_long_line :
    let s : Settings := { historyFile := "h" }
    let long : Bytes := List.replicate BufferedLine.bufferSize 0x78
    let before : Bytes :=
      Utf8.ofString "(+ 1 2)" ++ 0x0A :: (long ++ 0x0A :: Utf8.ofString "(+ 3 4)\n")
    let outcome :=
      ((start s 8 false).converse [Utf8.ofString "(+ 1)"] .finished "" (.file before) none).2
    let entries := remembered (History.entriesOf before) [Utf8.ofString "(+ 1)"]
    entries = [Utf8.ofString "(+ 1 2)", long, Utf8.ofString "(+ 3 4)", Utf8.ofString "(+ 1)"] ∧
      (∃ kept, outcome = .done kept) ∧
      outcome.stored (.file before) = .file (Utf8.ofString "(+ 1 2)\n(+ 1)\n") ∧
      outcome.stored (.file before) ≠ .file (History.contents ⟨entries⟩) := by
  intro s long before outcome entries
  have hlong : 0x0A ∉ long := fun hmem => absurd (List.eq_of_mem_replicate hmem) (by decide)
  have hlines : linesOf before =
      [Utf8.ofString "(+ 1 2)" ++ [0x0A], long ++ [0x0A], Utf8.ofString "(+ 3 4)\n"] := by
    have hlast : linesOf (Utf8.ofString "(+ 3 4)\n") = [Utf8.ofString "(+ 3 4)\n"] := by decide
    rw [linesOf_append_lineFeed (by decide), linesOf_append_lineFeed hlong, hlast]
  have hreadable : History.readable (linesOf before) = [Utf8.ofString "(+ 1 2)" ++ [0x0A]] := by
    have hfull : ¬ History.IsReadable (long ++ [0x0A]) := by
      rintro ⟨hlen, -⟩
      rw [History.body_concat, List.length_replicate] at hlen
      exact Nat.lt_irrefl _ hlen
    rw [hlines, History.readable_cons_of_isReadable (by decide),
      History.readable_cons_of_not_isReadable hfull]
  have hends : ¬ s.BreaksOff [Utf8.ofString "(+ 1)"] .finished := by
    rintro (hprompt | ⟨hbroken, -⟩)
    · exact absurd hprompt (by decide)
    · cases hbroken
  have hdone : outcome = .done (some (History.ofEntries (remembered
      ((History.readable (linesOf before)).map History.entryOf) [Utf8.ofString "(+ 1)"])).contents) :=
    (startedWith_start s 8 false).converse_done (by decide) hends "" before
  have hstored : outcome.stored (.file before) = .file (Utf8.ofString "(+ 1 2)\n(+ 1)\n") := by
    rw [hdone, hreadable]
    exact congrArg Stored.file (by decide)
  have hentries : entries =
      [Utf8.ofString "(+ 1 2)", long, Utf8.ofString "(+ 3 4)", Utf8.ofString "(+ 1)"] := by
    have hentry : History.entryOf (long ++ [0x0A]) = long := by
      have hreturn : long.getLast? ≠ some 0x0D := fun hlast =>
        absurd (List.eq_of_mem_replicate (List.mem_of_getLast? hlast)) (by decide)
      rw [History.entryOf_concat, BufferedLine.dropReturn, if_neg hreturn]
    show remembered ((linesOf before).map History.entryOf) _ = _
    rw [hlines, List.map_cons, List.map_cons, hentry]
    rfl
  refine ⟨hentries, ⟨_, hdone⟩, hstored, ?_⟩
  rw [hstored, hentries]
  intro hsame
  injection hsame with hsame
  -- the long line is in the one text and not in the other
  have hmem : 0x78 ∈ Utf8.ofString "(+ 1 2)\n(+ 1)\n" := by
    rw [hsame]
    refine List.mem_flatMap.mpr ⟨long, by simp, ?_⟩
    exact List.mem_append_left _ (List.mem_replicate.mpr ⟨by decide, rfl⟩)
  exact absurd hmem (by decide)

/-- **A run on an input** is one on the lines that are read from it, and if they fit into the buffer
    these are the lines of the input.  It ends well exactly if the prompt can be shown and the file
    can be written; a run that fails leaves the file as it was; and if every line of the file can be
    read, the file afterwards holds what it held before and then what was entered, as long as there
    is room for all of it. -/
theorem runInteractive_stored (s : Settings) (size : Int) (showTrees : Bool)
    (hfile : s.historyFile ≠ "") (contents input : Bytes) (unwritable : Option String) :
    let outcome :=
      ((start s size showTrees).runInteractive input (.file contents) unwritable).2
    let lines := (BufferedLine.readAll input).map (·.line)
    let entries := remembered (History.entriesOf contents) lines
    ((∃ kept, outcome = .done kept) ↔ s.promptFault? = none ∧ unwritable = none) ∧
    (∀ message, outcome = .failed message → outcome.stored (.file contents) = .file contents) ∧
    (∀ kept, outcome = .done kept → (∀ line ∈ linesOf contents, History.IsReadable line) →
      entries.length ≤ History.limit →
      outcome.stored (.file contents) = .file (History.contents ⟨entries⟩)) ∧
    ((∀ line ∈ linesOf input, (History.body line).length < BufferedLine.bufferSize) →
      lines = History.entriesOf input) := by
  intro outcome lines entries
  have hstart := startedWith_start s size showTrees
  have hbreaks : s.BreaksOff lines .finished ↔ s.promptFault?.isSome = true := by
    rw [Settings.BreaksOff]
    simp
  have hiff : (∃ kept, outcome = .done kept) ↔ ¬ s.BreaksOff lines .finished ∧ unwritable = none :=
    hstart.converse_isDone_iff hfile lines .finished "" contents unwritable
  refine ⟨?_, ?_, ?_, BufferedLine.map_line_readAll (isLineCut_iff.mpr rfl)⟩
  · rw [hiff, hbreaks, Option.not_isSome_iff_eq_none]
  · intro message hfailed
    rw [hfailed]
    rfl
  · intro kept hkept hreadable hroom
    obtain ⟨hends, rfl⟩ := hiff.mp ⟨kept, hkept⟩
    have hdone : outcome = .done (some (History.contents ⟨entries⟩)) :=
      hstart.converse_done_of_isReadable hfile hends "" hreadable hroom
    rw [hdone]
    rfl

end Console

end PrefixCalc
