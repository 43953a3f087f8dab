/-
  The two ends of a text.

  1. **Program** — `backward` reads a text from its last byte to its first.  A byte above the ASCII
     ones may end a sequence, so `lastPiece` goes back to the nearest byte that can begin one, and
     takes the sequence that begins there if it goes on to the end.

  2. **The crux** (`backward_eq`) — that is the reading from the front, in reverse, for every list
     of bytes.  A byte that is no continuation byte begins a piece wherever it stands, and all bytes
     of a sequence but the first are continuation bytes; so a sequence which is found from one end is
     found from the other, and what belongs to none is left over on both ways.  Hence white space at
     the end may be looked for from the end (`trimEnds_eq_trim`).

  3. **Padding** — texts are the same after trimming exactly if some text with white space around it
     is the one, and the same text with other white space around it is the other
     (`differInPadding_iff`).  Again no bytes of the text in the middle join those of the white
     space.
-/
import Mathlib.Data.List.Induction
import PrefixCalc.Proofs.Text.Encoding

namespace PrefixCalc.Utf8

/-! ## From the end to the front -/

/-- The bytes that the sequence ending with `last` would be made of: back over continuation bytes to
    the first byte that is none, but over three of them at most.  The bytes in front of `last` are
    given nearest first. -/
def lastSequence (last : UInt8) (before : Bytes) : Bytes :=
  (before.take (((before.take 3).takeWhile isTail).length + 1)).reverse ++ [last]

/-- The last piece of a text.  A byte that no sequence ends with is a piece of its own. -/
def lastPiece (last : UInt8) (before : Bytes) : Piece :=
  if last < 0x80 then ⟨Char.ofNat last.toNat, [last]⟩
  else
    match pieces (lastSequence last before) with
    | [p] => p
    | _ => ⟨replacement, [last]⟩

/-- The pieces of a text whose bytes are given last first, when the first `skip` of these belong to
    a character already read. -/
def backwardAfter : Nat → Bytes → List Piece
  | _, [] => []
  | skip + 1, _ :: before => backwardAfter skip before
  | 0, last :: before =>
    lastPiece last before :: backwardAfter ((lastPiece last before).bytes.length - 1) before

/-- The pieces of a text read from its end, the last piece first. -/
def backward (bs : Bytes) : List Piece := backwardAfter 0 bs.reverse

/-- A text without the white space around it, which is looked for at the front reading forwards and
    at the end reading backwards. -/
def trimEnds (bs : Bytes) : Bytes :=
  join (dropBlank (backward (join (dropBlank (pieces bs))))).reverse

/-! ## One piece -/

/-- A continuation byte begins no sequence. -/
theorem sequence?_of_isTail {b : UInt8} (h : isTail b = true) (rest : Bytes) :
    sequence? b rest = none := by
  rw [isTail_iff] at h
  have hone : ¬ b < 0x80 := fun hlt => absurd (UInt8.lt_iff_toNat_lt.mp hlt) (by simp; omega)
  have hrange : ∀ low high : UInt8, 0xBF < low.toNat →
      ¬ (decide (low ≤ b) && decide (b ≤ high)) = true := by
    intro low high hlow
    rw [inRange_iff]
    omega
  unfold sequence?
  rw [if_neg hone, if_neg (hrange 0xC2 0xDF (by decide)), if_neg (hrange 0xE0 0xEF (by decide)),
    if_neg (hrange 0xF0 0xF4 (by decide))]

/-- A sequence of one byte is ASCII. -/
theorem sequence?_nil {b : UInt8} (h : ¬ b < 0x80) : sequence? b [] = none := by
  unfold sequence?
  rw [if_neg h]
  split
  · rfl
  split
  · rfl
  split
  · rfl
  · rfl

theorem isTail_of_lt {b : UInt8} (h : b < 0x80) : isTail b = false := by
  have hlt : b.toNat < 0x80 := UInt8.lt_iff_toNat_lt.mp h
  rw [← Bool.not_eq_true, isTail_iff]
  omega

/-- The first byte of a lawful sequence is no continuation byte. -/
theorem isTail_lead {b : UInt8} {rest : Bytes} {found : Char × Nat}
    (h : sequence? b rest = some found) : isTail b = false := by
  cases hb : isTail b with
  | false => rfl
  | true =>
    rw [sequence?_of_isTail hb] at h
    cases h

/-- No more than three bytes of a sequence follow the first. -/
theorem length_tail_le {b : UInt8} {rest : Bytes} {c : Char} {n : Nat}
    (h : sequence? b rest = some (c, n)) : n ≤ 3 := by
  obtain ⟨hn, hc⟩ := sequence?_eq_some_iff.mp h
  have hlen := congrArg List.length hc
  rw [String.length_utf8EncodeChar, List.length_cons, List.length_take_of_le hn] at hlen
  have := c.utf8Size_le_four
  omega

/-- A piece that stands alone is a lawful sequence or a single byte that begins none. -/
theorem piece_cases {p : Piece} (h : pieces p.bytes = [p]) :
    (∃ b rest, p.bytes = b :: rest ∧ sequence? b rest = some (p.char, rest.length)) ∨
      (∃ b, sequence? b [] = none ∧ p = ⟨replacement, [b]⟩) := by
  obtain ⟨c, bytes⟩ := p
  cases bytes with
  | nil => cases h
  | cons b rest =>
    cases hs : sequence? b rest with
    | none =>
      rw [pieces_cons_of_none hs] at h
      injection h with hp _
      injection hp with hc hbytes
      injection hbytes with _ hrest
      subst hc hrest
      exact Or.inr ⟨b, hs, rfl⟩
    | some found =>
      obtain ⟨c', n⟩ := found
      obtain ⟨hn, -⟩ := sequence?_eq_some_iff.mp hs
      rw [pieces_cons_of_some hs] at h
      injection h with hp _
      injection hp with hc hbytes
      injection hbytes with _ hrest
      have hlen : n = rest.length := by rw [← List.length_take_of_le hn, hrest]
      subst hc hlen
      exact Or.inl ⟨b, rest, rfl, hs⟩

theorem join_singleton (p : Piece) : join [p] = p.bytes := by
  rw [join_cons, join_nil, List.append_nil]

/-- Every piece of a text can stand alone. -/
theorem pieces_bytes_of_mem {bs : Bytes} {p : Piece} (h : p ∈ pieces bs) :
    pieces p.bytes = [p] := by
  obtain ⟨ps, qs, hps⟩ := List.append_of_mem h
  have hmid : pieces bs = ps ++ [p] ++ qs := by rw [hps, List.append_assoc]; rfl
  rw [← join_singleton, pieces_join_of_append hmid]

/-- The last piece comes last in the bytes, and can stand alone. -/
theorem eq_append_of_pieces_concat {bs : Bytes} {ps : List Piece} {p : Piece}
    (h : pieces bs = ps ++ [p]) : bs = join ps ++ p.bytes ∧ pieces p.bytes = [p] := by
  constructor
  · rw [← join_pieces bs, h, join_append, join_singleton]
  · exact pieces_bytes_of_mem (h ▸ List.mem_append_right ps (List.mem_singleton_self p))

/-! ## The same pieces from both ends -/

/-- The search for the first byte of a sequence stops there. -/
theorem lastSequence_eq {lead last : UInt8} {mid before : Bytes} (hlead : isTail lead = false)
    (hmid : ∀ t ∈ mid, isTail t = true) (hlen : mid.length ≤ 2) :
    lastSequence last (mid.reverse ++ lead :: before) = lead :: mid ++ [last] := by
  have hback : ∀ t ∈ mid.reverse, isTail t = true := fun t ht => hmid t (List.mem_reverse.mp ht)
  obtain ⟨k, hk⟩ : ∃ k, 3 - mid.reverse.length = k + 1 :=
    ⟨2 - mid.length, by rw [List.length_reverse]; omega⟩
  have htails : ((mid.reverse ++ lead :: before).take 3).takeWhile isTail = mid.reverse := by
    rw [List.take_append, List.take_of_length_le (by rw [List.length_reverse]; omega), hk,
      List.take_succ_cons, List.takeWhile_append_of_pos hback,
      List.takeWhile_cons_of_neg (by rw [hlead]; nofun), List.append_nil]
  have htake : (mid.reverse ++ lead :: before).take (mid.reverse.length + 1) =
      mid.reverse ++ [lead] := by
    rw [List.take_length_add_append, List.take_succ_cons, List.take_zero]
  rw [lastSequence, htails, htake, List.reverse_append, List.reverse_reverse]
  rfl

/-- If the bytes up to the last one are a single piece when they are read from where a sequence can
    begin, then they are so when the text is read from its front. -/
theorem pieces_eq_of_lastSequence {last : UInt8} {before : Bytes} {q : Piece}
    (h : pieces (lastSequence last before) = [q]) :
    ∃ ps, pieces (before.reverse ++ [last]) = ps ++ [q] := by
  obtain ⟨k, hk⟩ : ∃ k, lastSequence last before = (before.take (k + 1)).reverse ++ [last] :=
    ⟨_, rfl⟩
  rw [hk] at h
  cases hfront : (before.take (k + 1)).reverse with
  | nil =>
    have hnil : before = [] := by simpa using hfront
    subst hnil
    exact ⟨[], h⟩
  | cons lead rest =>
    have htext : before.reverse = (before.drop (k + 1)).reverse ++ lead :: rest := by
      rw [← hfront, ← List.reverse_append, List.take_append_drop]
    rw [hfront, List.cons_append] at h
    have hlead : isTail lead = false := by
      cases hb : isTail lead with
      | false => rfl
      | true =>
        -- a continuation byte would be a piece of its own, with `last` in another one
        rw [pieces_cons_of_none (sequence?_of_isTail hb _)] at h
        have hrest : rest ++ [last] = [] := by
          rw [← join_pieces (rest ++ [last]), (List.cons.inj h).2, join_nil]
        exact absurd hrest (List.append_ne_nil_of_right_ne_nil rest (List.cons_ne_nil last []))
    refine ⟨pieces (before.drop (k + 1)).reverse, ?_⟩
    rw [htext, List.append_assoc, List.cons_append, pieces_append_of_not_isTail _ hlead, h]

/-- The search finds the piece that a text ends with, if this is a sequence of several bytes. -/
theorem lastSequence_of_piece {last : UInt8} {before front : Bytes} {p : Piece}
    (htext : before.reverse ++ [last] = front ++ p.bytes) (hp : pieces p.bytes = [p])
    (hascii : ¬ last < 0x80) :
    lastSequence last before = p.bytes ∨ p = ⟨replacement, [last]⟩ := by
  rcases piece_cases hp with ⟨lead, rest, hbytes, hs⟩ | ⟨b, -, rfl⟩
  · rw [hbytes] at htext
    rcases List.eq_nil_or_concat rest with rfl | ⟨mid, t, rfl⟩
    · -- a sequence of one byte would be ASCII
      obtain ⟨-, rfl⟩ := List.append_singleton_inj.mp htext
      rw [sequence?_nil hascii] at hs
      cases hs
    · left
      rw [List.concat_eq_append] at hs hbytes htext
      rw [← List.cons_append, ← List.append_assoc] at htext
      obtain ⟨hfront, rfl⟩ := List.append_singleton_inj.mp htext
      have hbefore : before = mid.reverse ++ lead :: front.reverse := by
        rw [← List.reverse_reverse before, hfront, List.reverse_append, List.reverse_cons,
          List.append_assoc, List.singleton_append]
      have htails := isTail_of_sequence? hs
      rw [List.take_length] at htails
      have hlen := length_tail_le hs
      rw [List.length_append, List.length_singleton] at hlen
      rw [hbefore, hbytes]
      exact lastSequence_eq (isTail_lead hs) (fun t ht => htails t (List.mem_append_left _ ht))
        (by omega)
  · obtain ⟨-, rfl⟩ := List.append_singleton_inj.mp htext
    exact Or.inr rfl

/-- The last piece is the same from both ends. -/
theorem lastPiece_eq {last : UInt8} {before : Bytes} {ps : List Piece} {p : Piece}
    (h : pieces (before.reverse ++ [last]) = ps ++ [p]) : lastPiece last before = p := by
  rw [lastPiece]
  split
  · next hascii =>
    -- an ASCII byte is a piece wherever it stands
    have hpieces : pieces [last] = [⟨Char.ofNat last.toNat, [last]⟩] :=
      pieces_cons_of_some (sequence?_one [] (UInt8.lt_iff_toNat_lt.mp hascii))
    rw [pieces_append_of_not_isTail _ (isTail_of_lt hascii), hpieces] at h
    exact (List.append_singleton_inj.mp h).2
  · next hascii =>
    split
    · next q hq =>
      obtain ⟨qs, hqs⟩ := pieces_eq_of_lastSequence hq
      rw [hqs] at h
      exact (List.append_singleton_inj.mp h).2
    · next hnone =>
      obtain ⟨htext, hp⟩ := eq_append_of_pieces_concat h
      rcases lastSequence_of_piece htext hp hascii with hfound | hstray
      · exact absurd (hfound ▸ hp) (hnone p)
      · exact hstray.symm

theorem backwardAfter_eq (n : Nat) (bs : Bytes) :
    backwardAfter n bs = backwardAfter 0 (bs.drop n) := by
  induction bs generalizing n with
  | nil => rw [backwardAfter, List.drop_nil, backwardAfter]
  | cons b before ih =>
    cases n with
    | zero => rfl
    | succ n => rw [backwardAfter, ih, List.drop_succ_cons]

/-- **Reading backwards is reading forwards, in reverse**, whether the bytes are lawful or not. -/
theorem backward_eq (bs : Bytes) : backward bs = (pieces bs).reverse := by
  induction hps : pieces bs using List.reverseRecOn generalizing bs with
  | nil =>
    have hbs : bs = [] := by rw [← join_pieces bs, hps, join_nil]
    rw [hbs]
    rfl
  | append_singleton ps p ih =>
    obtain ⟨hbs, hbytes⟩ := eq_append_of_pieces_concat hps
    have hfront : backward (join ps) = ps.reverse := ih _ (pieces_join_of_append_right hps)
    rcases List.eq_nil_or_concat p.bytes with hnil | ⟨front, last, hp⟩
    · rw [hnil] at hbytes
      cases hbytes
    · rw [List.concat_eq_append] at hp
      have hrev : bs.reverse = last :: (front.reverse ++ (join ps).reverse) := by
        rw [hbs, hp, List.reverse_append, List.reverse_append]
        rfl
      have hpieces :
          pieces ((front.reverse ++ (join ps).reverse).reverse ++ [last]) = ps ++ [p] := by
        rw [← hps, ← List.reverse_cons, ← hrev, List.reverse_reverse]
      have hskip : p.bytes.length - 1 = front.reverse.length := by
        rw [hp, List.length_append, List.length_reverse]
        rfl
      rw [backward, hrev, backwardAfter, lastPiece_eq hpieces, backwardAfter_eq, hskip,
        List.drop_left, List.reverse_append]
      exact congrArg (p :: ·) hfront

/-- White space at the end is the same from both sides. -/
theorem trimEnds_eq_trim (bs : Bytes) : trimEnds bs = trim bs := by
  obtain ⟨gap, -, hgap⟩ := exists_append_dropBlank (pieces bs)
  rw [trimEnds, backward_eq, pieces_join_of_append_left hgap]
  rfl

/-- A wide space cut short, a whole one and a line feed: the first two bytes stay, since the byte
    after them begins a character of its own. -/
example : trimEnds [0x78, 0xE2, 0x80, 0xE2, 0x80, 0x83, 0x0A] = [0x78, 0xE2, 0x80] := by
  decide +kernel

/-! ## Padding -/

/-- The second text is the first with white space around it. -/
def IsPadded (core line : Bytes) : Prop :=
  ∃ front back : List Char, (∀ c ∈ front, isBlank c = true) ∧ (∀ c ∈ back, isBlank c = true) ∧
    line = encode front ++ core ++ encode back

/-- The two texts differ at most in the white space around them. -/
def DifferInPadding (line line' : Bytes) : Prop :=
  ∃ core, IsPadded core line ∧ IsPadded core line'

theorem pieces_encode_append (cs : List Char) (bs : Bytes) :
    pieces (encode cs ++ bs) = pieces (encode cs) ++ pieces bs := by
  induction cs with
  | nil => rfl
  | cons c cs ih =>
    rw [encode, List.flatMap_cons, List.append_assoc, pieces_encodeChar_append,
      pieces_encodeChar_append, List.cons_append]
    exact congrArg (_ :: ·) ih

/-- A character begins a new piece, whatever bytes stand in front of it. -/
theorem pieces_append_encode (bs : Bytes) (cs : List Char) :
    pieces (bs ++ encode cs) = pieces bs ++ pieces (encode cs) := by
  cases cs with
  | nil => rw [encode, List.flatMap_nil, List.append_nil, pieces_nil, List.append_nil]
  | cons c cs =>
    cases hc : String.utf8EncodeChar c with
    | nil => exact absurd hc String.utf8EncodeChar_ne_nil
    | cons b tail =>
      rw [encode, List.flatMap_cons, hc, List.cons_append]
      exact pieces_append_of_not_isTail bs (isTail_lead (sequence?_of_encodeChar hc [])) _

theorem isBlank_of_mem_pieces_encode {cs : List Char} (h : ∀ c ∈ cs, isBlank c = true) :
    ∀ p ∈ pieces (encode cs), isBlank p.char = true := by
  intro p hp
  rw [pieces_encode] at hp
  obtain ⟨c, hc, rfl⟩ := List.mem_map.mp hp
  exact h c hc

theorem trimPieces_append {gap : List Piece} (h : ∀ p ∈ gap, isBlank p.char = true)
    (ps : List Piece) : trimPieces (ps ++ gap) = trimPieces ps := by
  induction gap using List.reverseRecOn with
  | nil => rw [List.append_nil]
  | append_singleton gap p ih =>
    rw [← List.append_assoc, trimPieces_concat (h p (by simp)),
      ih fun q hq => h q (List.mem_append_left _ hq)]

theorem trimPieces_blank_append {gap : List Piece} (h : ∀ p ∈ gap, isBlank p.char = true)
    (ps : List Piece) : trimPieces (gap ++ ps) = trimPieces ps := by
  have hfront : dropBlank (gap ++ ps) = dropBlank ps := List.dropWhile_append_of_pos h
  rw [trimPieces, hfront, trimPieces]

/-- Trimming takes padding away. -/
theorem trim_of_isPadded {core line : Bytes} (h : IsPadded core line) : trim line = trim core := by
  obtain ⟨front, back, hfront, hback, rfl⟩ := h
  have hpieces : trimPieces (pieces (encode front ++ core ++ encode back)) =
      trimPieces (pieces core) := by
    rw [pieces_append_encode, pieces_encode_append,
      trimPieces_append (isBlank_of_mem_pieces_encode hback),
      trimPieces_blank_append (isBlank_of_mem_pieces_encode hfront)]
  exact congrArg join hpieces

/-- White space is lawful: a byte that belongs to no sequence does not read as white space. -/
theorem bytes_of_isBlank {bs : Bytes} {p : Piece} (hp : p ∈ pieces bs)
    (hblank : isBlank p.char = true) : p.bytes = String.utf8EncodeChar p.char := by
  rcases piece_cases (pieces_bytes_of_mem hp) with ⟨b, rest, hbytes, hs⟩ | ⟨b, -, rfl⟩
  · rw [hbytes, (sequence?_eq_some_iff.mp hs).2, List.take_length]
  · have hreplacement : isBlank replacement = false := by decide
    rw [hreplacement] at hblank
    cases hblank

theorem join_blank {bs : Bytes} {gap : List Piece} (hsub : ∀ p ∈ gap, p ∈ pieces bs)
    (hblank : ∀ p ∈ gap, isBlank p.char = true) : join gap = encode (gap.map (·.char)) := by
  rw [encode, List.flatMap_map, join, List.flatMap_def, List.flatMap_def]
  exact congrArg List.flatten
    (List.map_congr_left fun p hp => bytes_of_isBlank (hsub p hp) (hblank p hp))

/-- Trimming takes nothing but padding away. -/
theorem isPadded_trim (line : Bytes) : IsPadded (trim line) line := by
  obtain ⟨gap, gap', hgap, hgap', h⟩ := exists_append_trimPieces (pieces line)
  have hfront : ∀ p ∈ gap, p ∈ pieces line := by
    intro p hp
    rw [h, List.append_assoc]
    exact List.mem_append_left _ hp
  have hback : ∀ p ∈ gap', p ∈ pieces line := by
    intro p hp
    rw [h]
    exact List.mem_append_right _ hp
  refine ⟨gap.map (·.char), gap'.map (·.char), isBlank_of_mem_map hgap,
    isBlank_of_mem_map hgap', ?_⟩
  have htrim : trim line = join (trimPieces (pieces line)) := rfl
  rw [← join_blank hfront hgap, ← join_blank hback hgap', htrim, ← join_append, ← join_append, ← h,
    join_pieces]

/-- Texts that differ in padding are those which trimming makes the same. -/
theorem differInPadding_iff {line line' : Bytes} :
    DifferInPadding line line' ↔ trim line = trim line' := by
  constructor
  · rintro ⟨core, h, h'⟩
    rw [trim_of_isPadded h, trim_of_isPadded h']
  · intro h
    exact ⟨trim line, isPadded_trim line, h ▸ isPadded_trim line'⟩

end PrefixCalc.Utf8
