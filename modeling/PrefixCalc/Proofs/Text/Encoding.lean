/-
  What the forgiving reader of UTF-8 does, said without its table of bytes.

  1. **One character** — `sequence?` finds a character exactly where the encoding of that character
     stands (`sequence?_eq_some_iff`).  A byte at which no encoding begins is the only kind of byte
     that reads as a replacement character.

  2. **The whole text** — `pieces` cuts at these places (`pieces_cons_of_some`,
     `pieces_cons_of_none`), loses no byte (`join_pieces`) and undoes `encode` (`decode_encode`).
     `Reads` states the same rule as a relation, and `decode` is the only reading it allows
     (`reads_iff`).

  3. **Cutting again** — some pieces of a text that stand side by side are the pieces of the bytes
     they were read from (`pieces_join_of_append`).  Bytes that are no lawful sequence where they
     stand do not become one when bytes in front of them or behind them are taken away.  So white
     space can be cut off at both ends without bringing a new character to light, and cutting it
     off a second time does nothing (`trim_trim`).
-/
import PrefixCalc.Text.Blank

namespace PrefixCalc.Utf8

/-! ## One character -/

/-- A code point that is neither a surrogate nor past U+10FFFF has a character. -/
theorem toNat_ofNat_of_lt {n : Nat} (h : n < 0xD800 ∨ 0xDFFF < n ∧ n < 0x110000) :
    (Char.ofNat n).val.toNat = n := by
  have hv : n.isValidChar := h
  rw [Char.ofNat, dif_pos hv]
  exact UInt32.toNat_ofNatLT

theorem byte_ofNat_eq {b : UInt8} {n : Nat} (h : n = b.toNat) : UInt8.ofNat n = b := by
  rw [h, UInt8.ofNat_toNat]

theorem isTail_iff (b : UInt8) : isTail b = true ↔ 0x80 ≤ b.toNat ∧ b.toNat ≤ 0xBF := by
  simp [isTail, UInt8.le_iff_toNat_le]

theorem isSecondOfThree_iff (lead b : UInt8) :
    isSecondOfThree lead b = true ↔
      (0x80 ≤ b.toNat ∧ b.toNat ≤ 0xBF) ∧ (lead.toNat = 0xE0 → 0xA0 ≤ b.toNat) ∧
        (lead.toNat = 0xED → b.toNat ≤ 0x9F) := by
  have hlead : ∀ k : UInt8, lead = k ↔ lead.toNat = k.toNat := fun k => UInt8.toNat_inj.symm
  simp only [isSecondOfThree, Bool.and_eq_true, isTail_iff, Bool.or_eq_true, bne_iff_ne, ne_eq,
    decide_eq_true_eq, hlead, UInt8.le_iff_toNat_le, UInt8.reduceToNat, and_assoc,
    Decidable.imp_iff_not_or]

theorem isSecondOfFour_iff (lead b : UInt8) :
    isSecondOfFour lead b = true ↔
      (0x80 ≤ b.toNat ∧ b.toNat ≤ 0xBF) ∧ (lead.toNat = 0xF0 → 0x90 ≤ b.toNat) ∧
        (lead.toNat = 0xF4 → b.toNat ≤ 0x8F) := by
  have hlead : ∀ k : UInt8, lead = k ↔ lead.toNat = k.toNat := fun k => UInt8.toNat_inj.symm
  simp only [isSecondOfFour, Bool.and_eq_true, isTail_iff, Bool.or_eq_true, bne_iff_ne, ne_eq,
    decide_eq_true_eq, hlead, UInt8.le_iff_toNat_le, UInt8.reduceToNat, and_assoc,
    Decidable.imp_iff_not_or]

/-! The encoding of a code point, by its size. -/

theorem encodeChar_one {v : Nat} (h : v < 0x80) :
    String.utf8EncodeChar (Char.ofNat v) = [UInt8.ofNat v] := by
  unfold String.utf8EncodeChar
  rw [toNat_ofNat_of_lt (by omega), if_pos (by omega)]

theorem encodeChar_two {v : Nat} (h₁ : 0x80 ≤ v) (h₂ : v < 0x800) :
    String.utf8EncodeChar (Char.ofNat v) =
      [UInt8.ofNat (v / 64 + 0xC0), UInt8.ofNat (v % 64 + 0x80)] := by
  unfold String.utf8EncodeChar
  rw [toNat_ofNat_of_lt (by omega), if_neg (by omega), if_pos (by omega),
    Nat.mod_eq_of_lt (show v / 64 < 0x20 by omega)]

theorem encodeChar_three {v : Nat} (h₁ : 0x800 ≤ v)
    (h₂ : v < 0xD800 ∨ 0xDFFF < v ∧ v < 0x10000) :
    String.utf8EncodeChar (Char.ofNat v) =
      [UInt8.ofNat (v / 4096 + 0xE0), UInt8.ofNat (v / 64 % 64 + 0x80),
        UInt8.ofNat (v % 64 + 0x80)] := by
  unfold String.utf8EncodeChar
  rw [toNat_ofNat_of_lt (by omega), if_neg (by omega), if_neg (by omega), if_pos (by omega),
    Nat.mod_eq_of_lt (show v / 4096 < 0x10 by omega)]

theorem encodeChar_four {v : Nat} (h₁ : 0x10000 ≤ v) (h₂ : v < 0x110000) :
    String.utf8EncodeChar (Char.ofNat v) =
      [UInt8.ofNat (v / 262144 + 0xF0), UInt8.ofNat (v / 4096 % 64 + 0x80),
        UInt8.ofNat (v / 64 % 64 + 0x80), UInt8.ofNat (v % 64 + 0x80)] := by
  unfold String.utf8EncodeChar
  rw [toNat_ofNat_of_lt (by omega), if_neg (by omega), if_neg (by omega), if_neg (by omega),
    Nat.mod_eq_of_lt (show v / 262144 < 0x08 by omega)]

/-- Where `sequence?` finds a character, there stands its encoding. -/
theorem encodeChar_of_sequence? {b : UInt8} {rest : Bytes} {c : Char} {n : Nat}
    (h : sequence? b rest = some (c, n)) :
    n ≤ rest.length ∧ String.utf8EncodeChar c = b :: rest.take n := by
  have hb := b.toNat_lt
  unfold sequence? at h
  split at h
  · next hlead =>
    -- one byte
    injection h with h
    injection h with hc hn
    subst hc hn
    have hlead : b.toNat < 0x80 := UInt8.lt_iff_toNat_lt.mp hlead
    rw [encodeChar_one hlead, byte_ofNat_eq rfl]
    exact ⟨Nat.zero_le _, rfl⟩
  split at h
  · next hlead =>
    -- two bytes
    simp only [Bool.and_eq_true, decide_eq_true_eq, UInt8.le_iff_toNat_le,
      UInt8.reduceToNat] at hlead
    split at h
    · split at h
      · next b₁ _ ht =>
        injection h with h
        injection h with hc hn
        subst hc hn
        rw [isTail_iff] at ht
        unfold tailBits
        rw [encodeChar_two (by omega) (by omega), byte_ofNat_eq (b := b) (by omega),
          byte_ofNat_eq (b := b₁) (by omega)]
        exact ⟨Nat.le_add_left _ _, rfl⟩
      · nomatch h
    · nomatch h
  split at h
  · next hlead =>
    -- three bytes
    simp only [Bool.and_eq_true, decide_eq_true_eq, UInt8.le_iff_toNat_le,
      UInt8.reduceToNat] at hlead
    split at h
    · split at h
      · next b₁ b₂ _ ht =>
        injection h with h
        injection h with hc hn
        subst hc hn
        rw [Bool.and_eq_true, isSecondOfThree_iff, isTail_iff] at ht
        unfold tailBits
        rw [encodeChar_three (by omega) (by omega), byte_ofNat_eq (b := b) (by omega),
          byte_ofNat_eq (b := b₁) (by omega), byte_ofNat_eq (b := b₂) (by omega)]
        exact ⟨Nat.le_add_left _ _, rfl⟩
      · nomatch h
    · nomatch h
  split at h
  · next hlead =>
    -- four bytes
    simp only [Bool.and_eq_true, decide_eq_true_eq, UInt8.le_iff_toNat_le,
      UInt8.reduceToNat] at hlead
    split at h
    · split at h
      · next b₁ b₂ b₃ _ ht =>
        injection h with h
        injection h with hc hn
        subst hc hn
        rw [Bool.and_eq_true, Bool.and_eq_true, isSecondOfFour_iff, isTail_iff, isTail_iff] at ht
        unfold tailBits
        rw [encodeChar_four (by omega) (by omega), byte_ofNat_eq (b := b) (by omega),
          byte_ofNat_eq (b := b₁) (by omega), byte_ofNat_eq (b := b₂) (by omega),
          byte_ofNat_eq (b := b₃) (by omega)]
        exact ⟨Nat.le_add_left _ _, rfl⟩
      · nomatch h
    · nomatch h
  · nomatch h

/-! The sequences of each length, by the values of their bytes. -/

theorem inRange_iff (low high b : UInt8) :
    (decide (low ≤ b) && decide (b ≤ high)) = true ↔
      low.toNat ≤ b.toNat ∧ b.toNat ≤ high.toNat := by
  rw [Bool.and_eq_true, decide_eq_true_eq, decide_eq_true_eq, UInt8.le_iff_toNat_le,
    UInt8.le_iff_toNat_le]

theorem sequence?_one {b : UInt8} (rest : Bytes) (h : b.toNat < 0x80) :
    sequence? b rest = some (Char.ofNat b.toNat, 0) := by
  unfold sequence?
  rw [if_pos (UInt8.lt_iff_toNat_lt.mpr h)]

theorem sequence?_two {b b₁ : UInt8} (rest : Bytes) (h : 0xC2 ≤ b.toNat ∧ b.toNat ≤ 0xDF)
    (h₁ : 0x80 ≤ b₁.toNat ∧ b₁.toNat ≤ 0xBF) :
    sequence? b (b₁ :: rest) =
      some (Char.ofNat ((b.toNat - 0xC0) * 64 + (b₁.toNat - 0x80)), 1) := by
  have hone : ¬ b < 0x80 := fun hlt => absurd (UInt8.lt_iff_toNat_lt.mp hlt) (by simp; omega)
  unfold sequence?
  rw [if_neg hone, if_pos ((inRange_iff 0xC2 0xDF b).mpr h)]
  exact if_pos ((isTail_iff b₁).mpr h₁)

theorem sequence?_three {b b₁ b₂ : UInt8} (rest : Bytes) (h : 0xE0 ≤ b.toNat ∧ b.toNat ≤ 0xEF)
    (h₁ : 0x80 ≤ b₁.toNat ∧ b₁.toNat ≤ 0xBF) (hlow : b.toNat = 0xE0 → 0xA0 ≤ b₁.toNat)
    (hhigh : b.toNat = 0xED → b₁.toNat ≤ 0x9F) (h₂ : 0x80 ≤ b₂.toNat ∧ b₂.toNat ≤ 0xBF) :
    sequence? b (b₁ :: b₂ :: rest) =
      some (Char.ofNat ((b.toNat - 0xE0) * 4096 + (b₁.toNat - 0x80) * 64 + (b₂.toNat - 0x80)),
        2) := by
  have hone : ¬ b < 0x80 := fun hlt => absurd (UInt8.lt_iff_toNat_lt.mp hlt) (by simp; omega)
  have htwo : ¬ (decide (0xC2 ≤ b) && decide (b ≤ 0xDF)) = true := by
    rw [inRange_iff]; simp; omega
  have hsecond := (isSecondOfThree_iff b b₁).mpr ⟨h₁, hlow, hhigh⟩
  have hthird := (isTail_iff b₂).mpr h₂
  unfold sequence?
  rw [if_neg hone, if_neg htwo, if_pos ((inRange_iff 0xE0 0xEF b).mpr h)]
  exact if_pos (by rw [hsecond, hthird]; rfl)

theorem sequence?_four {b b₁ b₂ b₃ : UInt8} (rest : Bytes) (h : 0xF0 ≤ b.toNat ∧ b.toNat ≤ 0xF4)
    (h₁ : 0x80 ≤ b₁.toNat ∧ b₁.toNat ≤ 0xBF) (hlow : b.toNat = 0xF0 → 0x90 ≤ b₁.toNat)
    (hhigh : b.toNat = 0xF4 → b₁.toNat ≤ 0x8F) (h₂ : 0x80 ≤ b₂.toNat ∧ b₂.toNat ≤ 0xBF)
    (h₃ : 0x80 ≤ b₃.toNat ∧ b₃.toNat ≤ 0xBF) :
    sequence? b (b₁ :: b₂ :: b₃ :: rest) =
      some (Char.ofNat ((b.toNat - 0xF0) * 262144 + (b₁.toNat - 0x80) * 4096
        + (b₂.toNat - 0x80) * 64 + (b₃.toNat - 0x80)), 3) := by
  have hone : ¬ b < 0x80 := fun hlt => absurd (UInt8.lt_iff_toNat_lt.mp hlt) (by simp; omega)
  have htwo : ¬ (decide (0xC2 ≤ b) && decide (b ≤ 0xDF)) = true := by
    rw [inRange_iff]; simp; omega
  have hthree : ¬ (decide (0xE0 ≤ b) && decide (b ≤ 0xEF)) = true := by
    rw [inRange_iff]; simp; omega
  have hsecond := (isSecondOfFour_iff b b₁).mpr ⟨h₁, hlow, hhigh⟩
  have hthird := (isTail_iff b₂).mpr h₂
  have hfourth := (isTail_iff b₃).mpr h₃
  unfold sequence?
  rw [if_neg hone, if_neg htwo, if_neg hthree, if_pos ((inRange_iff 0xF0 0xF4 b).mpr h)]
  exact if_pos (by rw [hsecond, hthird, hfourth]; rfl)

theorem toNat_byte_ofNat {n : Nat} (h : n < 256) : (UInt8.ofNat n).toNat = n := by
  rw [UInt8.toNat_ofNat', Nat.mod_eq_of_lt h]

/-- The encoding of a character is found, whatever comes after it. -/
theorem sequence?_of_encodeChar {c : Char} {b : UInt8} {tail : Bytes}
    (h : String.utf8EncodeChar c = b :: tail) (rest : Bytes) :
    sequence? b (tail ++ rest) = some (c, tail.length) := by
  obtain ⟨v, hv, rfl⟩ : ∃ v, (v < 0xD800 ∨ 0xDFFF < v ∧ v < 0x110000) ∧ c = Char.ofNat v :=
    ⟨c.toNat, c.valid, (Char.ofNat_toNat c).symm⟩
  rcases Nat.lt_or_ge v 0x80 with h₁ | h₁
  · -- one byte
    rw [encodeChar_one h₁] at h
    injection h with hb ht
    subst hb ht
    have hlead := toNat_byte_ofNat (n := v) (by omega)
    rw [sequence?_one _ (by omega), hlead]
    rfl
  rcases Nat.lt_or_ge v 0x800 with h₂ | h₂
  · -- two bytes
    rw [encodeChar_two h₁ h₂] at h
    injection h with hb ht
    subst hb ht
    have hlead := toNat_byte_ofNat (n := v / 64 + 0xC0) (by omega)
    have htail := toNat_byte_ofNat (n := v % 64 + 0x80) (by omega)
    have hcode : (v / 64 + 0xC0 - 0xC0) * 64 + (v % 64 + 0x80 - 0x80) = v := by omega
    rw [List.cons_append, sequence?_two _ (by omega) (by omega), hlead, htail, hcode]
    rfl
  rcases Nat.lt_or_ge v 0x10000 with h₃ | h₃
  · -- three bytes
    rw [encodeChar_three h₂ (by omega)] at h
    injection h with hb ht
    subst hb ht
    have hlead := toNat_byte_ofNat (n := v / 4096 + 0xE0) (by omega)
    have hsecond := toNat_byte_ofNat (n := v / 64 % 64 + 0x80) (by omega)
    have hthird := toNat_byte_ofNat (n := v % 64 + 0x80) (by omega)
    have hcode : (v / 4096 + 0xE0 - 0xE0) * 4096 + (v / 64 % 64 + 0x80 - 0x80) * 64
        + (v % 64 + 0x80 - 0x80) = v := by omega
    rw [List.cons_append, List.cons_append, sequence?_three _ (by omega) (by omega) (by omega)
      (by omega) (by omega), hlead, hsecond, hthird, hcode]
    rfl
  · -- four bytes
    rw [encodeChar_four h₃ (by omega)] at h
    injection h with hb ht
    subst hb ht
    have hlead := toNat_byte_ofNat (n := v / 262144 + 0xF0) (by omega)
    have hsecond := toNat_byte_ofNat (n := v / 4096 % 64 + 0x80) (by omega)
    have hthird := toNat_byte_ofNat (n := v / 64 % 64 + 0x80) (by omega)
    have hfourth := toNat_byte_ofNat (n := v % 64 + 0x80) (by omega)
    have hcode : (v / 262144 + 0xF0 - 0xF0) * 262144 + (v / 4096 % 64 + 0x80 - 0x80) * 4096
        + (v / 64 % 64 + 0x80 - 0x80) * 64 + (v % 64 + 0x80 - 0x80) = v := by omega
    rw [List.cons_append, List.cons_append, List.cons_append, sequence?_four _ (by omega)
      (by omega) (by omega) (by omega) (by omega) (by omega), hlead, hsecond, hthird, hfourth,
      hcode]
    rfl

/-- A character is found exactly where its encoding stands. -/
theorem sequence?_eq_some_iff {b : UInt8} {rest : Bytes} {c : Char} {n : Nat} :
    sequence? b rest = some (c, n) ↔
      n ≤ rest.length ∧ String.utf8EncodeChar c = b :: rest.take n := by
  refine ⟨encodeChar_of_sequence?, fun ⟨hn, hc⟩ => ?_⟩
  have h := sequence?_of_encodeChar hc (rest.drop n)
  rwa [List.take_append_drop, List.length_take_of_le hn] at h

/-- All bytes of a character but the first are continuation bytes. -/
theorem isTail_of_sequence? {b : UInt8} {rest : Bytes} {c : Char} {n : Nat}
    (h : sequence? b rest = some (c, n)) : ∀ t ∈ rest.take n, isTail t = true := by
  unfold sequence? at h
  split at h
  · injection h with h
    injection h with _ hn
    subst hn
    exact List.forall_mem_nil _
  split at h
  · split at h
    · split at h
      · next ht =>
        injection h with h
        injection h with _ hn
        subst hn
        simpa using ht
      · cases h
    · cases h
  split at h
  · split at h
    · split at h
      · next ht =>
        injection h with h
        injection h with _ hn
        subst hn
        simp only [isSecondOfThree, Bool.and_eq_true] at ht
        simpa using ⟨ht.1.1.1, ht.2⟩
      · cases h
    · cases h
  split at h
  · split at h
    · split at h
      · next ht =>
        injection h with h
        injection h with _ hn
        subst hn
        simp only [isSecondOfFour, Bool.and_eq_true] at ht
        simpa using ⟨ht.1.1.1.1, ht.1.2, ht.2⟩
      · cases h
    · cases h
  · cases h

/-! ## The whole text -/

@[simp] theorem pieces_nil : pieces [] = [] := rfl

theorem piecesAfter_eq (n : Nat) (bs : Bytes) : piecesAfter n bs = pieces (bs.drop n) := by
  induction bs generalizing n with
  | nil => rw [piecesAfter, List.drop_nil, pieces_nil]
  | cons b rest ih =>
    cases n with
    | zero => rfl
    | succ n => rw [piecesAfter, ih, List.drop_succ_cons]

/-- Where an encoding stands, it is the first piece. -/
theorem pieces_cons_of_some {b : UInt8} {rest : Bytes} {c : Char} {n : Nat}
    (h : sequence? b rest = some (c, n)) :
    pieces (b :: rest) = ⟨c, b :: rest.take n⟩ :: pieces (rest.drop n) := by
  rw [← piecesAfter_eq]
  simp only [pieces, piecesAfter, h]

/-- Where none stands, one byte is the first piece. -/
theorem pieces_cons_of_none {b : UInt8} {rest : Bytes} (h : sequence? b rest = none) :
    pieces (b :: rest) = ⟨replacement, [b]⟩ :: pieces rest := by
  simp only [pieces, piecesAfter, h]

theorem join_append (ps qs : List Piece) : join (ps ++ qs) = join ps ++ join qs := by
  rw [join, List.flatMap_append]
  rfl

/-- No byte is lost. -/
theorem join_pieces (bs : Bytes) : join (pieces bs) = bs := by
  induction hlen : bs.length using Nat.strongRecOn generalizing bs with
  | ind k ih =>
    subst hlen
    cases bs with
    | nil => rfl
    | cons b rest =>
      cases h : sequence? b rest with
      | none =>
        rw [pieces_cons_of_none h, join_cons, ih _ (Nat.lt_succ_self _) rest rfl]
        rfl
      | some found =>
        obtain ⟨c, n⟩ := found
        have hshort : (rest.drop n).length < (b :: rest).length := by
          rw [List.length_drop, List.length_cons]; omega
        rw [pieces_cons_of_some h, join_cons, ih _ hshort _ rfl, List.cons_append,
          List.take_append_drop]

theorem pieces_encodeChar_append (c : Char) (bs : Bytes) :
    pieces (String.utf8EncodeChar c ++ bs) = ⟨c, String.utf8EncodeChar c⟩ :: pieces bs := by
  cases hc : String.utf8EncodeChar c with
  | nil => exact absurd hc String.utf8EncodeChar_ne_nil
  | cons b tail =>
    rw [List.cons_append, pieces_cons_of_some (sequence?_of_encodeChar hc bs),
      List.take_left, List.drop_left]

theorem decode_encode_append (cs : List Char) (bs : Bytes) :
    decode (encode cs ++ bs) = cs ++ decode bs := by
  induction cs with
  | nil => rfl
  | cons c cs ih =>
    rw [encode, List.flatMap_cons, List.append_assoc, decode, pieces_encodeChar_append,
      List.map_cons, List.cons_append]
    exact congrArg (c :: ·) ih

/-- Reading undoes writing. -/
theorem decode_encode (cs : List Char) : decode (encode cs) = cs := by
  have h := decode_encode_append cs []
  rwa [List.append_nil, decode_nil, List.append_nil] at h

theorem decode_ofString (s : String) : decode (ofString s) = s.toList := decode_encode s.toList

/-- Reading as a rule: a character where its encoding stands, and a replacement character for each
    byte at which no encoding begins. -/
inductive Reads : Bytes → List Char → Prop
  | nil : Reads [] []
  | char (c : Char) {bs : Bytes} {cs : List Char} :
      Reads bs cs → Reads (String.utf8EncodeChar c ++ bs) (c :: cs)
  | stray {b : UInt8} {bs : Bytes} {cs : List Char} :
      (∀ c, ¬ String.utf8EncodeChar c <+: b :: bs) → Reads bs cs →
        Reads (b :: bs) (replacement :: cs)

theorem sequence?_eq_none {b : UInt8} {bs : Bytes}
    (h : ∀ c, ¬ String.utf8EncodeChar c <+: b :: bs) : sequence? b bs = none := by
  cases hs : sequence? b bs with
  | none => rfl
  | some found =>
    obtain ⟨c, n⟩ := found
    have hc := (sequence?_eq_some_iff.mp hs).2
    refine absurd ?_ (h c)
    rw [hc]
    exact List.cons_prefix_cons.mpr ⟨rfl, List.take_prefix n bs⟩

/-- The rule gives every text one reading, the one that is computed. -/
theorem reads_iff {bs : Bytes} {cs : List Char} : Reads bs cs ↔ decode bs = cs := by
  constructor
  · intro h
    induction h with
    | nil => rfl
    | char c _ ih => rw [decode, pieces_encodeChar_append, List.map_cons, ← ih, decode]
    | stray hb _ ih => rw [decode, pieces_cons_of_none (sequence?_eq_none hb), List.map_cons, ← ih,
        decode]
  · rintro rfl
    induction hlen : bs.length using Nat.strongRecOn generalizing bs with
    | ind k ih =>
      subst hlen
      cases bs with
      | nil => exact .nil
      | cons b rest =>
        cases hs : sequence? b rest with
        | none =>
          have hb : ∀ c, ¬ String.utf8EncodeChar c <+: b :: rest := by
            rintro c ⟨after, hc⟩
            cases hchar : String.utf8EncodeChar c with
            | nil => exact String.utf8EncodeChar_ne_nil hchar
            | cons b' tail =>
              rw [hchar, List.cons_append] at hc
              obtain ⟨rfl, rfl⟩ := List.cons.inj hc
              rw [sequence?_of_encodeChar hchar after] at hs
              nomatch hs
          rw [decode, pieces_cons_of_none hs]
          exact .stray hb (ih _ (Nat.lt_succ_self _) rfl)
        | some found =>
          obtain ⟨c, n⟩ := found
          obtain ⟨hn, hc⟩ := sequence?_eq_some_iff.mp hs
          have hshort : (rest.drop n).length < (b :: rest).length := by
            rw [List.length_drop, List.length_cons]; omega
          have hread := Reads.char c (ih _ hshort rfl)
          rw [hc, List.cons_append, List.take_append_drop] at hread
          rw [decode, pieces_cons_of_some hs]
          exact hread

/-! ## Cutting again -/

/-- The pieces after a cut are those of the bytes after it. -/
theorem pieces_join_of_append_left {bs : Bytes} {ps qs : List Piece} (h : pieces bs = ps ++ qs) :
    pieces (join qs) = qs := by
  induction ps generalizing bs with
  | nil => rw [List.nil_append] at h; rw [← h, join_pieces]
  | cons p ps ih =>
    cases bs with
    | nil => nomatch h
    | cons b rest =>
      cases hs : sequence? b rest with
      | none =>
        rw [pieces_cons_of_none hs] at h
        exact ih (List.cons.inj h).2
      | some found =>
        rw [pieces_cons_of_some hs] at h
        exact ih (List.cons.inj h).2

/-- The pieces before a cut are those of the bytes before it: what is lawful there was lawful
    already, since the bytes behind it play no part. -/
theorem pieces_join_of_append_right {bs : Bytes} {ps qs : List Piece} (h : pieces bs = ps ++ qs) :
    pieces (join ps) = ps := by
  induction ps generalizing bs with
  | nil => rfl
  | cons p ps ih =>
    cases bs with
    | nil => nomatch h
    | cons b rest =>
      cases hs : sequence? b rest with
      | none =>
        rw [pieces_cons_of_none hs, List.cons_append] at h
        obtain ⟨rfl, htail⟩ := List.cons.inj h
        have hrest : rest = join ps ++ join qs := by
          rw [← join_append, ← htail, join_pieces]
        have hnone : sequence? b (join ps) = none := by
          cases hp : sequence? b (join ps) with
          | none => rfl
          | some found =>
            obtain ⟨c, n⟩ := found
            obtain ⟨hn, hc⟩ := sequence?_eq_some_iff.mp hp
            have hlong : sequence? b rest = some (c, n) := by
              rw [sequence?_eq_some_iff, hrest, List.take_append_of_le_length hn,
                List.length_append]
              exact ⟨Nat.le_add_right_of_le hn, hc⟩
            rw [hs] at hlong
            nomatch hlong
        rw [join_cons, List.singleton_append, pieces_cons_of_none hnone, ih htail]
      | some found =>
        obtain ⟨c, n⟩ := found
        rw [pieces_cons_of_some hs] at h
        obtain ⟨rfl, htail⟩ := List.cons.inj h
        obtain ⟨hn, hc⟩ := sequence?_eq_some_iff.mp hs
        have hlen : (rest.take n).length = n := List.length_take_of_le hn
        have hsome := sequence?_of_encodeChar hc (join ps)
        rw [join_cons, List.cons_append, pieces_cons_of_some hsome, List.take_left, List.drop_left,
          ih htail]

/-- Pieces that stand side by side are the pieces of their bytes. -/
theorem pieces_join_of_append {bs : Bytes} {ps qs rs : List Piece}
    (h : pieces bs = ps ++ qs ++ rs) : pieces (join qs) = qs := by
  rw [List.append_assoc] at h
  exact pieces_join_of_append_right (pieces_join_of_append_left h)

/-- A byte that is no continuation byte begins a new piece, whatever stands before it: a sequence
    that is cut short there stays cut short. -/
theorem pieces_append_of_not_isTail (bs : Bytes) {b : UInt8} (hb : isTail b = false)
    (rest : Bytes) : pieces (bs ++ b :: rest) = pieces bs ++ pieces (b :: rest) := by
  induction hlen : bs.length using Nat.strongRecOn generalizing bs with
  | ind k ih =>
    subst hlen
    cases bs with
    | nil => rfl
    | cons a bs =>
      cases hs : sequence? a bs with
      | none =>
        have hnone : sequence? a (bs ++ b :: rest) = none := by
          cases hlong : sequence? a (bs ++ b :: rest) with
          | none => rfl
          | some found =>
            obtain ⟨c, n⟩ := found
            obtain ⟨-, hc⟩ := sequence?_eq_some_iff.mp hlong
            rcases Nat.lt_or_ge bs.length n with hn | hn
            · -- the sequence would go on over `b`
              have hmem : b ∈ (bs ++ b :: rest).take n := by
                obtain ⟨k, hk⟩ := Nat.exists_eq_add_of_lt hn
                rw [hk, List.take_append, Nat.add_assoc, Nat.add_sub_cancel_left,
                  List.take_succ_cons]
                exact List.mem_append_right _ List.mem_cons_self
              have htail := isTail_of_sequence? hlong b hmem
              rw [hb] at htail
              cases htail
            · rw [List.take_append_of_le_length hn] at hc
              have hshort : sequence? a bs = some (c, n) := sequence?_eq_some_iff.mpr ⟨hn, hc⟩
              rw [hs] at hshort
              cases hshort
        rw [List.cons_append, pieces_cons_of_none hnone, pieces_cons_of_none hs,
          ih _ (Nat.lt_succ_self _) bs rfl]
        rfl
      | some found =>
        obtain ⟨c, n⟩ := found
        obtain ⟨hn, hc⟩ := sequence?_eq_some_iff.mp hs
        have hlong : sequence? a (bs ++ b :: rest) = some (c, n) := by
          rw [sequence?_eq_some_iff, List.take_append_of_le_length hn, List.length_append]
          exact ⟨Nat.le_add_right_of_le hn, hc⟩
        have hshort : (bs.drop n).length < (a :: bs).length := by
          rw [List.length_drop, List.length_cons]
          omega
        rw [List.cons_append, pieces_cons_of_some hlong, pieces_cons_of_some hs,
          List.take_append_of_le_length hn, List.drop_append_of_le_length hn, ih _ hshort _ rfl]
        rfl

/-! ## Trimming -/

theorem dropBlank_eq_self {ps : List Piece} (h : ∀ p ∈ ps.head?, isBlank p.char = false) :
    dropBlank ps = ps := by
  cases ps with
  | nil => rfl
  | cons p ps => rw [dropBlank, List.dropWhile_cons_of_neg (by simp [h p rfl])]

theorem isBlank_head_dropBlank {ps : List Piece} {p : Piece} (h : p ∈ (dropBlank ps).head?) :
    isBlank p.char = false := by
  have hnot := List.head?_dropWhile_not (fun p : Piece => isBlank p.char) ps
  rw [dropBlank] at h
  rw [h] at hnot
  exact hnot

/-- What `dropBlank` takes away is white space. -/
theorem exists_append_dropBlank (ps : List Piece) :
    ∃ gap, (∀ p ∈ gap, isBlank p.char = true) ∧ ps = gap ++ dropBlank ps :=
  ⟨ps.takeWhile fun p => isBlank p.char, List.all_eq_true.mp List.all_takeWhile,
    List.takeWhile_append_dropWhile.symm⟩

/-- The pieces of a text without the white space around it. -/
def trimPieces (ps : List Piece) : List Piece := (dropBlank (dropBlank ps).reverse).reverse

theorem exists_dropBlank_eq_append (ps : List Piece) :
    ∃ gap, (∀ p ∈ gap, isBlank p.char = true) ∧ dropBlank ps = trimPieces ps ++ gap := by
  obtain ⟨gap, hgap, hrev⟩ := exists_append_dropBlank (dropBlank ps).reverse
  refine ⟨gap.reverse, fun p hp => hgap p (List.mem_reverse.mp hp), ?_⟩
  rw [trimPieces, ← List.reverse_append, ← hrev, List.reverse_reverse]

theorem exists_append_trimPieces (ps : List Piece) :
    ∃ gap gap', (∀ p ∈ gap, isBlank p.char = true) ∧ (∀ p ∈ gap', isBlank p.char = true) ∧
      ps = gap ++ trimPieces ps ++ gap' := by
  obtain ⟨gap, hgap, hfront⟩ := exists_append_dropBlank ps
  obtain ⟨gap', hgap', hback⟩ := exists_dropBlank_eq_append ps
  refine ⟨gap, gap', hgap, hgap', ?_⟩
  rw [List.append_assoc, ← hback]
  exact hfront

theorem pieces_trim (bs : Bytes) : pieces (trim bs) = trimPieces (pieces bs) := by
  obtain ⟨gap, gap', -, -, h⟩ := exists_append_trimPieces (pieces bs)
  exact pieces_join_of_append h

/-- Trimmed pieces do not end with white space. -/
theorem isBlank_getLast_trimPieces {ps : List Piece} {p : Piece}
    (h : p ∈ (trimPieces ps).reverse.head?) : isBlank p.char = false := by
  rw [trimPieces, List.reverse_reverse] at h
  exact isBlank_head_dropBlank h

/-- Trimmed pieces do not begin with white space: they are a beginning of `dropBlank ps`. -/
theorem isBlank_head_trimPieces {ps : List Piece} {p : Piece} (h : p ∈ (trimPieces ps).head?) :
    isBlank p.char = false := by
  obtain ⟨gap, -, hmid⟩ := exists_dropBlank_eq_append ps
  have hp : p ∈ (dropBlank ps).head? := by
    rw [hmid, List.head?_append, h]
    rfl
  exact isBlank_head_dropBlank hp

theorem trimPieces_eq_self {ps : List Piece} (hfront : ∀ p ∈ ps.head?, isBlank p.char = false)
    (hback : ∀ p ∈ ps.reverse.head?, isBlank p.char = false) : trimPieces ps = ps := by
  rw [trimPieces, dropBlank_eq_self hfront, dropBlank_eq_self hback, List.reverse_reverse]

theorem trimPieces_trimPieces (ps : List Piece) : trimPieces (trimPieces ps) = trimPieces ps :=
  trimPieces_eq_self (fun _ => isBlank_head_trimPieces) (fun _ => isBlank_getLast_trimPieces)

/-- Trimming a second time does nothing. -/
theorem trim_trim (bs : Bytes) : trim (trim bs) = trim bs := by
  have h : join (trimPieces (pieces (trim bs))) = join (trimPieces (pieces bs)) := by
    rw [pieces_trim, trimPieces_trimPieces]
  exact h

theorem dropBlank_cons {p : Piece} (h : isBlank p.char = true) (ps : List Piece) :
    dropBlank (p :: ps) = dropBlank ps :=
  List.dropWhile_cons_of_pos h

theorem trimPieces_concat {p : Piece} (h : isBlank p.char = true) (ps : List Piece) :
    trimPieces (ps ++ [p]) = trimPieces ps := by
  have hfront : dropBlank (ps ++ [p]) =
      if (dropBlank ps).isEmpty then [] else dropBlank ps ++ [p] := by
    have hend : dropBlank [p] = [] := dropBlank_cons h []
    rw [dropBlank, List.dropWhile_append]
    show (if (dropBlank ps).isEmpty then dropBlank [p] else dropBlank ps ++ [p]) = _
    rw [hend]
  rw [trimPieces, trimPieces, hfront]
  cases hps : dropBlank ps with
  | nil => rfl
  | cons q qs =>
    rw [List.isEmpty_cons, if_neg Bool.false_ne_true, List.reverse_concat, dropBlank_cons h]

/-- A line feed at the end of a text is white space, whatever it stands behind. -/
theorem trim_concat_lineFeed (bs : Bytes) : trim (bs ++ [0x0A]) = trim bs := by
  have hpieces : pieces (bs ++ [0x0A]) = pieces bs ++ [⟨'\n', [0x0A]⟩] :=
    pieces_append_of_not_isTail bs (by decide) []
  have htrim : join (trimPieces (pieces (bs ++ [0x0A]))) = join (trimPieces (pieces bs)) := by
    rw [hpieces, trimPieces_concat (by decide)]
  exact htrim

theorem isBlank_of_mem_map {gap : List Piece} (h : ∀ p ∈ gap, isBlank p.char = true) :
    ∀ c ∈ gap.map (·.char), isBlank c = true := by
  intro c hc
  obtain ⟨p, hp, rfl⟩ := List.mem_map.mp hc
  exact h p hp

/-- Trimming takes white space away at both ends, and nothing else. -/
theorem exists_decode_eq_append_trim (bs : Bytes) :
    ∃ gap gap', (∀ c ∈ gap, isBlank c = true) ∧ (∀ c ∈ gap', isBlank c = true) ∧
      decode bs = gap ++ decode (trim bs) ++ gap' := by
  obtain ⟨gap, gap', hgap, hgap', h⟩ := exists_append_trimPieces (pieces bs)
  refine ⟨gap.map (·.char), gap'.map (·.char), isBlank_of_mem_map hgap,
    isBlank_of_mem_map hgap', ?_⟩
  rw [decode, decode, pieces_trim, ← List.map_append, ← List.map_append, ← h]

/-- A trimmed text neither begins nor ends with white space. -/
theorem isBlank_ends_trim (bs : Bytes) :
    (∀ c ∈ (decode (trim bs)).head?, isBlank c = false) ∧
      (∀ c ∈ (decode (trim bs)).getLast?, isBlank c = false) := by
  rw [decode, pieces_trim]
  constructor
  · intro c hc
    rw [List.head?_map] at hc
    obtain ⟨p, hp, rfl⟩ := Option.map_eq_some_iff.mp hc
    exact isBlank_head_trimPieces hp
  · intro c hc
    rw [List.getLast?_map, List.getLast?_eq_head?_reverse] at hc
    obtain ⟨p, hp, rfl⟩ := Option.map_eq_some_iff.mp hc
    exact isBlank_getLast_trimPieces hp

/-- A text without white space is trimmed. -/
theorem trim_eq_self {bs : Bytes} (h : ∀ c ∈ decode bs, isBlank c = false) : trim bs = bs := by
  have hpieces : ∀ p ∈ pieces bs, isBlank p.char = false := fun p hp =>
    h p.char (List.mem_map_of_mem hp)
  have htrim : trimPieces (pieces bs) = pieces bs := by
    refine trimPieces_eq_self (fun p hp => ?_) (fun p hp => ?_)
    · exact hpieces p (List.mem_of_mem_head? hp)
    · exact hpieces p (List.mem_reverse.mp (List.mem_of_mem_head? hp))
  show join (trimPieces (pieces bs)) = bs
  rw [htrim, join_pieces]

theorem pieces_encode (cs : List Char) :
    pieces (encode cs) = cs.map fun c => ⟨c, String.utf8EncodeChar c⟩ := by
  induction cs with
  | nil => rfl
  | cons c cs ih => rw [encode, List.flatMap_cons, pieces_encodeChar_append, List.map_cons, ← ih,
      encode]

/-- What is left of a lawful text is lawful. -/
theorem encode_decode_trim (cs : List Char) :
    encode (decode (trim (encode cs))) = trim (encode cs) := by
  have hlawful : ∀ p ∈ trimPieces (pieces (encode cs)), String.utf8EncodeChar p.char = p.bytes := by
    intro p hp
    obtain ⟨gap, gap', -, -, hmid⟩ := exists_append_trimPieces (pieces (encode cs))
    have hmem : p ∈ pieces (encode cs) := by
      rw [hmid]
      exact List.mem_append_left _ (List.mem_append_right _ hp)
    rw [pieces_encode] at hmem
    obtain ⟨c, -, rfl⟩ := List.mem_map.mp hmem
    rfl
  rw [decode, pieces_trim, encode, List.flatMap_map, List.flatMap_def,
    List.map_congr_left hlawful]
  rfl

theorem ofString_inj {s t : String} : ofString s = ofString t ↔ s = t := by
  constructor
  · intro h
    have hlists : s.toList = t.toList := by rw [← decode_ofString s, ← decode_ofString t, h]
    exact String.toList_inj.mp hlists
  · rintro rfl
    rfl

end PrefixCalc.Utf8
