/-
  Texts in the order of their characters are in the order of their bytes.

  1. **One character** (`encodeChar_append_lt`) — a longer encoding begins with a greater byte, and two
     encodings of one length are the digits of their code points to the base 64.  So of two different
     characters the lesser has the lesser encoding, and the bytes that come after have no say.

  2. **The whole text** (`ofString_lt_ofString`) — up to the first character in which two texts differ
     their bytes are the same.  Names that are kept in the order of their characters are therefore
     listed in the order of their bytes.
-/
import PrefixCalc.Proofs.Text.Encoding

namespace PrefixCalc.Utf8

/-- The encoding of a character, by its size. -/
theorem encodeChar_cases (c : Char) :
    (c.toNat < 0x80 ∧ String.utf8EncodeChar c = [UInt8.ofNat c.toNat]) ∨
    (0x80 ≤ c.toNat ∧ c.toNat < 0x800 ∧ String.utf8EncodeChar c =
      [UInt8.ofNat (c.toNat / 64 + 0xC0), UInt8.ofNat (c.toNat % 64 + 0x80)]) ∨
    (0x800 ≤ c.toNat ∧ c.toNat < 0x10000 ∧ String.utf8EncodeChar c =
      [UInt8.ofNat (c.toNat / 4096 + 0xE0), UInt8.ofNat (c.toNat / 64 % 64 + 0x80),
        UInt8.ofNat (c.toNat % 64 + 0x80)]) ∨
    (0x10000 ≤ c.toNat ∧ c.toNat < 0x110000 ∧ String.utf8EncodeChar c =
      [UInt8.ofNat (c.toNat / 262144 + 0xF0), UInt8.ofNat (c.toNat / 4096 % 64 + 0x80),
        UInt8.ofNat (c.toNat / 64 % 64 + 0x80), UInt8.ofNat (c.toNat % 64 + 0x80)]) := by
  have hvalid : c.toNat < 0xD800 ∨ 0xDFFF < c.toNat ∧ c.toNat < 0x110000 := c.valid
  have hc : String.utf8EncodeChar c = String.utf8EncodeChar (Char.ofNat c.toNat) := by
    rw [Char.ofNat_toNat]
  rcases Nat.lt_or_ge c.toNat 0x80 with h₁ | h₁
  · exact Or.inl ⟨h₁, hc.trans (encodeChar_one h₁)⟩
  rcases Nat.lt_or_ge c.toNat 0x800 with h₂ | h₂
  · exact Or.inr (Or.inl ⟨h₁, h₂, hc.trans (encodeChar_two h₁ h₂)⟩)
  rcases Nat.lt_or_ge c.toNat 0x10000 with h₃ | h₃
  · exact Or.inr (Or.inr (Or.inl ⟨h₂, h₃, hc.trans (encodeChar_three h₂ (by omega))⟩))
  · exact Or.inr (Or.inr (Or.inr ⟨h₃, by omega, hc.trans (encodeChar_four h₃ (by omega))⟩))

/-- A first byte decides before the bytes after it. -/
theorem cons_ofNat_lt_iff {m n : Nat} (hm : m < 256) (hn : n < 256) {as bs : Bytes} :
    UInt8.ofNat m :: as < UInt8.ofNat n :: bs ↔ m < n ∨ m = n ∧ as < bs := by
  rw [List.cons_lt_cons_iff, UInt8.lt_iff_toNat_lt, ← UInt8.toNat_inj, toNat_byte_ofNat hm,
    toNat_byte_ofNat hn]

/-- Characters in order have encodings in order, whatever comes after them. -/
theorem encodeChar_append_lt {a b : Char} (h : a < b) (as bs : Bytes) :
    String.utf8EncodeChar a ++ as < String.utf8EncodeChar b ++ bs := by
  have hlt : a.toNat < b.toNat := h
  rcases encodeChar_cases a with ⟨ha, hea⟩ | ⟨ha, ha', hea⟩ | ⟨ha, ha', hea⟩ | ⟨ha, ha', hea⟩
  all_goals
    rcases encodeChar_cases b with ⟨hb, heb⟩ | ⟨hb, hb', heb⟩ | ⟨hb, hb', heb⟩ | ⟨hb, hb', heb⟩
  -- byte by byte the order becomes one of naturals
  all_goals
    rw [hea, heb]
    simp (disch := omega) only [List.cons_append, List.nil_append, cons_ofNat_lt_iff]
    omega

theorem encode_lt_encode {cs ds : List Char} (h : List.Lex (· < ·) cs ds) :
    encode cs < encode ds := by
  induction h with
  | @nil d ds =>
    cases hbytes : encode (d :: ds) with
    | nil =>
      have hchars := decode_encode (d :: ds)
      rw [hbytes] at hchars
      cases hchars
    | cons b bs => exact List.nil_lt_cons b bs
  | rel hlt => exact encodeChar_append_lt hlt _ _
  | cons _ ih => exact List.append_left_lt ih

/-- **The order of texts is the order of their bytes.** -/
theorem ofString_lt_ofString {s t : String} (h : s < t) : ofString s < ofString t :=
  encode_lt_encode (String.lt_iff.1 h)

end PrefixCalc.Utf8
