import DentryWatch.Text.Utf8

/-!
# Bytes of ASCII characters

An ASCII character is one byte, and its byte never occurs within another
character. So a text has an ASCII character exactly where its bytes do.
-/

namespace DentryWatch.Utf8

theorem encodeChar_of_ascii {c : Char} (h : c.toNat < 0x80) :
    String.utf8EncodeChar c = [UInt8.ofNat c.toNat] := by
  have hle : c.val.toNat ≤ 0x7F := Nat.le_of_lt_succ h
  rw [String.utf8EncodeChar, if_pos hle]
  rfl

/-- All bytes of another character have their highest bit set. -/
theorem le_of_mem_encodeChar {c : Char} (h : 0x80 ≤ c.toNat) {byte : UInt8}
    (hmem : byte ∈ String.utf8EncodeChar c) : 0x80 ≤ byte.toNat := by
  have hnot : ¬ c.val.toNat ≤ 0x7F := Nat.not_le.2 h
  rw [String.utf8EncodeChar, if_neg hnot] at hmem
  split at hmem
  · simp only [List.mem_cons, List.not_mem_nil, or_false] at hmem
    rcases hmem with rfl | rfl <;> rw [UInt8.toNat_ofNat'] <;> omega
  split at hmem
  · simp only [List.mem_cons, List.not_mem_nil, or_false] at hmem
    rcases hmem with rfl | rfl | rfl <;> rw [UInt8.toNat_ofNat'] <;> omega
  · simp only [List.mem_cons, List.not_mem_nil, or_false] at hmem
    rcases hmem with rfl | rfl | rfl | rfl <;> rw [UInt8.toNat_ofNat'] <;> omega

/-- The byte of an ASCII character occurs as often as the character. -/
theorem count_encodeChars (mark : Char) (hmark : mark.toNat < 0x80) (chars : List Char) :
    (encodeChars chars).count (UInt8.ofNat mark.toNat) = chars.count mark := by
  induction chars with
  | nil => rfl
  | cons c rest ih =>
      have hsplit : encodeChars (c :: rest) = String.utf8EncodeChar c ++ encodeChars rest := rfl
      rw [hsplit, List.count_append, ih, List.count_cons, Nat.add_comm]
      congr 1
      by_cases hascii : c.toNat < 0x80
      · rw [encodeChar_of_ascii hascii, List.count_singleton]
        have hiff : UInt8.ofNat c.toNat = UInt8.ofNat mark.toNat ↔ c = mark := by
          rw [← UInt8.toNat_inj, UInt8.toNat_ofNat', UInt8.toNat_ofNat',
            Nat.mod_eq_of_lt (by omega), Nat.mod_eq_of_lt (by omega)]
          exact Char.toNat_inj
        simp only [beq_iff_eq, hiff]
      · have hne : c ≠ mark := by
          rintro rfl
          exact hascii hmark
        rw [if_neg (by simpa using hne), List.count_eq_zero]
        intro hmem
        have hle := le_of_mem_encodeChar (Nat.le_of_not_lt hascii) hmem
        rw [UInt8.toNat_ofNat'] at hle
        omega

theorem mem_encodeChars_iff {mark : Char} (hmark : mark.toNat < 0x80) {chars : List Char} :
    UInt8.ofNat mark.toNat ∈ encodeChars chars ↔ mark ∈ chars := by
  rw [← List.count_pos_iff, count_encodeChars mark hmark, List.count_pos_iff]

/-- A text of ASCII characters has one byte for each. -/
theorem encodeChars_of_ascii {chars : List Char} (h : ∀ c ∈ chars, c.toNat < 0x80) :
    encodeChars chars = chars.map fun c => UInt8.ofNat c.toNat := by
  induction chars with
  | nil => rfl
  | cons c rest ih =>
      have hsplit : encodeChars (c :: rest) = String.utf8EncodeChar c ++ encodeChars rest := rfl
      rw [hsplit, encodeChar_of_ascii (h c List.mem_cons_self),
        ih fun c hmem => h c (List.mem_cons_of_mem _ hmem)]
      rfl

end DentryWatch.Utf8
