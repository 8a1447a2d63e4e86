import DentryWatch.Text.Utf8

/-!
# Reading encoded text

The bytes of a text read as that text. A character is one piece whatever follows
it, by cases on how many bytes it takes.
-/

namespace DentryWatch.Utf8

theorem toNat_ofNat_of_lt {n : Nat} (h : n < 256) : (UInt8.ofNat n).toNat = n := by
  rw [UInt8.toNat_ofNat']
  exact Nat.mod_eq_of_lt h

/-! ## Bytes by their numbers -/

section Numbers

variable {lead second : UInt8} (rest : Bytes)

theorem isContinuation_of_toNat {byte : UInt8} (h : 0x80 ≤ byte.toNat ∧ byte.toNat ≤ 0xBF) :
    isContinuation byte = true := by
  simpa [isContinuation, UInt8.le_iff_toNat_le] using h

theorem admits3_of_toNat (hlow : lead.toNat = 0xE0 → 0xA0 ≤ second.toNat)
    (hhigh : lead.toNat = 0xED → second.toNat ≤ 0x9F)
    (hsecond : 0x80 ≤ second.toNat ∧ second.toNat ≤ 0xBF) : admits3 lead second = true := by
  unfold admits3
  simp only [← UInt8.toNat_inj]
  split
  · next heq => simpa [UInt8.le_iff_toNat_le] using ⟨hlow heq, hsecond.2⟩
  · split
    · next heq => simpa [UInt8.le_iff_toNat_le] using ⟨hsecond.1, hhigh heq⟩
    · exact isContinuation_of_toNat hsecond

theorem admits4_of_toNat (hlow : lead.toNat = 0xF0 → 0x90 ≤ second.toNat)
    (hhigh : lead.toNat = 0xF4 → second.toNat ≤ 0x8F)
    (hsecond : 0x80 ≤ second.toNat ∧ second.toNat ≤ 0xBF) : admits4 lead second = true := by
  unfold admits4
  simp only [← UInt8.toNat_inj]
  split
  · next heq => simpa [UInt8.le_iff_toNat_le] using ⟨hlow heq, hsecond.2⟩
  · split
    · next heq => simpa [UInt8.le_iff_toNat_le] using ⟨hsecond.1, hhigh heq⟩
    · exact isContinuation_of_toNat hsecond

theorem piece_of_ascii (h : lead.toNat < 0x80) :
    piece lead rest = (.char (Char.ofNat lead.toNat), rest) := by
  have hlow : lead < 0x80 := UInt8.lt_iff_toNat_lt.2 h
  unfold piece
  rw [if_pos hlow]

theorem piece_of_two (h : 0xC2 ≤ lead.toNat ∧ lead.toNat ≤ 0xDF) :
    piece lead rest = piece2 lead rest := by
  have hlow : ¬ lead < 0x80 := by
    simp only [UInt8.lt_iff_toNat_lt, UInt8.toNat_ofNat]
    omega
  have htwo : (0xC2 ≤ lead && lead ≤ 0xDF) = true := by
    simpa [UInt8.le_iff_toNat_le] using h
  unfold piece
  rw [if_neg hlow, if_pos htwo]

theorem piece_of_three (h : 0xE0 ≤ lead.toNat ∧ lead.toNat ≤ 0xEF) :
    piece lead rest = piece3 lead rest := by
  have hlow : ¬ lead < 0x80 := by
    simp only [UInt8.lt_iff_toNat_lt, UInt8.toNat_ofNat]
    omega
  have htwo : ¬ (0xC2 ≤ lead && lead ≤ 0xDF) = true := by
    simp [UInt8.le_iff_toNat_le]
    omega
  have hthree : (0xE0 ≤ lead && lead ≤ 0xEF) = true := by
    simpa [UInt8.le_iff_toNat_le] using h
  unfold piece
  rw [if_neg hlow, if_neg htwo, if_pos hthree]

theorem piece_of_four (h : 0xF0 ≤ lead.toNat ∧ lead.toNat ≤ 0xF4) :
    piece lead rest = piece4 lead rest := by
  have hlow : ¬ lead < 0x80 := by
    simp only [UInt8.lt_iff_toNat_lt, UInt8.toNat_ofNat]
    omega
  have htwo : ¬ (0xC2 ≤ lead && lead ≤ 0xDF) = true := by
    simp [UInt8.le_iff_toNat_le]
    omega
  have hthree : ¬ (0xE0 ≤ lead && lead ≤ 0xEF) = true := by
    simp [UInt8.le_iff_toNat_le]
    omega
  have hfour : (0xF0 ≤ lead && lead ≤ 0xF4) = true := by
    simpa [UInt8.le_iff_toNat_le] using h
  unfold piece
  rw [if_neg hlow, if_neg htwo, if_neg hthree, if_pos hfour]

end Numbers

/-! ## Characters -/

section Characters

variable (n : Nat) (rest : Bytes)

theorem isContinuation_tail : isContinuation (UInt8.ofNat (n % 64 + 128)) = true := by
  apply isContinuation_of_toNat
  rw [toNat_ofNat_of_lt (by omega)]
  omega

theorem payload_tail : payload (UInt8.ofNat (n % 64 + 128)) = n % 64 := by
  rw [payload, toNat_ofNat_of_lt (by omega)]
  omega

theorem piece_two_bytes (h : 0x80 ≤ n ∧ n < 0x800) :
    piece (UInt8.ofNat (n / 64 % 32 + 192)) (UInt8.ofNat (n % 64 + 128) :: rest) =
      (.char (Char.ofNat n), rest) := by
  have hlead := toNat_ofNat_of_lt (show n / 64 % 32 + 192 < 256 by omega)
  have hvalue : (n / 64 % 32 + 192) % 32 * 64 + n % 64 = n := by omega
  rw [piece_of_two _ (by rw [hlead]; omega), piece2, if_pos (isContinuation_tail n), hlead,
    payload_tail, hvalue]

theorem piece_three_bytes (h : 0x800 ≤ n ∧ n < 0x10000) (hscalar : n.isValidChar) :
    piece (UInt8.ofNat (n / 4096 % 16 + 224))
        (UInt8.ofNat (n / 64 % 64 + 128) :: UInt8.ofNat (n % 64 + 128) :: rest) =
      (.char (Char.ofNat n), rest) := by
  have hlead := toNat_ofNat_of_lt (show n / 4096 % 16 + 224 < 256 by omega)
  have hsecond := toNat_ofNat_of_lt (show n / 64 % 64 + 128 < 256 by omega)
  have hvalue : (n / 4096 % 16 + 224) % 16 * 4096 + n / 64 % 64 * 64 + n % 64 = n := by omega
  have hadmits : admits3 (UInt8.ofNat (n / 4096 % 16 + 224)) (UInt8.ofNat (n / 64 % 64 + 128)) =
      true := by
    apply admits3_of_toNat <;> rw [hsecond] <;> try rw [hlead]
    all_goals omega
  rw [piece_of_three _ (by rw [hlead]; omega), piece3, if_pos hadmits]
  rw [if_pos (isContinuation_tail n), hlead, payload_tail, payload_tail, hvalue]

theorem piece_four_bytes (h : 0x10000 ≤ n ∧ n < 0x110000) :
    piece (UInt8.ofNat (n / 262144 % 8 + 240))
        (UInt8.ofNat (n / 4096 % 64 + 128) :: UInt8.ofNat (n / 64 % 64 + 128) ::
          UInt8.ofNat (n % 64 + 128) :: rest) =
      (.char (Char.ofNat n), rest) := by
  have hlead := toNat_ofNat_of_lt (show n / 262144 % 8 + 240 < 256 by omega)
  have hsecond := toNat_ofNat_of_lt (show n / 4096 % 64 + 128 < 256 by omega)
  have hvalue : (n / 262144 % 8 + 240) % 8 * 262144 + n / 4096 % 64 * 4096 + n / 64 % 64 * 64 +
      n % 64 = n := by omega
  have hadmits : admits4 (UInt8.ofNat (n / 262144 % 8 + 240)) (UInt8.ofNat (n / 4096 % 64 + 128)) =
      true := by
    apply admits4_of_toNat <;> rw [hsecond] <;> try rw [hlead]
    all_goals omega
  rw [piece_of_four _ (by rw [hlead]; omega), piece4, if_pos hadmits]
  rw [if_pos (isContinuation_tail (n / 64))]
  rw [if_pos (isContinuation_tail n), hlead, payload_tail, payload_tail, payload_tail, hvalue]

end Characters

theorem pieces_of_piece {lead : UInt8} {bytes rest : Bytes} {c : Char}
    (h : piece lead bytes = (.char c, rest)) : pieces (lead :: bytes) = .char c :: pieces rest := by
  rw [pieces, h]

theorem pieces_encodeChar_append (c : Char) (rest : Bytes) :
    pieces (String.utf8EncodeChar c ++ rest) = .char c :: pieces rest := by
  have hvalid : c.val.toNat.isValidChar := c.valid
  have hchar : Char.ofNat c.val.toNat = c := Char.ofNat_toNat c
  unfold String.utf8EncodeChar
  simp only
  generalize c.val.toNat = n at hvalid hchar
  rw [← hchar]
  split
  · have hbyte := toNat_ofNat_of_lt (show n < 256 by omega)
    have hpiece : piece (UInt8.ofNat n) rest = _ := piece_of_ascii rest (by omega)
    rw [hbyte] at hpiece
    exact pieces_of_piece hpiece
  split
  · exact pieces_of_piece (piece_two_bytes n rest (by omega))
  split
  · exact pieces_of_piece (piece_three_bytes n rest (by omega) hvalid)
  · exact pieces_of_piece (piece_four_bytes n rest (by omega))

/-- Reading the bytes of a text gives the text. -/
theorem lossyChars_encodeChars (chars : List Char) : lossyChars (encodeChars chars) = chars := by
  induction chars with
  | nil => simp
  | cons c rest ih =>
      have hsplit : encodeChars (c :: rest) = String.utf8EncodeChar c ++ encodeChars rest := rfl
      unfold lossyChars at ih ⊢
      rw [hsplit, pieces_encodeChar_append, List.map_cons, ih]
      rfl

/-- Texts differ when their bytes do. -/
theorem encodeChars_inj {chars others : List Char} (h : encodeChars chars = encodeChars others) :
    chars = others := by
  rw [← lossyChars_encodeChars chars, h, lossyChars_encodeChars]

end DentryWatch.Utf8
