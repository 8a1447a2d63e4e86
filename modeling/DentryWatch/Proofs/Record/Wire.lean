import DentryWatch.Proofs.Record.Layout

/-!
# Records and their wire forms

A byte string holds a record exactly when it is long enough, its operation word
is a known code and its depth word counts at most eight components. Encoding that
record gives the first 536 bytes back, and decoding an encoded record, whatever
follows it, gives the record back.
-/

namespace DentryWatch.Record

/-- The little-endian operation word of a wire record. -/
def operationWord (bytes : Bytes) : Nat := Bytes.toNatLE ((bytes.drop 16).take 4)

def wireCount (bytes : Bytes) : Nat := Bytes.toNatLE ((bytes.drop 20).take 4) % 2 ^ 31

/-- Why a byte string is refused; of several faults the first one counts. -/
inductive Refused (bytes : Bytes) : RecordError → Prop
  | truncated (hshort : bytes.length < recordSize) : Refused bytes (.truncated bytes.length)
  | operation (hlong : recordSize ≤ bytes.length) (hcode : 2 < operationWord bytes) :
      Refused bytes (.operation (UInt32.ofNat (operationWord bytes)))
  | depth (hlong : recordSize ≤ bytes.length) (hcode : operationWord bytes ≤ 2)
      (hcount : maxDepth < wireCount bytes) : Refused bytes (.depth (wireCount bytes))

theorem toNat_operationWord (bytes : Bytes) :
    (Bytes.word32At bytes 16).toNat = operationWord bytes :=
  Bytes.toNat_word32At bytes 16

theorem ofNat_operationWord (bytes : Bytes) :
    UInt32.ofNat (operationWord bytes) = Bytes.word32At bytes 16 := by
  rw [← toNat_operationWord, UInt32.ofNat_toNat]

theorem count_depthWord (bytes : Bytes) :
    Depth.count (Bytes.word32At bytes 20) = wireCount bytes := by
  rw [Depth.count_eq, Bytes.toNat_word32At]
  rfl

/-! ## Decoding what was encoded -/

section Encoded

variable (record : Record) (rest : Bytes)

theorem word64At_timestamp : Bytes.word64At (record.encode ++ rest) 0 = record.timestamp := by
  unfold encode
  simp only [List.append_assoc]
  exact Bytes.word64At_append [] _ record.timestamp

theorem word64At_group : Bytes.word64At (record.encode ++ rest) 8 = record.group := by
  unfold encode
  simp only [List.append_assoc]
  have hread := Bytes.word64At_append (Bytes.ofWord64 record.timestamp)
  simpa only [Bytes.ofWord64_length] using hread _ record.group

theorem word32At_operation :
    Bytes.word32At (record.encode ++ rest) 16 = record.operation.code := by
  unfold encode
  have hread := Bytes.word32At_append
    (Bytes.ofWord64 record.timestamp ++ Bytes.ofWord64 record.group)
  simp only [List.length_append, Bytes.ofWord64_length, List.append_assoc] at hread ⊢
  exact hread _ record.operation.code

theorem word32At_depth : Bytes.word32At (record.encode ++ rest) 20 = record.depth := by
  unfold encode
  have hread := Bytes.word32At_append (Bytes.ofWord64 record.timestamp ++
    Bytes.ofWord64 record.group ++ Bytes.ofWord32 record.operation.code)
  simp only [List.length_append, Bytes.ofWord64_length, Bytes.ofWord32_length,
    List.append_assoc] at hread ⊢
  exact hread _ record.depth

theorem slotAt_encode (i : Fin maxDepth) :
    slotAt (record.encode ++ rest) (24 + i * slotWidth) = record.slots[i] := by
  have hi : i < record.slots.toList.length := by simp
  have hfits : 24 + i * slotWidth + slotWidth ≤ (record.encode ++ rest).length := by
    have hlt := i.isLt
    rw [List.length_append, encode_length]
    simp only [recordSize, maxDepth, slotWidth] at hlt ⊢
    omega
  apply NameSlot.ext_raw
  rw [slotAt_raw hfits, encode_eq, List.append_assoc, ← List.drop_drop, ← record.header_length,
    List.drop_left, slice_slots _ _ _ hi]
  simp

end Encoded

/-- Bytes behind an encoded record make no difference. -/
theorem decode_encode_append (record : Record) (rest : Bytes) :
    decode (record.encode ++ rest) =
      if record.count ≤ maxDepth then .ok record else .error (.depth record.count) := by
  unfold decode
  have hlong : ¬ (record.encode ++ rest).length < recordSize := by
    rw [List.length_append, encode_length]
    omega
  have hslots : (Vector.ofFn fun i : Fin maxDepth =>
      slotAt (record.encode ++ rest) (24 + i * slotWidth)) = record.slots := by
    ext i hi
    simp [slotAt_encode record rest ⟨i, hi⟩]
  rw [if_neg hlong, word32At_operation, Operation.ofCode?_code]
  simp only [word32At_depth, word64At_timestamp, word64At_group, hslots]
  show (if maxDepth < record.count then _ else _) = _
  by_cases hcount : record.count ≤ maxDepth
  · rw [if_pos hcount, if_neg (Nat.not_lt.2 hcount)]
  · rw [if_neg hcount, if_pos (Nat.not_le.1 hcount)]
    rfl

/-! ## Encoding what was decoded -/

/-- The parts of a record, read at their offsets, are the bytes again. -/
theorem encode_of_parts {bytes : Bytes} (hlong : recordSize ≤ bytes.length) {op : Operation}
    (hop : op.code = Bytes.word32At bytes 16) :
    encode
      { timestamp := Bytes.word64At bytes 0
        group := Bytes.word64At bytes 8
        operation := op
        depth := Bytes.word32At bytes 20
        slots := Vector.ofFn fun i => slotAt bytes (24 + i * slotWidth) } =
      bytes.take recordSize := by
  have hslots : ((Vector.ofFn fun i : Fin maxDepth =>
      slotAt bytes (24 + i * slotWidth)).toList.flatMap NameSlot.raw) =
      (bytes.drop 24).take (maxDepth * slotWidth) := by
    rw [Vector.toList_ofFn, List.flatMap_def, List.map_ofFn, ← Bytes.flatten_slices]
    congr 2
    funext i
    have hi := i.isLt
    apply slotAt_raw
    simp only [recordSize, maxDepth, slotWidth] at *
    omega
  have hcut : bytes.take recordSize = bytes.take 8 ++ ((bytes.drop 8).take 8 ++
      ((bytes.drop 16).take 4 ++ ((bytes.drop 20).take 4 ++
        (bytes.drop 24).take (maxDepth * slotWidth)))) := by
    have hsize : recordSize = 8 + (8 + (4 + (4 + maxDepth * slotWidth))) := rfl
    rw [hsize, List.take_add, List.take_add, List.take_add, List.take_add]
    simp only [List.drop_drop]
  have hwide : 24 + 512 ≤ bytes.length := hlong
  unfold encode
  rw [hslots, hop, Bytes.ofWord64_word64At (by omega), Bytes.ofWord64_word64At (by omega),
    Bytes.ofWord32_word32At (by omega), Bytes.ofWord32_word32At (by omega), hcut, List.drop_zero]

/-- What decoding gives, and when. -/
theorem decode_cases (bytes : Bytes) :
    (∃ error, decode bytes = .error error ∧ Refused bytes error) ∨
      ∃ record, decode bytes = .ok record ∧ recordSize ≤ bytes.length ∧
        operationWord bytes ≤ 2 ∧ wireCount bytes ≤ maxDepth ∧ record.count ≤ maxDepth ∧
        record.encode = bytes.take recordSize := by
  unfold decode
  by_cases hshort : bytes.length < recordSize
  · rw [if_pos hshort]
    exact .inl ⟨_, rfl, .truncated hshort⟩
  rw [if_neg hshort]
  have hlong := Nat.le_of_not_lt hshort
  cases hop : Operation.ofCode? (Bytes.word32At bytes 16) with
  | none =>
      have hcode := (Operation.ofCode?_eq_none_iff _).1 hop
      rw [toNat_operationWord] at hcode
      rw [← ofNat_operationWord]
      exact .inl ⟨_, rfl, .operation hlong hcode⟩
  | some op =>
      have hword := Operation.code_of_ofCode? hop
      have hcode := op.code_le
      rw [hword, toNat_operationWord] at hcode
      simp only [count_depthWord]
      by_cases hcount : maxDepth < wireCount bytes
      · rw [if_pos hcount]
        exact .inl ⟨_, rfl, .depth hlong hcode hcount⟩
      · rw [if_neg hcount]
        have hcount := Nat.le_of_not_lt hcount
        refine .inr ⟨_, rfl, hlong, hcode, hcount, ?_, encode_of_parts hlong hword⟩
        unfold Record.count
        rwa [count_depthWord]

theorem Refused.not_valid {bytes : Bytes} {error : RecordError} (h : Refused bytes error) :
    ¬ (recordSize ≤ bytes.length ∧ operationWord bytes ≤ 2 ∧ wireCount bytes ≤ maxDepth) := by
  rintro ⟨hlong, hcode, hcount⟩
  cases h with
  | truncated hshort => omega
  | operation hlong hcode' => omega
  | depth hlong hcode hcount' => omega

theorem Refused.unique {bytes : Bytes} {error other : RecordError} (h : Refused bytes error)
    (hother : Refused bytes other) : error = other := by
  cases h with
  | truncated hshort =>
      cases hother with
      | truncated => rfl
      | operation hlong => omega
      | depth hlong => omega
  | operation hlong hcode =>
      cases hother with
      | truncated hshort => omega
      | operation => rfl
      | depth _ hcode' => omega
  | depth hlong hcode hcount =>
      cases hother with
      | truncated hshort => omega
      | operation _ hcode' => omega
      | depth => rfl

theorem decode_eq_error_iff (bytes : Bytes) (error : RecordError) :
    decode bytes = .error error ↔ Refused bytes error := by
  rcases decode_cases bytes with ⟨other, hdecode, hrefused⟩ | ⟨record, hdecode, hvalid⟩
  · rw [hdecode, Except.error.injEq]
    constructor
    · rintro rfl
      exact hrefused
    · exact hrefused.unique
  · obtain ⟨hlong, hcode, hcount, -⟩ := hvalid
    rw [hdecode]
    constructor
    · intro h
      cases h
    · intro hrefused
      exact absurd ⟨hlong, hcode, hcount⟩ hrefused.not_valid

theorem isOk_decode_iff (bytes : Bytes) :
    (decode bytes).isOk = true ↔
      recordSize ≤ bytes.length ∧ operationWord bytes ≤ 2 ∧ wireCount bytes ≤ maxDepth := by
  rcases decode_cases bytes with ⟨error, hdecode, hrefused⟩ | ⟨record, hdecode, hvalid⟩
  · rw [hdecode]
    simpa [Except.isOk, Except.toBool] using hrefused.not_valid
  · obtain ⟨hlong, hcode, hcount, -⟩ := hvalid
    rw [hdecode]
    simpa [Except.isOk, Except.toBool] using ⟨hlong, hcode, hcount⟩

theorem decode_eq_ok_iff (bytes : Bytes) (record : Record) :
    decode bytes = .ok record ↔
      recordSize ≤ bytes.length ∧ record.count ≤ maxDepth ∧
        record.encode = bytes.take recordSize := by
  constructor
  · intro h
    rcases decode_cases bytes with ⟨error, hdecode, -⟩ | ⟨other, hdecode, hlong, -, -, hvalid⟩
    · rw [h] at hdecode
      cases hdecode
    · obtain rfl := Except.ok.inj (h.symm.trans hdecode)
      exact ⟨hlong, hvalid⟩
  · rintro ⟨-, hcount, hencode⟩
    rw [← List.take_append_drop recordSize bytes, ← hencode, decode_encode_append, if_pos hcount]

theorem decode_encode (record : Record) :
    decode record.encode =
      if record.count ≤ maxDepth then .ok record else .error (.depth record.count) := by
  simpa using decode_encode_append record []

/-! ## The correspondence -/

/--
Encoding and decoding are inverse between the records that count at most eight components
and the first 536 bytes of valid byte strings, whatever bytes the name slots hold. All other
byte strings are refused for their first fault, and a record with a packed depth never is.
-/
theorem wire_correspondence :
    (∀ record : Record, decode record.encode =
      if record.count ≤ maxDepth then .ok record else .error (.depth record.count)) ∧
    (∀ bytes : Bytes, (decode bytes).isOk = true ↔
      recordSize ≤ bytes.length ∧ operationWord bytes ≤ 2 ∧ wireCount bytes ≤ maxDepth) ∧
    (∀ (bytes : Bytes) (record : Record), decode bytes = .ok record ↔
      recordSize ≤ bytes.length ∧ record.count ≤ maxDepth ∧
        record.encode = bytes.take recordSize) ∧
    (∀ (bytes : Bytes) (error : RecordError), decode bytes = .error error ↔
      Refused bytes error) ∧
    ∀ (count : Nat) (root : Bool),
      (Depth.pack count root).count = min count maxDepth ∧
      (Depth.pack count root).rootReached = root ∧
      ∀ record : Record, decode ({ record with depth := Depth.pack count root } : Record).encode =
        .ok { record with depth := Depth.pack count root } := by
  refine ⟨decode_encode, isOk_decode_iff, decode_eq_ok_iff, decode_eq_error_iff, ?_⟩
  intro count root
  refine ⟨Depth.count_pack count root, Depth.rootReached_pack count root, fun record => ?_⟩
  have hcount : ({ record with depth := Depth.pack count root } : Record).count ≤ maxDepth := by
    unfold Record.count
    rw [Depth.count_pack]
    exact Nat.min_le_right count maxDepth
  rw [decode_encode, if_pos hcount]

example : recordSize = 536 := rfl

end DentryWatch.Record
