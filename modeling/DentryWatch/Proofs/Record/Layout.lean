import Mathlib.Algebra.Group.Nat.Defs
import DentryWatch.Record.Wire

/-!
# The layout of wire records

A word that is read and stored again gives its bytes back, so the parts of a
record, cut at their offsets, put the first bytes of a byte string together again.
-/

namespace DentryWatch

namespace Bytes

theorem toNatLE_slice_lt (bytes : Bytes) (offset width : Nat) :
    toNatLE ((bytes.drop offset).take width) < 256 ^ width := by
  have hlt := toNatLE_lt ((bytes.drop offset).take width)
  have hlength : ((bytes.drop offset).take width).length ≤ width := by
    rw [List.length_take]
    omega
  exact Nat.lt_of_lt_of_le hlt (Nat.pow_le_pow_right (by omega) hlength)

theorem toNat_word32At (bytes : Bytes) (offset : Nat) :
    (word32At bytes offset).toNat = toNatLE ((bytes.drop offset).take 4) := by
  unfold word32At
  have hlt := toNatLE_slice_lt bytes offset 4
  rw [UInt32.toNat_ofNat']
  omega

theorem toNat_word64At (bytes : Bytes) (offset : Nat) :
    (word64At bytes offset).toNat = toNatLE ((bytes.drop offset).take 8) := by
  unfold word64At
  have hlt := toNatLE_slice_lt bytes offset 8
  rw [UInt64.toNat_ofNat']
  omega

theorem ofNatLE_toNatLE_slice {bytes : Bytes} {offset width : Nat}
    (h : offset + width ≤ bytes.length) :
    ofNatLE width (toNatLE ((bytes.drop offset).take width)) =
      (bytes.drop offset).take width := by
  have hlength : ((bytes.drop offset).take width).length = width := by
    simp only [List.length_take, List.length_drop]
    omega
  have hwhole := ofNatLE_toNatLE ((bytes.drop offset).take width)
  rwa [hlength] at hwhole

theorem ofWord32_word32At {bytes : Bytes} {offset : Nat} (h : offset + 4 ≤ bytes.length) :
    ofWord32 (word32At bytes offset) = (bytes.drop offset).take 4 := by
  rw [ofWord32, toNat_word32At, ofNatLE_toNatLE_slice h]

theorem ofWord64_word64At {bytes : Bytes} {offset : Nat} (h : offset + 8 ≤ bytes.length) :
    ofWord64 (word64At bytes offset) = (bytes.drop offset).take 8 := by
  rw [ofWord64, toNat_word64At, ofNatLE_toNatLE_slice h]

/-- Slices of one width, one behind the other, are one wide slice. -/
theorem flatten_slices (bytes : Bytes) (offset width count : Nat) :
    (List.ofFn fun i : Fin count => (bytes.drop (offset + i * width)).take width).flatten =
      (bytes.drop offset).take (count * width) := by
  induction count with
  | zero => simp
  | succ count ih =>
      rw [List.ofFn_succ_last, List.flatten_append, Nat.succ_mul, List.take_add, List.drop_drop,
        ← ih]
      simp

end Bytes

namespace Operation

theorem ofCode?_eq_none_iff (code : UInt32) : ofCode? code = none ↔ 2 < code.toNat := by
  have hzero : code = 0 ↔ code.toNat = 0 := UInt32.toNat_inj.symm
  have hone : code = 1 ↔ code.toNat = 1 := UInt32.toNat_inj.symm
  have htwo : code = 2 ↔ code.toNat = 2 := UInt32.toNat_inj.symm
  simp only [ofCode?, hzero, hone, htwo]
  split
  · simp only [reduceCtorEq, false_iff]
    omega
  split
  · simp only [reduceCtorEq, false_iff]
    omega
  split
  · simp only [reduceCtorEq, false_iff]
    omega
  · simp only [true_iff]
    omega

theorem code_le (op : Operation) : op.code.toNat ≤ 2 := by
  cases op <;> decide

end Operation

theorem Depth.count_eq (depth : Depth) : depth.count = depth.toNat % 2 ^ 31 := by
  unfold Depth.count
  rw [UInt32.toNat_and]
  exact Nat.and_two_pow_sub_one_eq_mod depth.toNat 31

theorem Depth.toNat_pack {n : Nat} (h : n ≤ maxDepth) (root : Bool) :
    (pack n root).toNat = n + if root then 2 ^ 31 else 0 := by
  have hcases : n = 0 ∨ n = 1 ∨ n = 2 ∨ n = 3 ∨ n = 4 ∨ n = 5 ∨ n = 6 ∨ n = 7 ∨ n = 8 := by
    rw [maxDepth] at h
    omega
  rcases hcases with rfl | rfl | rfl | rfl | rfl | rfl | rfl | rfl | rfl <;> cases root <;> decide

namespace Record

/-! ## From records to bytes -/

def header (record : Record) : Bytes :=
  Bytes.ofWord64 record.timestamp ++ Bytes.ofWord64 record.group ++
    Bytes.ofWord32 record.operation.code ++ Bytes.ofWord32 record.depth

theorem header_length (record : Record) : record.header.length = 24 := by
  simp [header]

theorem encode_eq (record : Record) :
    record.encode = record.header ++ record.slots.toList.flatMap NameSlot.raw := by
  simp [encode, header]

/-- The time takes the first eight bytes and no others. -/
theorem drop_encode (record : Record) (now : UInt64) :
    ({ record with timestamp := now } : Record).encode.drop 8 = record.encode.drop 8 := by
  have hlength : ∀ word, (Bytes.ofWord64 word).length = 8 := Bytes.ofWord64_length
  rw [encode, encode, List.drop_left' (hlength _), List.drop_left' (hlength _)]

theorem slice_slots (slots : List NameSlot) (rest : Bytes) (i : Nat) (h : i < slots.length) :
    ((slots.flatMap NameSlot.raw ++ rest).drop (i * slotWidth)).take slotWidth = slots[i].raw := by
  induction slots generalizing i with
  | nil => simp at h
  | cons slot more ih =>
      have hlength := slot.raw_length
      rw [List.flatMap_cons, List.append_assoc]
      cases i with
      | zero => simp [← hlength]
      | succ i =>
          have hnext : (i + 1) * slotWidth = slot.raw.length + i * slotWidth := by
            rw [hlength, Nat.succ_mul, Nat.add_comm]
          rw [hnext, ← List.drop_drop, List.drop_left]
          exact ih i (by simpa using h)

theorem slotAt_raw {bytes : Bytes} {offset : Nat} (h : offset + slotWidth ≤ bytes.length) :
    (slotAt bytes offset).raw = (bytes.drop offset).take slotWidth := by
  have hlength : ((bytes.drop offset).take slotWidth).length = slotWidth := by
    simp only [List.length_take, List.length_drop]
    omega
  unfold slotAt
  simp only [List.rightpad, hlength, Nat.sub_self, List.replicate_zero, List.append_nil]

end Record

end DentryWatch
