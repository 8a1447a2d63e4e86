import Mathlib.Data.List.TakeWhile
import DentryWatch.Lineage
import DentryWatch.Proofs.Record.Wire

/-!
# The last byte of name slots

Filling a slot leaves its last byte zero, clearing it does, and so does a walk.
Decoding takes the bytes of a record as they are. So all slots end with a zero
exactly when those of the byte strings that are decoded do.
-/

namespace DentryWatch

namespace NameSlot

/-- The last byte of a slot is zero. -/
def Terminated (slot : NameSlot) : Prop := slot.raw[maxNameBytes]? = some 0

/-- The slots that can come about when only the given byte strings are decoded. -/
inductive Arises (given : Bytes → Prop) : NameSlot → Prop
  | empty : Arises given NameSlot.empty
  | ofName (name : Bytes) : Arises given (ofName name)
  | fill {slot : NameSlot} (h : Arises given slot) (name : Bytes) : Arises given (slot.fill name)
  | clear {slot : NameSlot} (h : Arises given slot) : Arises given slot.clear
  | walked {ν : Type} [DecidableEq ν] (lineage : Lineage ν) (self : Bytes) (start : Option ν)
      {slot : NameSlot} (hslot : slot ∈ (lineage.walk self start).slots) : Arises given slot
  | written {ν : Type} [DecidableEq ν] (lineage : Lineage ν) (self : Bytes) (start : Option ν)
      {before : Vector NameSlot maxDepth} (h : ∀ slot ∈ before, Arises given slot)
      (i : Nat) (hi : i < maxDepth) : Arises given ((lineage.walk self start).writeInto before)[i]
  | decoded {bytes : Bytes} {record : Record} (hgiven : given bytes)
      (hdecode : Record.decode bytes = .ok record) (i : Nat) (hi : i < maxDepth) :
      Arises given record.slots[i]

/-! ## Slots that are made here -/

theorem terminated_empty : empty.Terminated := by
  rw [Terminated, empty, List.getElem?_replicate]
  rfl

theorem terminated_fill (slot : NameSlot) (name : Bytes) : (slot.fill name).Terminated := by
  have hle : stored name ≤ maxNameBytes := Nat.min_le_right ..
  have hlength : (name.take maxNameBytes).length = stored name := by
    rw [List.length_take, stored, Nat.min_comm]
  have hroom : maxNameBytes - stored name < slotWidth - stored name := by
    have : maxNameBytes < slotWidth := by decide
    omega
  rw [Terminated, fill_raw, List.getElem?_append_right (hlength ▸ hle), hlength,
    List.getElem?_replicate, if_pos hroom]

theorem terminated_ofName (name : Bytes) : (ofName name).Terminated := terminated_fill empty name

theorem terminated_clear (slot : NameSlot) : slot.clear.Terminated := by
  rw [clear_eq_empty]
  exact terminated_empty

theorem terminated_of_mem_slots {walk : Walk} {slot : NameSlot} (h : slot ∈ walk.slots) :
    slot.Terminated := by
  obtain ⟨name, -, rfl⟩ := List.mem_map.1 h
  exact terminated_ofName name

theorem terminated_writeInto (walk : Walk) (before : Vector NameSlot maxDepth) (i : Nat)
    (hi : i < maxDepth) : (walk.writeInto before)[i].Terminated := by
  rw [walk.getElem_writeInto]
  cases hslot : walk.slots[i]? with
  | none => exact terminated_empty
  | some slot => exact terminated_of_mem_slots (List.mem_of_getElem? hslot)

/-! ## What a slot shows -/

/-- A slot shows all its bytes only if none of them is zero. -/
theorem length_name_le_iff (slot : NameSlot) :
    slot.name.length ≤ maxNameBytes ↔ 0 ∈ slot.raw := by
  have hwidth : slotWidth = maxNameBytes + 1 := rfl
  constructor
  · intro hle
    by_contra hnone
    have hall : slot.name = slot.raw := by
      rw [name, List.takeWhile_eq_self_iff]
      intro byte hmem
      rw [bne_iff_ne]
      rintro rfl
      exact hnone hmem
    rw [hall, slot.raw_length] at hle
    omega
  · intro hzero
    by_contra hlong
    have hall : slot.name = slot.raw :=
      (List.takeWhile_prefix _).eq_of_length_le (by rw [slot.raw_length, ← name]; omega)
    have hnonzero := List.takeWhile_eq_self_iff.1 hall 0 hzero
    exact absurd hnonzero (by decide)

theorem Terminated.length_name_le {slot : NameSlot} (h : slot.Terminated) :
    slot.name.length ≤ maxNameBytes :=
  slot.length_name_le_iff.2 (List.mem_of_getElem? h)

end NameSlot

/-! ## Slots that are decoded -/

namespace Record

/-- Each name slot of a byte string ends with a zero. -/
def SlotsEnd (bytes : Bytes) : Prop :=
  ∀ i < maxDepth, bytes[24 + i * slotWidth + maxNameBytes]? = some 0

theorem raw_of_decode {bytes : Bytes} {record : Record} (h : decode bytes = .ok record)
    (i : Nat) (hi : i < maxDepth) :
    record.slots[i].raw = (bytes.drop (24 + i * slotWidth)).take slotWidth := by
  obtain ⟨hlong, -, hencode⟩ := (decode_eq_ok_iff bytes record).1 h
  have hbytes : record.encode ++ bytes.drop recordSize = bytes := by
    rw [hencode, List.take_append_drop]
  have hfits : 24 + i * slotWidth + slotWidth ≤ bytes.length := by
    simp only [recordSize, maxDepth, slotWidth] at *
    omega
  have hslot := slotAt_encode record (bytes.drop recordSize) ⟨i, hi⟩
  rw [hbytes] at hslot
  exact (congrArg NameSlot.raw hslot.symm).trans (slotAt_raw hfits)

theorem terminated_decoded_iff {bytes : Bytes} {record : Record} (h : decode bytes = .ok record)
    (i : Nat) (hi : i < maxDepth) :
    record.slots[i].Terminated ↔ bytes[24 + i * slotWidth + maxNameBytes]? = some 0 := by
  have hlast : maxNameBytes < slotWidth := by decide
  rw [NameSlot.Terminated, raw_of_decode h, List.getElem?_take_of_lt hlast, List.getElem?_drop]

end Record

namespace NameSlot

open Record

/--
Whatever is filled, cleared and walked, every slot ends with a zero and shows at most 63
bytes exactly if the slots of all records that are decoded end with a zero. A decoded
slot has the bytes of its record, so it ends with a zero if they do, and it shows at most
63 bytes if one of them is zero.
-/
theorem terminated_but_for_decoded (given : Bytes → Prop) :
    ((∀ slot, Arises given slot → slot.Terminated ∧ slot.name.length ≤ maxNameBytes) ↔
      ∀ bytes, given bytes → (decode bytes).isOk = true → SlotsEnd bytes) ∧
    ∀ (bytes : Bytes) (record : Record), decode bytes = .ok record → ∀ i (hi : i < maxDepth),
      (record.slots[i].Terminated ↔ bytes[24 + i * slotWidth + maxNameBytes]? = some 0) ∧
      (record.slots[i].name.length ≤ maxNameBytes ↔
        0 ∈ (bytes.drop (24 + i * slotWidth)).take slotWidth) := by
  refine ⟨⟨?_, ?_⟩, ?_⟩
  · intro hall bytes hgiven hok i hi
    cases hdecode : decode bytes with
    | error cause =>
        rw [hdecode] at hok
        cases hok
    | ok record =>
        have hslot := hall _ (.decoded hgiven hdecode i hi)
        exact (terminated_decoded_iff hdecode i hi).1 hslot.1
  · intro hread slot h
    suffices hend : slot.Terminated from ⟨hend, hend.length_name_le⟩
    cases h with
    | empty => exact terminated_empty
    | ofName name => exact terminated_ofName name
    | fill h name => exact terminated_fill _ name
    | clear h => exact terminated_clear _
    | walked lineage self start hslot => exact terminated_of_mem_slots hslot
    | written lineage self start h i hi => exact terminated_writeInto _ _ i hi
    | @decoded bytes record hgiven hdecode i hi =>
        have hok : (decode bytes).isOk = true := by
          rw [hdecode]
          rfl
        exact (terminated_decoded_iff hdecode i hi).2 (hread bytes hgiven hok i hi)
  · intro bytes record hdecode i hi
    refine ⟨terminated_decoded_iff hdecode i hi, ?_⟩
    rw [length_name_le_iff, raw_of_decode hdecode]

def unbroken : NameSlot := ⟨List.replicate slotWidth 0x61, List.length_replicate⟩

def unbrokenRecord : Record :=
  { depth := Depth.pack 1 false, slots := Vector.replicate maxDepth unbroken }

theorem decode_unbrokenRecord : decode unbrokenRecord.encode = .ok unbrokenRecord := by
  rw [decode_encode, if_pos (by decide)]

/-- Decoding the name of 64 bytes, and a name of one byte, with a byte behind the record. -/
theorem terminated_but_for_decoded_one :
    let short : Record := { slots := Vector.replicate maxDepth (ofName [0x61]) }
    decode (short.encode ++ [7]) = .ok short ∧ short.slots[0].Terminated ∧
      (short.encode ++ [7])[87]? = some 0 ∧
      ¬ 0 ∈ (unbrokenRecord.encode.drop 24).take slotWidth := by
  intro short
  have hdecode : decode (short.encode ++ [7]) = .ok short := by
    rw [decode_encode_append, if_pos (by decide)]
  have hslot : short.slots[0].Terminated := terminated_ofName [0x61]
  refine ⟨hdecode, hslot,
    ((terminated_but_for_decoded fun _ => True).2 _ _ hdecode 0 (by decide)).1.1 hslot, ?_⟩
  have hshown := ((terminated_but_for_decoded fun _ => True).2 _ _ decode_unbrokenRecord 0
    (by decide)).2
  exact mt hshown.2 (by decide)

/-- A slot that a record brings along does not end with a zero and shows 64 bytes. -/
theorem decoded_slot_unterminated :
    decode unbrokenRecord.encode = .ok unbrokenRecord ∧ Arises (fun _ => True) unbroken ∧
      ¬ unbroken.Terminated ∧ ¬ unbroken.name.length ≤ maxNameBytes := by
  refine ⟨decode_unbrokenRecord, .decoded trivial decode_unbrokenRecord 0 (by decide), ?_,
    by decide⟩
  unfold Terminated
  decide

end NameSlot

end DentryWatch
