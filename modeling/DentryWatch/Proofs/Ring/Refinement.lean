import DentryWatch.Proofs.Ring.Cells
import DentryWatch.Proofs.Ring.Queue

/-!
# The ring stands for the queue of reservations

The invariant covers one lap of positions, from the tail on. The cell of a
position that is not granted yet awaits it and still holds the record of the lap
before; a granted one holds its record, and its turn tells whether it is
published. Every operation of the ring does to the queue what its counterpart
does, however often the positions wrapped.
-/

namespace DentryWatch

open ReservationQueue

namespace Ring

/-- The cell of a granted position shows its reservation. -/
def Shows (position : Nat) (cell : RingCell) (entry : Entry) : Prop :=
  cell.record = entry.record ∧
    match entry.fate with
    | .held => cell.turn = UInt64.ofNat position
    | .committed => cell.turn = UInt64.ofNat position + 1 ∧ cell.hole = false
    | .discarded => cell.turn = UInt64.ofNat position + 1 ∧ cell.hole = true

/-- The ring stands for the queue. -/
structure Represents (ring : Ring) (queue : ReservationQueue) : Prop where
  sized : ring.Sized queue.capacity
  head : ring.head = UInt64.ofNat queue.entries.length
  tail : ring.tail = UInt64.ofNat queue.taken
  taken_le : queue.taken ≤ queue.entries.length
  length_le : queue.entries.length ≤ queue.taken + queue.capacity
  consumed : ∀ id < queue.taken, ∀ entry, queue.entries[id]? = some entry → entry.fate ≠ .held
  granted : ∀ position entry, queue.taken ≤ position → queue.entries[position]? = some entry →
    Shows position (ring.cell (UInt64.ofNat position)) entry
  free : ∀ position, queue.entries.length ≤ position →
    position < queue.taken + queue.capacity →
    (ring.cell (UInt64.ofNat position)).turn = UInt64.ofNat position ∧
      (ring.cell (UInt64.ofNat position)).record = queue.leftover position
  stats : ring.stats = queue.stats
  deepest_le : queue.deepest ≤ queue.capacity

theorem Sized.bounds {ring : Ring} {cap : Nat} (h : ring.Sized cap) : 2 ≤ cap ∧ cap ≤ 2 ^ 63 := by
  obtain ⟨-, k, hone, hk, rfl⟩ := h
  exact ⟨Nat.pow_le_pow_right (n := 2) (by decide) hone,
    Nat.pow_le_pow_right (by decide) (by omega)⟩

theorem represents_ofCapacity {records : Nat} (h : records ≤ 2 ^ 63) :
    (ofCapacity records).Represents { capacity := cellCount records } := by
  have hsized : (ofCapacity records).Sized (cellCount records) := by
    obtain ⟨k, hone, hk, hceil⟩ := exists_ceilPow2_eq_of_le (Nat.le_max_right records 2)
      (Nat.max_le.2 ⟨h, by decide⟩)
    exact ⟨by simp [ofCapacity], k, hone, by omega, hceil⟩
  refine ⟨hsized, rfl, rfl, Nat.le_refl _, Nat.zero_le _, ?_, ?_, ?_, rfl, Nat.zero_le _⟩
  · intro id hid
    exact absurd hid (Nat.not_lt_zero id)
  · intro position entry _ hentry
    cases hentry
  · intro position _ hlt
    have hlt' : position < cellCount records := by simpa using hlt
    have hcell : (ofCapacity records).cell (UInt64.ofNat position) =
        { turn := UInt64.ofNat position } := by
      rw [cell, hsized.index_ofNat, Nat.mod_eq_of_lt hlt']
      simp [ofCapacity, hlt']
    rw [hcell, leftover, if_pos hlt']
    exact ⟨rfl, rfl⟩

namespace Represents

variable {ring : Ring} {queue : ReservationQueue}

/-! ## Requests -/

theorem lead_eq_zero (h : ring.Represents queue)
    (hroom : queue.entries.length < queue.taken + queue.capacity) : ring.lead ring.head = 0 := by
  rw [lead_eq, toInt64_eq_zero_iff, h.head, (h.free _ (Nat.le_refl _) hroom).1, UInt64.sub_self]

/-- The cell at the head of a full ring is one lap behind. -/
theorem lead_neg (h : ring.Represents queue)
    (hfull : queue.entries.length = queue.taken + queue.capacity) : ring.lead ring.head < 0 := by
  obtain ⟨htwo, hbound⟩ := h.sized.bounds
  have hcell : ring.cell ring.head = ring.cell (UInt64.ofNat queue.taken) := by
    rw [h.head, hfull, h.sized.cell_add_lap]
  have hshows := h.granted queue.taken queue.entries[queue.taken] (Nat.le_refl _)
    (List.getElem?_eq_getElem (by omega))
  have hturn : (ring.cell ring.head).turn = UInt64.ofNat queue.taken ∨
      (ring.cell ring.head).turn = UInt64.ofNat queue.taken + 1 := by
    rw [hcell]
    generalize queue.entries[queue.taken] = entry at hshows
    obtain ⟨fate, record⟩ := entry
    cases fate with
    | held => exact .inl hshows.2
    | committed => exact .inr hshows.2.1
    | discarded => exact .inr hshows.2.1
  rw [lead_eq, toInt64_neg_iff, h.head, hfull]
  rcases hturn with hturn | hturn <;>
    rw [h.head, hfull] at hturn <;>
    rw [hturn, UInt64.toNat_sub] <;>
    simp only [UInt64.toNat_add, UInt64.toNat_ofNat', UInt64.toNat_one] <;>
    omega

theorem depth_eq (h : ring.Represents queue) :
    ring.depth = UInt64.ofNat queue.waiting.length := by
  rw [depth, h.head, h.tail, length_waiting, UInt64.ofNat_sub h.taken_le]

theorem waiting_le (h : ring.Represents queue) : queue.waiting.length ≤ ring.capacity := by
  have hcapacity : ring.capacity = queue.capacity := h.sized.1
  have hlength := h.length_le
  rw [length_waiting, hcapacity]
  omega

theorem capacity_lt (h : ring.Represents queue) : ring.capacity < 2 ^ 64 := by
  have hcapacity : ring.capacity = queue.capacity := h.sized.1
  have hbound := h.sized.bounds.2
  omega

theorem toNat_depth (h : ring.Represents queue) : ring.depth.toNat = queue.waiting.length := by
  rw [h.depth_eq]
  exact UInt64.toNat_ofNat_of_lt' (Nat.lt_of_le_of_lt h.waiting_le h.capacity_lt)

/-- A request is granted while less than the capacity is in use. -/
theorem reserve_granted (h : ring.Represents queue)
    (hroom : queue.waiting.length < queue.capacity) :
    ring.reserve.1 = some ⟨UInt64.ofNat queue.entries.length⟩ ∧
      ring.reserve.2.Represents queue.reserve.2 := by
  have hle := h.taken_le
  have hdeepest := h.deepest_le
  have hroom' : queue.entries.length < queue.taken + queue.capacity := by
    rw [length_waiting] at hroom
    omega
  obtain ⟨-, hbound⟩ := h.sized.bounds
  rw [Ring.reserve, if_pos (h.lead_eq_zero hroom'), ReservationQueue.reserve, if_pos hroom]
  refine ⟨by rw [h.head], ⟨h.sized, ?_, h.tail, ?_, ?_, ?_, ?_, ?_, ?_, ?_⟩⟩ <;> dsimp only
  · rw [h.head, List.length_append, UInt64.ofNat_add]
    rfl
  · rw [List.length_append]
    omega
  · rw [List.length_append, List.length_singleton]
    exact hroom'
  · intro id hid entry hentry
    rw [List.getElem?_append_left (Nat.lt_of_lt_of_le hid hle)] at hentry
    exact h.consumed id hid entry hentry
  · intro position entry hstart hentry
    rcases Nat.lt_or_ge position queue.entries.length with hlt | hge
    · rw [List.getElem?_append_left hlt] at hentry
      exact h.granted position entry hstart hentry
    · obtain ⟨hlt, -⟩ := List.getElem?_eq_some_iff.1 hentry
      rw [List.length_append, List.length_singleton] at hlt
      obtain rfl : position = queue.entries.length := by omega
      rw [List.getElem?_concat_length, Option.some.injEq] at hentry
      subst hentry
      exact (h.free _ (Nat.le_refl _) hroom').symm
  · intro position hge hlap
    rw [List.length_append, List.length_singleton] at hge
    have hleft := leftover_append queue [{ record := queue.leftover queue.entries.length }]
      (show position < queue.entries.length + queue.capacity by omega)
    obtain ⟨hturn, hrecord⟩ := h.free position (by omega) hlap
    exact ⟨hturn, hrecord.trans hleft.symm⟩
  · have hdepth : ring.head - ring.tail + 1 = UInt64.ofNat (queue.waiting.length + 1) := by
      rw [UInt64.ofNat_add, ← h.depth_eq]
      rfl
    rw [hdepth, h.stats]
    simp only [ReservationQueue.stats, List.take_append_of_le_length hle, committed_append,
      RingStats.mk.injEq]
    rw [length_waiting] at hroom
    exact ⟨by simp [committed], trivial, trivial,
      max_ofNat (by omega) (by rw [length_waiting]; omega)⟩
  · rw [length_waiting] at hroom ⊢
    omega

/-- A request is refused and counted when the capacity is in use. -/
theorem reserve_refused (h : ring.Represents queue)
    (hfull : ¬ queue.waiting.length < queue.capacity) :
    ring.reserve.1 = none ∧ ring.reserve.2.Represents queue.reserve.2 := by
  have hle := h.length_le
  have hlen := h.taken_le
  rw [length_waiting] at hfull
  have hneg := h.lead_neg (by omega)
  have hne : ring.lead ring.head ≠ 0 := fun hzero => by
    rw [hzero] at hneg
    exact absurd hneg (by decide)
  rw [Ring.reserve, if_neg hne, if_pos hneg, ReservationQueue.reserve,
    if_neg (by rw [length_waiting]; exact hfull)]
  refine ⟨rfl, ⟨h.sized, h.head, h.tail, h.taken_le, h.length_le, h.consumed, h.granted,
    h.free, ?_, h.deepest_le⟩⟩
  rw [h.stats]
  simp [ReservationQueue.stats, UInt64.ofNat_add]

end Represents

end Ring

end DentryWatch
