import DentryWatch.Proofs.Ring.Deliveries

/-!
# Rings that are fed one record at a time

When every reservation is committed before the next request, nothing is ever
held or discarded. The records in the ring are then a plain queue: what is still
to be read is what was written and not read yet.
-/

namespace DentryWatch

namespace ReservationQueue

/-- Every reservation became a record. -/
def Settled (queue : ReservationQueue) : Prop := ∀ entry ∈ queue.entries, entry.fate = .committed

/-- The queue after a request that is granted, written and committed at once. -/
def feed (queue : ReservationQueue) (change : Record → Record) : ReservationQueue :=
  { queue with
    entries := queue.entries ++ [⟨.committed, change (queue.leftover queue.entries.length)⟩]
    deepest := max queue.deepest (queue.waiting.length + 1) }

theorem Settled.feed {queue : ReservationQueue} (h : queue.Settled) (change : Record → Record) :
    (queue.feed change).Settled := by
  intro entry hentry
  rcases List.mem_append.1 hentry with hold | hnew
  · exact h entry hold
  · rw [List.mem_singleton.1 hnew]

theorem pushes_feed (queue : ReservationQueue) (change : Record → Record) :
    (queue.feed change).stats.pushes = queue.stats.pushes + 1 := by
  simp [stats, ReservationQueue.feed, committed, UInt64.ofNat_add]

theorem waiting_feed {queue : ReservationQueue} (hle : queue.taken ≤ queue.entries.length)
    (change : Record → Record) :
    (queue.feed change).waiting =
      queue.waiting ++ [⟨.committed, change (queue.leftover queue.entries.length)⟩] :=
  List.drop_append_of_le_length hle

theorem Settled.popBatch {queue : ReservationQueue} (h : queue.Settled) (limit : Nat) :
    (queue.popBatch limit).1 = (queue.waiting.take limit).map Entry.record ∧
      ∃ taken, (queue.popBatch limit).2 = { queue with taken } ∧
        ({ queue with taken } : ReservationQueue).waiting = queue.waiting.drop limit := by
  induction limit generalizing queue with
  | zero => exact ⟨rfl, queue.taken, rfl, rfl⟩
  | succ limit ih =>
      cases hwaiting : queue.waiting with
      | nil =>
          have hopen : ∀ entry, queue.waiting.head? = some entry → entry.fate = .held := by
            intro entry hentry
            rw [hwaiting] at hentry
            cases hentry
          rw [ReservationQueue.popBatch, pop_of_open hopen]
          exact ⟨rfl, queue.taken, rfl, hwaiting⟩
      | cons entry rest =>
          have hmem : entry ∈ queue.waiting := by
            rw [hwaiting]
            exact List.mem_cons_self
          obtain ⟨fate, record⟩ := entry
          obtain rfl : fate = .committed := h _ (List.mem_of_mem_drop hmem)
          have hnext : ({ queue with taken := queue.taken + 1 } : ReservationQueue).waiting =
              rest := by
            rw [waiting, ← List.drop_drop]
            exact congrArg (List.drop 1) hwaiting
          have hsettled : ({ queue with taken := queue.taken + 1 } : ReservationQueue).Settled := h
          obtain ⟨hrecords, taken, hlast, hleft⟩ := ih hsettled
          rw [hnext] at hrecords hleft
          rw [ReservationQueue.popBatch, pop_of_committed hwaiting]
          exact ⟨congrArg (record :: ·) hrecords, taken, hlast, hleft⟩

end ReservationQueue

open ReservationQueue

namespace Ring

/-- The records that are still to be read. -/
def queued (ring : Ring) : List Record := (ring.popBatch ring.capacity).1

namespace Represents

variable {ring : Ring} {queue : ReservationQueue}

theorem queued_eq (h : ring.Represents queue) (hsettled : queue.Settled) :
    ring.queued = queue.waiting.map Entry.record := by
  rw [queued, (h.popBatch _).1, (hsettled.popBatch _).1, List.take_of_length_le h.waiting_le]

/-- A granted request that is written and committed at once. -/
theorem feed (h : ring.Represents queue) (hroom : queue.waiting.length < queue.capacity)
    (change : Record → Record) :
    ∃ slot, ring.reserve.1 = some slot ∧
      ((ring.reserve.2.fill slot change).commit slot).Represents (queue.feed change) := by
  obtain ⟨hslot, hnext⟩ := h.reserve_granted hroom
  have hentries : queue.reserve.2.entries =
      queue.entries ++ [{ record := queue.leftover queue.entries.length }] := by
    rw [ReservationQueue.reserve, if_pos hroom]
  have hfill := update_of_held hentries rfl fun entry =>
    { entry with record := change entry.record }
  have hheld : queue.reserve.2.entries[queue.entries.length]? =
      some ⟨.held, queue.leftover queue.entries.length⟩ := by
    rw [hentries, List.getElem?_concat_length]
  have hheld' : (queue.reserve.2.fill queue.entries.length change).entries[queue.entries.length]? =
      some ⟨.held, change (queue.leftover queue.entries.length)⟩ := by
    rw [ReservationQueue.fill, hfill]
    exact List.getElem?_concat_length
  have hcommit := update_of_held (congrArg ReservationQueue.entries hfill) rfl
    ({ · with fate := .committed })
  have hqueue : (queue.reserve.2.fill queue.entries.length change).close queue.entries.length
      .committed = queue.feed change := by
    refine hcommit.trans ?_
    rw [hfill, ReservationQueue.reserve, if_pos hroom]
    rfl
  exact ⟨_, hslot, hqueue ▸ (hnext.fill hheld change).commit hheld'⟩

theorem takeReader (h : ring.Represents queue) : ring.takeReader.2.Represents queue :=
  ⟨h.sized, h.head, h.tail, h.taken_le, h.length_le, h.consumed, h.granted, h.free, h.stats,
    h.deepest_le⟩

end Represents

end Ring

end DentryWatch
