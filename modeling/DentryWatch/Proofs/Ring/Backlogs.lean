import DentryWatch.Proofs.Ring.Feeding
import DentryWatch.Proofs.Runs

/-!
# The backlog of a ring

For a client that commits each reservation at once, a ring is a bounded list of
records: new ones go to its end while there is room, and they are delivered from
its front.
-/

namespace DentryWatch

open ReservationQueue

namespace Ring

/-- The ring is a bounded list of records, and these are in it. -/
structure Backlog (ring : Ring) (capacity : Nat) (records : List Record) : Prop where
  settled : ∃ queue : ReservationQueue, ring.Represents queue ∧ queue.Settled ∧
    queue.capacity = capacity ∧ queue.waiting.map Entry.record = records

theorem backlog_ofCapacity {records : Nat} (h : records ≤ 2 ^ 63) :
    (ofCapacity records).Backlog (cellCount records) [] := by
  refine ⟨_, represents_ofCapacity h, ?_, rfl, rfl⟩
  intro entry hentry
  cases hentry

namespace Backlog

variable {ring : Ring} {capacity : Nat} {records : List Record}

theorem capacity_eq (h : ring.Backlog capacity records) : ring.capacity = capacity := by
  obtain ⟨queue, hrep, -, hcapacity, -⟩ := h.settled
  exact hrep.sized.1.trans hcapacity

theorem queued_eq (h : ring.Backlog capacity records) : ring.queued = records := by
  obtain ⟨queue, hrep, hsettled, -, hrecords⟩ := h.settled
  exact (hrep.queued_eq hsettled).trans hrecords

theorem length_le (h : ring.Backlog capacity records) : records.length ≤ capacity := by
  obtain ⟨queue, hrep, -, rfl, rfl⟩ := h.settled
  have hlength := hrep.length_le
  rw [List.length_map, length_waiting]
  omega

/-- A record that replaces all its cell held goes to the end. -/
theorem feed (h : ring.Backlog capacity records) (hroom : records.length < capacity)
    {change : Record → Record} {record : Record} (hchange : ∀ before, change before = record) :
    ∃ slot, ring.reserve.1 = some slot ∧
      ((ring.reserve.2.fill slot change).commit slot).Backlog capacity (records ++ [record]) := by
  obtain ⟨queue, hrep, hsettled, rfl, rfl⟩ := h.settled
  rw [List.length_map] at hroom
  obtain ⟨slot, hslot, hnext⟩ := hrep.feed hroom change
  refine ⟨slot, hslot, _, hnext, hsettled.feed change, rfl, ?_⟩
  rw [waiting_feed hrep.taken_le, List.map_append, List.map_singleton, hchange]

theorem refuse (h : ring.Backlog capacity records) (hfull : ¬ records.length < capacity) :
    ring.reserve.1 = none ∧ ring.reserve.2.Backlog capacity records := by
  obtain ⟨queue, hrep, hsettled, rfl, rfl⟩ := h.settled
  rw [List.length_map] at hfull
  obtain ⟨hnone, hnext⟩ := hrep.reserve_refused hfull
  rw [ReservationQueue.reserve, if_neg hfull] at hnext
  exact ⟨hnone, _, hnext, hsettled, rfl, rfl⟩

theorem emit_of_room (h : ring.Backlog capacity records) (hroom : records.length < capacity)
    (record : Record) :
    (ring.emit record).1 = true ∧ (ring.emit record).2.Backlog capacity (records ++ [record]) := by
  obtain ⟨slot, hslot, hnext⟩ := h.feed hroom fun _ : Record => (rfl : record = record)
  unfold emit
  rcases hring : ring.reserve with ⟨answer, next⟩
  rw [hring] at hslot hnext
  obtain rfl : answer = some slot := hslot
  exact ⟨rfl, hnext⟩

theorem emit_of_full (h : ring.Backlog capacity records) (hfull : ¬ records.length < capacity)
    (record : Record) :
    (ring.emit record).1 = false ∧ (ring.emit record).2.Backlog capacity records := by
  obtain ⟨hnone, hnext⟩ := h.refuse hfull
  unfold emit
  rcases hring : ring.reserve with ⟨answer, next⟩
  rw [hring] at hnone hnext
  obtain rfl : answer = none := hnone
  exact ⟨rfl, hnext⟩

theorem popBatch (h : ring.Backlog capacity records) (limit : Nat) :
    (ring.popBatch limit).1 = records.take limit ∧
      (ring.popBatch limit).2.Backlog capacity (records.drop limit) := by
  obtain ⟨queue, hrep, hsettled, rfl, rfl⟩ := h.settled
  obtain ⟨hrecords, hnext⟩ := hrep.popBatch limit
  obtain ⟨hgiven, taken, hqueue, hleft⟩ := hsettled.popBatch limit
  rw [hqueue] at hnext
  refine ⟨?_, _, hnext, hsettled, rfl, ?_⟩
  · rw [hrecords, hgiven, List.map_take]
  · rw [hleft, List.map_drop]

end Backlog

/-! ## Records put in one after another -/

def emitAll (ring : Ring) (events : List Record) : List Bool × Ring :=
  runAll (fun event ring => ring.emit event) events ring

def taken (events : List Record) (answers : List Bool) : List Record :=
  ((events.zip answers).filter Prod.snd).map Prod.fst

/-- The records that a ring accepts. -/
def accepted (ring : Ring) (events : List Record) : List Record :=
  taken events (ring.emitAll events).1

theorem taken_cons (event : Record) (events : List Record) (answer : Bool) (answers : List Bool) :
    taken (event :: events) (answer :: answers) =
      (if answer then [event] else []) ++ taken events answers := by
  unfold taken
  cases answer <;> rfl

/-- A ring takes records up to its capacity and refuses the others. -/
theorem Backlog.emitAll {ring : Ring} {capacity : Nat} {records : List Record}
    (h : ring.Backlog capacity records) (events : List Record) :
    (ring.emitAll events).2.Backlog capacity (records ++ ring.accepted events) ∧
      ring.accepted events = events.take (capacity - records.length) ∧
      (ring.emitAll events).1.count true = (ring.accepted events).length := by
  induction events generalizing ring records with
  | nil => exact ⟨by simpa [accepted, taken, Ring.emitAll] using h, by simp [accepted, taken], rfl⟩
  | cons event rest ih =>
      by_cases hroom : records.length < capacity
      · obtain ⟨hanswer, hnext⟩ := h.emit_of_room hroom event
        obtain ⟨hbacklog, htaken, hcount⟩ := ih hnext
        have hall : ring.emitAll (event :: rest) =
            (true :: ((ring.emit event).2.emitAll rest).1, ((ring.emit event).2.emitAll rest).2) := by
          rw [Ring.emitAll, runAll_cons, hanswer]
          rfl
        have hleft : capacity - records.length = capacity - (records ++ [event]).length + 1 := by
          rw [List.length_append, List.length_singleton]
          omega
        rw [accepted, hall, taken_cons, if_pos rfl, List.singleton_append, ← accepted]
        refine ⟨?_, ?_, ?_⟩
        · simpa using hbacklog
        · rw [hleft, List.take_succ_cons, htaken]
        · rw [List.count_cons_self, hcount, List.length_cons]
      · obtain ⟨hanswer, hnext⟩ := h.emit_of_full hroom event
        obtain ⟨hbacklog, htaken, hcount⟩ := ih hnext
        have hall : ring.emitAll (event :: rest) =
            (false :: ((ring.emit event).2.emitAll rest).1,
              ((ring.emit event).2.emitAll rest).2) := by
          rw [Ring.emitAll, runAll_cons, hanswer]
          rfl
        have hleft : capacity - records.length = 0 := by omega
        rw [accepted, hall, taken_cons, if_neg Bool.false_ne_true, List.nil_append, ← accepted]
        refine ⟨hbacklog, ?_, ?_⟩
        · rw [htaken, hleft, List.take_zero, List.take_zero]
        · rw [List.count_cons_of_ne (by decide), hcount]

end Ring

end DentryWatch
