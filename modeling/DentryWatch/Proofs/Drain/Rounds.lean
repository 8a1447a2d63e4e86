import DentryWatch.Drain
import DentryWatch.Proofs.Ring.Backlogs

/-!
# The rounds of a drain

Whatever each record and each flush keeps, a drain keeps until the ring is empty,
however the records fall into batches and whenever a flush is due.
-/

namespace DentryWatch.Drain

/-- What is kept while these records are handled one by one, with flushes at any time. -/
structure Invariant (schedule : DrainSchedule) (records : List Record)
    (keeps : List Record → Drain → Disk → Prop) : Prop where
  received : ∀ done drain disk, keeps done drain disk → drain.summary.received = done.length
  handle : ∀ done record drain disk, done ++ [record] <+: records → keeps done drain disk →
    keeps (done ++ [record]) (drain.handle disk (schedule.seen done.length) record).1
      (drain.handle disk (schedule.seen done.length) record).2
  flush : ∀ done drain disk, keeps done drain disk →
    keeps done (drain.flush disk).1 (drain.flush disk).2

variable {schedule : DrainSchedule} {records done left : List Record}
  {keeps : List Record → Drain → Disk → Prop} {drain : Drain} {disk : Disk} {ring : Ring}
  {capacity : Nat}

theorem Invariant.handleAll (h : Invariant schedule records keeps) (hkeeps : keeps done drain disk)
    (batch : List Record) (hbatch : done ++ batch <+: records) :
    keeps (done ++ batch) (drain.handleAll schedule disk batch).1
      (drain.handleAll schedule disk batch).2 := by
  induction batch generalizing done drain disk with
  | nil =>
      rw [List.append_nil]
      exact hkeeps
  | cons record rest ih =>
      have happend : done ++ record :: rest = done ++ [record] ++ rest := by simp
      rw [happend] at hbatch ⊢
      have hnext := h.handle done record drain disk ((List.prefix_append _ _).trans hbatch) hkeeps
      rw [Drain.handleAll, h.received done drain disk hkeeps]
      exact ih hnext hbatch

theorem Invariant.round (h : Invariant schedule records keeps) (hkeeps : keeps done drain disk)
    {batch : List Record} (hbatch : done ++ batch <+: records) {drain' : Drain} {disk' : Disk}
    {round : Nat}
    (hround : (if schedule.flushDue round = true then
        (drain.handleAll schedule disk batch).1.flush (drain.handleAll schedule disk batch).2
      else drain.handleAll schedule disk batch) = (drain', disk')) :
    keeps (done ++ batch) drain' disk' := by
  have hhandled := h.handleAll hkeeps batch hbatch
  split at hround
  · have hflushed := h.flush _ _ _ hhandled
    rwa [hround] at hflushed
  · rwa [hround] at hhandled

/-- A round takes a record, or it is over before the request was seen. -/
theorem fewer_after_round {round : Nat}
    (hgoes : ((left.take batchSize).isEmpty && decide (schedule.stopSeen ≤ round)) = false) :
    (left.drop batchSize).length + (schedule.stopSeen - (round + 1)) <
      left.length + (schedule.stopSeen - round) := by
  rw [List.length_drop, batchSize]
  cases left with
  | nil =>
      have hwaits : round < schedule.stopSeen := by simpa using hgoes
      rw [List.length_nil]
      omega
  | cons record rest =>
      rw [List.length_cons]
      omega

/-- The first records move from the ring to the outputs, and all of them are kept track of. -/
theorem Invariant.emptyWithin (h : Invariant schedule records keeps) (steps round : Nat)
    (hkeeps : keeps done drain disk) (hbacklog : ring.Backlog capacity left)
    (hall : done ++ left = records)
    (hsteps : left.length + (schedule.stopSeen - round) < steps) :
    ∃ drain' ring' disk', drain.emptyWithin schedule steps round ring disk = (drain', ring', disk') ∧
      keeps records drain' disk' ∧ ring'.Backlog capacity [] := by
  -- `hsteps` bounds the rounds that are left: a round is paid by a record or by the wait
  induction steps generalizing round done left drain disk ring with
  | zero => omega
  | succ steps ih =>
      obtain ⟨hbatch, hrest⟩ := hbacklog.popBatch batchSize
      rcases hpop : ring.popBatch batchSize with ⟨batch, rest⟩
      rw [hpop] at hbatch hrest
      obtain rfl : batch = left.take batchSize := hbatch
      dsimp only at hrest
      rw [Drain.emptyWithin, hpop]
      dsimp only
      cases hends : (left.take batchSize).isEmpty && decide (schedule.stopSeen ≤ round) with
      | true =>
          have hnone : left = [] := by
            simpa [batchSize] using (Bool.and_eq_true_iff.1 hends).1
          subst hnone
          rw [List.append_nil] at hall
          subst hall
          exact ⟨drain, rest, disk, rfl, hkeeps, hrest⟩
      | false =>
          have htaken : done ++ left.take batchSize ++ left.drop batchSize = records := by
            rw [List.append_assoc, List.take_append_drop, hall]
          have hfewer := fewer_after_round hends
          exact ih (round + 1) (h.round hkeeps ⟨_, htaken⟩ rfl) hrest htaken (by omega)

/-- A drain handles all records of the ring. -/
theorem Invariant.empty (h : Invariant schedule records keeps) (hkeeps : keeps [] drain disk)
    (hbacklog : ring.Backlog capacity records) :
    ∃ drain' ring' disk', drain.empty schedule ring disk = (drain', ring', disk') ∧
      keeps records drain' disk' ∧ ring'.Backlog capacity [] := by
  have hlength := hbacklog.length_le
  rw [Drain.empty, hbacklog.capacity_eq]
  exact h.emptyWithin _ 0 hkeeps hbacklog rfl (by omega)

end DentryWatch.Drain
