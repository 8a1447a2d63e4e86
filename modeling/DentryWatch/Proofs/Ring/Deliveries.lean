import DentryWatch.Proofs.Ring.Steps

/-!
# Deliveries

The reader frees the cells of discarded reservations until it meets a committed
one, an open one or the head. At most a lap of cells is in use, so it always
stops for one of these and never because its steps are used up.
-/

namespace DentryWatch

open ReservationQueue

namespace Ring

namespace Represents

variable {ring : Ring} {queue : ReservationQueue}

theorem popWithin (h : ring.Represents queue) {steps : Nat}
    (hsteps : queue.waiting.length < steps) :
    (ring.popWithin steps).1 = queue.pop.1 ∧
      (ring.popWithin steps).2.Represents queue.pop.2 ∧
      ((ring.popWithin steps).1 = none → (ring.popWithin steps).2.isReady = false) := by
  induction steps generalizing ring queue with
  | zero => exact absurd hsteps (Nat.not_lt_zero _)
  | succ steps ih =>
      rcases queue.open_or_closed with hopen | ⟨⟨fate, record⟩, rest, hwaiting, hclosed⟩
      · have hwait := h.isReady_eq_false hopen
        rw [pop_of_open hopen, Ring.popWithin, hwait]
        exact ⟨rfl, h, fun _ => hwait⟩
      · obtain ⟨hready, hhole, hrecord⟩ := h.isReady_of_closed hwaiting hclosed
        cases fate with
        | held => exact absurd rfl hclosed
        | discarded =>
            have hstats : ring.stats =
                ({ queue with taken := queue.taken + 1 } : ReservationQueue).stats := by
              rw [stats_take hwaiting, h.stats]
              simp
            have hfewer : ({ queue with taken := queue.taken + 1 } :
                ReservationQueue).waiting.length < steps := by
              have hlength := congrArg List.length hwaiting
              rw [length_waiting] at hsteps hlength ⊢
              rw [List.length_cons] at hlength
              dsimp only
              omega
            rw [pop_of_discarded hwaiting, Ring.popWithin, hready, if_pos rfl]
            dsimp only
            rw [hhole]
            exact ih (h.release hwaiting hclosed hstats) hfewer
        | committed =>
            rw [pop_of_committed hwaiting, Ring.popWithin, hready, if_pos rfl]
            dsimp only
            rw [hhole, if_neg (by simp)]
            refine ⟨congrArg some hrecord, h.release hwaiting hclosed ?_, fun hnone => ?_⟩
            · rw [stats_take hwaiting, ← h.stats]
              rfl
            · cases hnone

/-- The reader delivers what the queue delivers, and gives up only when there is nothing to read. -/
theorem pop (h : ring.Represents queue) :
    ring.pop.1 = queue.pop.1 ∧ ring.pop.2.Represents queue.pop.2 ∧
      (ring.pop.1 = none → ring.pop.2.isReady = false) := by
  have hcapacity : ring.capacity = queue.capacity := h.sized.1
  have hlength := h.length_le
  exact h.popWithin (by rw [length_waiting, hcapacity]; omega)

theorem popBatch (h : ring.Represents queue) (limit : Nat) :
    (ring.popBatch limit).1 = (queue.popBatch limit).1 ∧
      (ring.popBatch limit).2.Represents (queue.popBatch limit).2 := by
  induction limit generalizing ring queue with
  | zero => exact ⟨rfl, h⟩
  | succ limit ih =>
      obtain ⟨hanswer, hnext, -⟩ := h.pop
      rw [Ring.popBatch.eq_2, ReservationQueue.popBatch.eq_2]
      rcases hring : ring.pop with ⟨answer, ring'⟩
      rcases hqueue : queue.pop with ⟨answer', queue'⟩
      rw [hring, hqueue] at hanswer hnext
      obtain rfl : answer = answer' := hanswer
      cases answer with
      | none => exact ⟨rfl, hnext⟩
      | some record =>
          obtain ⟨hrest, hlast⟩ := ih hnext
          exact ⟨congrArg (record :: ·) hrest, hlast⟩

end Represents

end Ring

end DentryWatch
