import DentryWatch.Proofs.Ring.Clients

/-!
# What the queue of reservations gives out

The oldest reservation that is not discarded decides what is delivered. A step
delivers the committed ones among the reservations it consumes, and a closed
reservation never changes again.
-/

namespace DentryWatch

/-- The reservation a step is about. -/
def RingStep.target : RingStep → Option Nat
  | .fill id _ | .commit id | .discard id | .drop id => some id
  | .reserve | .pop | .popBatch _ => none

def RingAnswer.records : RingAnswer → List Record
  | .delivered records => records
  | _ => []

def delivered (answers : List RingAnswer) : List Record := answers.flatMap RingAnswer.records

namespace ReservationQueue

/-- The reservations from the oldest one on that is not passed over. -/
def pending (queue : ReservationQueue) : List Entry :=
  queue.waiting.dropWhile (·.fate = .discarded)

def output (queue : ReservationQueue) : List Record :=
  committed (queue.entries.take queue.taken)

/-! ## Deliveries -/

theorem skip_waiting (queue : ReservationQueue) : queue.skip.waiting = queue.pending := by
  have hsplit := List.takeWhile_append_dropWhile (l := queue.waiting)
    (p := fun entry => decide (entry.fate = .discarded))
  have hdrop := congrArg
    (List.drop (queue.waiting.takeWhile fun entry => decide (entry.fate = .discarded)).length)
    hsplit
  rw [List.drop_left] at hdrop
  rw [pending, hdrop, waiting, waiting, List.drop_drop]
  rfl

theorem output_skip (queue : ReservationQueue) : queue.skip.output = queue.output := by
  have hprefix := List.prefix_iff_eq_take.1
    (List.takeWhile_prefix (l := queue.waiting) fun entry => decide (entry.fate = .discarded))
  have hnone : committed (queue.waiting.takeWhile (·.fate = .discarded)) = [] := by
    have hall := List.all_takeWhile (l := queue.waiting)
      (p := fun entry => decide (entry.fate = .discarded))
    rw [committed, List.filter_eq_nil_iff.2, List.map_nil]
    intro entry hentry
    have hfate := of_decide_eq_true (List.all_eq_true.1 hall entry hentry)
    simp [hfate]
  show committed (queue.entries.take (queue.taken + _)) = _
  rw [List.take_add, committed_append, ← waiting, ← hprefix, hnone, List.append_nil]
  rfl

theorem output_pop (queue : ReservationQueue) :
    queue.pop.2.output = queue.output ++ queue.pop.1.toList := by
  rw [← queue.output_skip, pop]
  split
  · rename_i record hhead
    have hentry : queue.skip.entries[queue.skip.taken]? = some ⟨.committed, record⟩ := by
      rw [← List.head?_drop]
      exact hhead
    show committed (queue.skip.entries.take (queue.skip.taken + 1)) = _
    rw [List.take_add_one, hentry, committed_append]
    rfl
  · rw [Option.toList_none, List.append_nil]

theorem output_popBatch (queue : ReservationQueue) (limit : Nat) :
    (queue.popBatch limit).2.output = queue.output ++ (queue.popBatch limit).1 := by
  induction limit generalizing queue with
  | zero => rw [popBatch, List.append_nil]
  | succ limit ih =>
      have hfirst := queue.output_pop
      rw [popBatch]
      rcases hpop : queue.pop with ⟨answer, next⟩
      rw [hpop] at hfirst
      cases answer with
      | none => exact hfirst
      | some record =>
          show (next.popBatch limit).2.output = queue.output ++ record :: (next.popBatch limit).1
          rw [ih, hfirst]
          simp

theorem pop_eq_some_iff (queue : ReservationQueue) (record : Record) :
    queue.pop.1 = some record ↔ ∃ rest, queue.pending = ⟨.committed, record⟩ :: rest := by
  rw [pop, ← skip_waiting]
  cases hwaiting : queue.skip.waiting with
  | nil => simp
  | cons entry rest =>
      obtain ⟨fate, written⟩ := entry
      cases fate <;> simp

/-- Nothing is delivered when nothing is left or the oldest reservation left is held. -/
theorem pop_eq_none_iff (queue : ReservationQueue) :
    queue.pop.1 = none ↔ ∀ entry, queue.pending.head? = some entry → entry.fate = .held := by
  have hkept : ∀ entry, queue.pending.head? = some entry → entry.fate ≠ .discarded := by
    intro entry hentry hfate
    have hnot := List.head?_dropWhile_not (fun entry => decide (entry.fate = .discarded))
      queue.waiting
    rw [pending] at hentry
    rw [hentry] at hnot
    simp [hfate] at hnot
  rw [pop, ← skip_waiting]
  rw [← skip_waiting] at hkept
  cases hwaiting : queue.skip.waiting with
  | nil => simp
  | cons entry rest =>
      rw [hwaiting] at hkept
      obtain ⟨fate, written⟩ := entry
      cases fate with
      | held => simp
      | committed => simp
      | discarded => exact absurd rfl (hkept _ rfl)

/-! ## What a step leaves as it is -/

theorem exists_pop_eq (queue : ReservationQueue) :
    ∃ taken, queue.pop.2 = { queue with taken } := by
  rw [pop]
  split <;> exact ⟨_, rfl⟩

/-- Deliveries only move on what is consumed. -/
theorem exists_popBatch_eq (queue : ReservationQueue) (limit : Nat) :
    ∃ taken, (queue.popBatch limit).2 = { queue with taken } := by
  induction limit generalizing queue with
  | zero => exact ⟨_, rfl⟩
  | succ limit ih =>
      obtain ⟨taken, hfirst⟩ := queue.exists_pop_eq
      rw [popBatch]
      rcases hpop : queue.pop with ⟨answer, next⟩
      rw [hpop] at hfirst
      obtain rfl : next = { queue with taken } := hfirst
      cases answer with
      | none => exact ⟨taken, rfl⟩
      | some record => exact ih { queue with taken }

theorem entries_pop (queue : ReservationQueue) : queue.pop.2.entries = queue.entries := by
  obtain ⟨taken, hpop⟩ := queue.exists_pop_eq
  rw [hpop]

theorem entries_popBatch (queue : ReservationQueue) (limit : Nat) :
    (queue.popBatch limit).2.entries = queue.entries := by
  obtain ⟨taken, hpop⟩ := queue.exists_popBatch_eq limit
  rw [hpop]

theorem getElem?_reserve {queue : ReservationQueue} {id : Nat} {entry : Entry}
    (hentry : queue.entries[id]? = some entry) : queue.reserve.2.entries[id]? = some entry := by
  rw [reserve]
  split
  · obtain ⟨hlt, -⟩ := List.getElem?_eq_some_iff.1 hentry
    exact (List.getElem?_append_left hlt).trans hentry
  · exact hentry

/-- A reservation that is closed, or that no step names, stays as it is. -/
theorem getElem?_step {queue : ReservationQueue} {id : Nat} {entry : Entry}
    (hentry : queue.entries[id]? = some entry) {action : RingStep}
    (hkept : entry.fate ≠ .held ∨ action.target ≠ some id) :
    (queue.step action).2.entries[id]? = some entry := by
  have hupdate : ∀ other change, (entry.fate ≠ .held ∨ some other ≠ some id) →
      (queue.update other change).entries[id]? = some entry := by
    intro other change hkept
    rw [getElem?_update, hentry, Option.map_some, if_neg]
    rintro ⟨rfl, hheld⟩
    rcases hkept with hclosed | hother
    · exact hclosed hheld
    · exact hother rfl
  cases action with
  | reserve => exact getElem?_reserve hentry
  | fill other change => exact hupdate other _ hkept
  | commit other => exact hupdate other _ hkept
  | discard other => exact hupdate other _ hkept
  | drop other => exact hupdate other _ hkept
  | pop => exact queue.entries_pop ▸ hentry
  | popBatch limit => exact queue.entries_popBatch limit ▸ hentry

theorem getElem?_runAll {queue : ReservationQueue} {id : Nat} {entry : Entry}
    (hentry : queue.entries[id]? = some entry) (actions : List RingStep)
    (hkept : entry.fate ≠ .held ∨ ∀ action ∈ actions, action.target ≠ some id) :
    (runAll step actions queue).2.entries[id]? = some entry := by
  induction actions generalizing queue with
  | nil => exact hentry
  | cons action rest ih =>
      have hnow : entry.fate ≠ .held ∨ action.target ≠ some id :=
        hkept.imp_right fun hall => hall action List.mem_cons_self
      have hlater : entry.fate ≠ .held ∨ ∀ action ∈ rest, action.target ≠ some id :=
        hkept.imp_right fun hall action hmem => hall action (List.mem_cons_of_mem _ hmem)
      exact ih (getElem?_step hentry hnow) hlater

end ReservationQueue

end DentryWatch
