import DentryWatch.Proofs.Ring.Refinement

/-!
# Writing, publishing and delivering

A held reservation lies within the lap that begins at the tail, so that its cell
is its own. Consuming the oldest cell moves the lap on by one position; the cell
then awaits the position one lap later and keeps the record.
-/

namespace DentryWatch

open ReservationQueue

namespace Ring

namespace Represents

variable {ring : Ring} {queue : ReservationQueue}

/-! ## Held reservations -/

theorem taken_le_of_held (h : ring.Represents queue) {id : Nat} {record : Record}
    (hheld : queue.entries[id]? = some ⟨.held, record⟩) : queue.taken ≤ id := by
  rcases Nat.lt_or_ge id queue.taken with hlt | hge
  · exact absurd rfl (h.consumed id hlt _ hheld)
  · exact hge

/-- A change of the cell of a held reservation is a change of that reservation. -/
theorem write (h : ring.Represents queue) {id : Nat} {record : Record}
    (hheld : queue.entries[id]? = some ⟨.held, record⟩) (change : RingCell → RingCell)
    (alter : Entry → Entry)
    (hshows : ∀ cell, Shows id cell ⟨.held, record⟩ →
      Shows id (change cell) (alter ⟨.held, record⟩))
    {counters : RingStats} (hstats : counters = (queue.update id alter).stats) :
    ({ ring.modifyCell (UInt64.ofNat id) change with stats := counters } : Ring).Represents
      (queue.update id alter) := by
  have hstart := h.taken_le_of_held hheld
  obtain ⟨hid, -⟩ := List.getElem?_eq_some_iff.1 hheld
  have hlength := h.length_le
  have hcell : ∀ position, queue.taken ≤ position → position < queue.taken + queue.capacity →
      (ring.modifyCell (UInt64.ofNat id) change).cell (UInt64.ofNat position) =
        if id = position then change (ring.cell (UInt64.ofNat position))
        else ring.cell (UInt64.ofNat position) :=
    fun position hle hlt =>
      h.sized.cell_modifyCell hstart (Nat.lt_of_lt_of_le hid hlength) hle hlt change
  refine ⟨h.sized.modifyCell _ _, ?_, h.tail, ?_, ?_, ?_, ?_, ?_, hstats, h.deepest_le⟩
  · rw [length_entries_update]
    exact h.head
  · rw [length_entries_update]
    exact h.taken_le
  · rw [length_entries_update]
    exact hlength
  · intro position hlt entry hentry
    rw [getElem?_update] at hentry
    obtain ⟨old, hold, rfl⟩ := Option.map_eq_some_iff.1 hentry
    have hclosed := h.consumed position hlt old hold
    rw [if_neg fun hboth => hclosed hboth.2]
    exact hclosed
  · intro position entry hle hentry
    rw [getElem?_update] at hentry
    obtain ⟨old, hold, rfl⟩ := Option.map_eq_some_iff.1 hentry
    obtain ⟨hin, -⟩ := List.getElem?_eq_some_iff.1 hold
    have hold' := h.granted position old hle hold
    show Shows position ((ring.modifyCell _ change).cell _) _
    rw [hcell position hle (Nat.lt_of_lt_of_le hin hlength)]
    by_cases heq : id = position
    · subst heq
      rw [hheld, Option.some.injEq] at hold
      subst hold
      rw [if_pos rfl, if_pos ⟨rfl, rfl⟩]
      exact hshows _ hold'
    · rw [if_neg heq, if_neg fun hboth => heq hboth.1]
      exact hold'
  · intro position hge hlt
    replace hlt : position < queue.taken + queue.capacity := hlt
    rw [length_entries_update] at hge
    have hne : id ≠ position := by omega
    have hlap := hcell position (by omega) hlt
    rw [if_neg hne] at hlap
    have hleft : (queue.update id alter).leftover position = queue.leftover position :=
      leftover_update (fun hcap => h.consumed _ (by omega)) id alter
    obtain ⟨hturn, hrecord⟩ := h.free position hge hlt
    exact ⟨(congrArg RingCell.turn hlap).trans hturn,
      ((congrArg RingCell.record hlap).trans hrecord).trans hleft.symm⟩

theorem fill (h : ring.Represents queue) {id : Nat} {record : Record}
    (hheld : queue.entries[id]? = some ⟨.held, record⟩) (change : Record → Record) :
    (ring.fill ⟨UInt64.ofNat id⟩ change).Represents (queue.fill id change) := by
  refine h.write hheld (fun cell => { cell with record := change cell.record })
    (fun entry => { entry with record := change entry.record }) ?_ ?_
  · rintro cell ⟨hrecord, hturn⟩
    exact ⟨congrArg change hrecord, hturn⟩
  · rw [stats_update hheld rfl (h.taken_le_of_held hheld)]
    simp [h.stats]

theorem commit (h : ring.Represents queue) {id : Nat} {record : Record}
    (hheld : queue.entries[id]? = some ⟨.held, record⟩) :
    (ring.commit ⟨UInt64.ofNat id⟩).Represents (queue.close id .committed) := by
  refine h.write hheld
    (fun cell => { cell with hole := false, turn := UInt64.ofNat id + 1 })
    ({ · with fate := .committed }) ?_ ?_
  · rintro cell ⟨hrecord, -⟩
    exact ⟨hrecord, rfl, rfl⟩
  · rw [stats_update hheld rfl (h.taken_le_of_held hheld)]
    simp [Ring.publish, Ring.modifyCell, h.stats]

theorem discard (h : ring.Represents queue) {id : Nat} {record : Record}
    (hheld : queue.entries[id]? = some ⟨.held, record⟩) :
    (ring.discard ⟨UInt64.ofNat id⟩).Represents (queue.close id .discarded) := by
  refine h.write hheld
    (fun cell => { cell with hole := true, turn := UInt64.ofNat id + 1 })
    ({ · with fate := .discarded }) ?_ ?_
  · rintro cell ⟨hrecord, -⟩
    exact ⟨hrecord, rfl, rfl⟩
  · rw [stats_update hheld rfl (h.taken_le_of_held hheld)]
    simp [h.stats]

/-- A held reservation reads back what is written in it. -/
theorem peek (h : ring.Represents queue) {id : Nat} {record : Record}
    (hheld : queue.entries[id]? = some ⟨.held, record⟩) :
    ring.peek ⟨UInt64.ofNat id⟩ = record :=
  (h.granted id _ (h.taken_le_of_held hheld) hheld).1

/-! ## Deliveries -/

theorem shows_oldest (h : ring.Represents queue) {entry : Entry} {rest : List Entry}
    (hwaiting : queue.waiting = entry :: rest) :
    Shows queue.taken (ring.cell ring.tail) entry := by
  rw [h.tail]
  exact h.granted _ _ (Nat.le_refl _) (getElem?_taken hwaiting)

/-- The reader waits when nothing is left or the oldest reservation is held. -/
theorem isReady_eq_false (h : ring.Represents queue)
    (hopen : ∀ entry, queue.waiting.head? = some entry → entry.fate = .held) :
    ring.isReady = false := by
  have hturn : (ring.cell ring.tail).turn = ring.tail := by
    cases hwaiting : queue.waiting with
    | nil =>
        have hle : queue.entries.length ≤ queue.taken := List.drop_eq_nil_iff.1 hwaiting
        have htwo := h.sized.bounds.1
        rw [h.tail]
        exact (h.free _ hle (by omega)).1
    | cons entry rest =>
        have hshows := h.shows_oldest hwaiting
        obtain ⟨fate, record⟩ := entry
        obtain rfl : fate = .held := hopen _ (by rw [hwaiting, List.head?_cons])
        exact hshows.2.trans h.tail.symm
  rw [isReady, hturn, beq_eq_false_iff_ne]
  exact word_add_one_ne _

theorem isReady_of_closed (h : ring.Represents queue) {entry : Entry} {rest : List Entry}
    (hwaiting : queue.waiting = entry :: rest) (hclosed : entry.fate ≠ .held) :
    ring.isReady = true ∧ (ring.cell ring.tail).hole = decide (entry.fate = .discarded) ∧
      (ring.cell ring.tail).record = entry.record := by
  obtain ⟨hrecord, hturn⟩ := h.shows_oldest hwaiting
  rw [isReady, beq_iff_eq, h.tail] at *
  obtain ⟨fate, record⟩ := entry
  cases fate with
  | held => exact absurd rfl hclosed
  | committed => exact ⟨hturn.1, hturn.2, hrecord⟩
  | discarded => exact ⟨hturn.1, hturn.2, hrecord⟩

/-- Freeing the oldest cell consumes its reservation. -/
theorem release (h : ring.Represents queue) {entry : Entry} {rest : List Entry}
    (hwaiting : queue.waiting = entry :: rest) (hclosed : entry.fate ≠ .held)
    {counters : RingStats}
    (hstats : counters = ({ queue with taken := queue.taken + 1 } : ReservationQueue).stats) :
    ({ ring.release with stats := counters } : Ring).Represents
      { queue with taken := queue.taken + 1 } := by
  have hentry := getElem?_taken hwaiting
  obtain ⟨hlt, -⟩ := List.getElem?_eq_some_iff.1 hentry
  have htwo := h.sized.bounds.1
  have hlength := h.length_le
  have hcapacity : ring.capacity = queue.capacity := h.sized.1
  let change : RingCell → RingCell :=
    ({ · with turn := ring.tail + UInt64.ofNat ring.capacity })
  have hcell : ∀ position, queue.taken ≤ position → position < queue.taken + queue.capacity →
      (ring.modifyCell ring.tail change).cell (UInt64.ofNat position) =
        if queue.taken = position then change (ring.cell (UInt64.ofNat position))
        else ring.cell (UInt64.ofNat position) := by
    rw [h.tail]
    exact fun position hle hlap =>
      h.sized.cell_modifyCell (Nat.le_refl _) (by omega) hle hlap change
  have hsized : (ring.modifyCell ring.tail change).Sized queue.capacity :=
    h.sized.modifyCell _ _
  refine ⟨hsized, h.head, ?_, hlt, by dsimp only; omega, ?_, ?_, ?_, hstats, h.deepest_le⟩ <;>
    dsimp only
  · rw [UInt64.ofNat_add, ← h.tail]
    rfl
  · intro id hid old hold
    rcases Nat.lt_succ_iff_lt_or_eq.1 hid with hid | rfl
    · exact h.consumed id hid old hold
    · rw [hentry, Option.some.injEq] at hold
      exact hold ▸ hclosed
  · intro position old hle hold
    obtain ⟨hin, -⟩ := List.getElem?_eq_some_iff.1 hold
    have hlap := hcell position (by omega) (by omega)
    rw [if_neg (by omega)] at hlap
    show Shows position ((ring.modifyCell ring.tail change).cell _) old
    rw [hlap]
    exact h.granted position old (by omega) hold
  · intro position hge hlap
    show ((ring.modifyCell ring.tail change).cell _).turn = _ ∧
      ((ring.modifyCell ring.tail change).cell _).record = queue.leftover position
    rcases Nat.lt_or_ge position (queue.taken + queue.capacity) with hold | hnew
    · rw [hcell position (by omega) hold, if_neg (by omega)]
      exact h.free position hge hold
    · -- The position one lap on begins with the record that was just consumed.
      obtain rfl : position = queue.taken + queue.capacity := by omega
      rw [hsized.cell_add_lap, hcell _ (Nat.le_refl _) (by omega), if_pos rfl]
      refine ⟨?_, ?_⟩
      · show ring.tail + UInt64.ofNat ring.capacity = _
        rw [hcapacity, h.tail, UInt64.ofNat_add]
      · rw [leftover, if_neg (by omega), Nat.add_sub_cancel, hentry]
        exact (h.granted _ _ (Nat.le_refl _) hentry).1

end Represents

end Ring

end DentryWatch
