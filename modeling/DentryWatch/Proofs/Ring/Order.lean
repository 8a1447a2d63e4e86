import DentryWatch.Proofs.Ring.Output

/-!
# The ring is a bounded first-in first-out queue

Every run on a fresh ring answers what the queue of reservations answers, and
delivers what was committed among the consumed reservations. The ring then serves
the next request, write and delivery as the queue would.
-/

namespace DentryWatch

open ReservationQueue

namespace RingClient

namespace Matches

variable {client : RingClient} {queue : ReservationQueue}

theorem step (h : client.Matches queue) (action : RingStep) :
    (client.step action).1 = (queue.step action).1 ∧
      (client.step action).2.Matches (queue.step action).2 := by
  cases action with
  | reserve => exact h.reserve
  | fill id change => exact h.fill id change
  | commit id => exact h.close id (by decide) fun _ hheld => h.ring.commit hheld
  | discard id => exact h.close id (by decide) fun _ hheld => h.ring.discard hheld
  | drop id => exact h.close id (by decide) fun _ hheld => h.ring.discard hheld
  | pop =>
      obtain ⟨hanswer, hnext, -⟩ := h.ring.pop
      exact ⟨congrArg (fun answer : Option Record => RingAnswer.delivered answer.toList) hanswer,
        hnext,
        h.held.trans (congrArg (List.mapIdx slot) queue.entries_pop.symm)⟩
  | popBatch limit =>
      obtain ⟨hanswer, hnext⟩ := h.ring.popBatch limit
      exact ⟨congrArg RingAnswer.delivered hanswer, hnext,
        h.held.trans (congrArg (List.mapIdx slot) (queue.entries_popBatch limit).symm)⟩

/-- A change of a held reservation leaves the consumed ones as they are. -/
theorem output_update (h : client.Matches queue) (id : Nat) (change : Entry → Entry) :
    (queue.update id change).output = queue.output := by
  rcases queue.held_or_closed id with ⟨record, hheld⟩ | hclosed
  · exact congrArg committed (queue.take_update (h.ring.taken_le_of_held hheld) change)
  · rw [update_of_closed hclosed]

theorem output_reserve (h : client.Matches queue) : queue.reserve.2.output = queue.output := by
  rw [ReservationQueue.reserve]
  split
  · exact congrArg committed (List.take_append_of_le_length h.ring.taken_le)
  · rfl

/-- A step delivers exactly the committed reservations that it consumes. -/
theorem output_step (h : client.Matches queue) (action : RingStep) :
    (queue.step action).2.output = queue.output ++ (queue.step action).1.records := by
  have hquiet : ∀ id reply, (∀ record, (reply record).records = []) →
      (queue.answer id reply).records = [] := by
    intro id reply hreply
    rcases queue.held_or_closed id with ⟨record, hheld⟩ | hclosed
    · rw [answer_of_held hheld, hreply]
    · rw [answer_of_closed hclosed]
      rfl
  have hupdate : ∀ id change reply, (∀ record, (reply record).records = []) →
      (queue.update id change).output = queue.output ++ (queue.answer id reply).records := by
    intro id change reply hreply
    rw [hquiet id reply hreply, List.append_nil, h.output_update]
  cases action with
  | reserve =>
      have hrecords : (queue.step .reserve).1.records = [] := by
        show (if queue.reserve.1 then RingAnswer.granted _ else RingAnswer.refused).records = []
        split <;> rfl
      rw [hrecords, List.append_nil]
      exact h.output_reserve
  | fill id change => exact hupdate id _ _ fun _ => rfl
  | commit id => exact hupdate id _ _ fun _ => rfl
  | discard id => exact hupdate id _ _ fun _ => rfl
  | drop id => exact hupdate id _ _ fun _ => rfl
  | pop => exact queue.output_pop
  | popBatch limit => exact queue.output_popBatch limit

theorem output_runAll (h : client.Matches queue) (actions : List RingStep) :
    (runAll ReservationQueue.step actions queue).2.output =
      queue.output ++ delivered (runAll ReservationQueue.step actions queue).1 := by
  induction actions generalizing client queue with
  | nil => simp [delivered]
  | cons action rest ih =>
      rw [runAll_cons, ih (h.step action).2, h.output_step action, delivered, delivered,
        List.flatMap_cons, List.append_assoc]

/-! ## The state after a run -/

theorem entry_of_slot (h : client.Matches queue) {id : Nat} {slot : Reservation}
    (hslot : client.held[id]? = some (some slot)) :
    ∃ record, queue.entries[id]? = some ⟨.held, record⟩ ∧ slot = ⟨UInt64.ofNat id⟩ := by
  rcases queue.held_or_closed id with ⟨record, hentry⟩ | hclosed
  · have hjoin := h.join_of_held hentry
    rw [hslot, Option.join_some, Option.some.injEq] at hjoin
    exact ⟨record, hentry, hjoin⟩
  · have hjoin := h.join_of_closed hclosed
    rw [hslot, Option.join_some] at hjoin
    cases hjoin

/-- Filling a held reservation is not seen in another one. -/
theorem peek_fill (h : client.Matches queue) {id other : Nat} {slot slot' : Reservation}
    (hslot : client.held[id]? = some (some slot))
    (hother : client.held[other]? = some (some slot')) (hne : id ≠ other)
    (change : Record → Record) :
    (client.ring.fill slot change).peek slot' = client.ring.peek slot' := by
  obtain ⟨record, hentry, rfl⟩ := h.entry_of_slot hslot
  obtain ⟨record', hentry', rfl⟩ := h.entry_of_slot hother
  have hkept : (queue.fill id change).entries[other]? = some ⟨.held, record'⟩ := by
    rw [ReservationQueue.fill, getElem?_update, hentry', Option.map_some, if_neg]
    exact fun hboth => hne hboth.1
  rw [(h.ring.fill hentry change).peek hkept, h.ring.peek hentry']

end Matches

/-- What a ring promises its user next, in the words of the queue it stands for. -/
structure InOrder (client : RingClient) (queue : ReservationQueue) : Prop where
  /-- A request is refused exactly when all cells are in use. -/
  refused_iff : client.ring.reserve.1 = none ↔ queue.waiting.length = client.ring.capacity
  /-- A request never has to try again. -/
  decided : client.ring.lead client.ring.head ≤ 0
  /-- A new reservation reads what the one a capacity before it left behind. -/
  begins : ∀ slot, client.ring.reserve.1 = some slot →
    client.ring.reserve.2.peek slot = queue.leftover queue.entries.length
  pop_eq_some_iff : ∀ record, client.ring.pop.1 = some record ↔
    ∃ rest, queue.pending = ⟨.committed, record⟩ :: rest
  pop_eq_none_iff : client.ring.pop.1 = none ↔
    ∀ entry, queue.pending.head? = some entry → entry.fate = .held
  /-- The reader gives up only at a cell that is not published. -/
  stops : client.ring.pop.1 = none → client.ring.pop.2.isReady = false
  /-- Filling a reservation is not seen in another one. -/
  apart : ∀ (id other : Nat) (slot slot' : Reservation) change,
    client.held[id]? = some (some slot) →
    client.held[other]? = some (some slot') → id ≠ other →
    (client.ring.fill slot change).peek slot' = client.ring.peek slot'

theorem Matches.inOrder {client : RingClient} {queue : ReservationQueue}
    (h : client.Matches queue) : client.InOrder queue := by
  obtain ⟨hpop, -, hstops⟩ := h.ring.pop
  have hcapacity : client.ring.capacity = queue.capacity := h.ring.sized.1
  have hlength := h.ring.length_le
  have htaken := h.ring.taken_le
  refine ⟨?_, ?_, ?_, ?_, ?_, hstops, fun _ _ _ _ change hslot hother hne =>
    h.peek_fill hslot hother hne change⟩
  · by_cases hroom : queue.waiting.length < queue.capacity
    · rw [(h.ring.reserve_granted hroom).1, hcapacity]
      exact ⟨fun hnone => (Option.some_ne_none _ hnone).elim, fun heq => absurd hroom (by omega)⟩
    · rw [(h.ring.reserve_refused hroom).1, hcapacity]
      rw [length_waiting] at hroom ⊢
      exact ⟨fun _ => by omega, fun _ => rfl⟩
  · rcases Nat.lt_or_ge queue.entries.length (queue.taken + queue.capacity) with hroom | hfull
    · rw [h.ring.lead_eq_zero hroom]
      exact Int64.le_refl _
    · exact Int64.le_of_lt (h.ring.lead_neg (by omega))
  · intro slot hslot
    by_cases hroom : queue.waiting.length < queue.capacity
    · obtain ⟨hgranted, hnext⟩ := h.ring.reserve_granted hroom
      rw [hgranted, Option.some.injEq] at hslot
      subst hslot
      refine hnext.peek ?_
      rw [ReservationQueue.reserve, if_pos hroom]
      exact List.getElem?_concat_length
    · rw [(h.ring.reserve_refused hroom).1] at hslot
      cases hslot
  · rw [hpop]
    exact queue.pop_eq_some_iff
  · rw [hpop]
    exact queue.pop_eq_none_iff

/--
After any run on a fresh ring, the user has seen what the queue of reservations
answers. More than `2 ^ 63` records would need a power of two of cells that is
not a word.
-/
theorem runAll_in_order {records : Nat} (hrecords : records ≤ 2 ^ 63) (actions : List RingStep) :
    let start : ReservationQueue := { capacity := (Ring.ofCapacity records).capacity }
    let run := runAll step actions { ring := Ring.ofCapacity records }
    let meant := runAll ReservationQueue.step actions start
    run.1 = meant.1 ∧ delivered run.1 = meant.2.output ∧ run.2.ring.stats = meant.2.stats ∧
      run.2.ring.depth = UInt64.ofNat meant.2.waiting.length ∧ run.2.InOrder meant.2 ∧
      ∀ later id entry, meant.2.entries[id]? = some entry →
        (entry.fate ≠ .held ∨ ∀ action ∈ later, action.target ≠ some id) →
        (runAll ReservationQueue.step (actions ++ later) start).2.entries[id]? = some entry := by
  intro start run meant
  have hstart : ({ ring := Ring.ofCapacity records } : RingClient).Matches start := by
    refine ⟨?_, rfl⟩
    show (Ring.ofCapacity records).Represents { capacity := _ }
    rw [Ring.capacity_ofCapacity]
    exact Ring.represents_ofCapacity hrecords
  obtain ⟨hanswers, hend⟩ := runAll_matches
    (fun action client queue (h : client.Matches queue) => h.step action) actions hstart
  have houtput := hstart.output_runAll actions
  refine ⟨hanswers, ?_, hend.ring.stats, hend.ring.depth_eq, hend.inOrder, ?_⟩
  · show delivered run.1 = _
    rw [hanswers]
    exact houtput.symm
  · intro later id entry hentry hkept
    rw [runAll_append]
    exact getElem?_runAll hentry later hkept

/-- Two cells, a discarded reservation, and one that reads what the first lap left. -/
theorem runAll_in_order_two :
    (2 : Nat) ≤ 2 ^ 63 ∧
      (runAll step
        [.reserve, .reserve, .reserve, .fill 1 fun record => { record with group := 7 }, .commit 1,
          .pop, .drop 0, .pop, .reserve, .reserve, .commit 3, .discard 2, .popBatch 3]
        { ring := Ring.ofCapacity 2 }).1 =
        [.granted 0, .granted 1, .refused, .filled { Record.zero with group := 7 }, .closed,
          .delivered [], .closed, .delivered [{ Record.zero with group := 7 }], .granted 2,
          .granted 3, .closed, .closed, .delivered [{ Record.zero with group := 7 }]] :=
  ⟨by decide, (runAll_in_order (by decide) _).1.trans (by rfl)⟩

end RingClient

end DentryWatch
