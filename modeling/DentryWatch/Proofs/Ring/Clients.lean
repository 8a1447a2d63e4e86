import DentryWatch.Proofs.Ring.Deliveries
import DentryWatch.Proofs.Runs

/-!
# Users of the ring

A user holds any number of reservations at once and names them by the order they
were granted in. A reservation is used up when it is closed: a later step that
names it has no effect.
-/

namespace DentryWatch

inductive RingStep where
  | reserve
  | fill (id : Nat) (change : Record → Record)
  | commit (id : Nat)
  | discard (id : Nat)
  | drop (id : Nat)
  | pop
  | popBatch (limit : Nat)

inductive RingAnswer where
  | granted (id : Nat)
  | refused
  /-- What is written in a reservation now. -/
  | filled (record : Record)
  | closed
  | notHeld
  | delivered (records : List Record)
deriving DecidableEq

/-- The ring and the reservations granted so far, of which the closed ones are gone. -/
structure RingClient where
  ring : Ring
  held : List (Option Reservation) := []

namespace RingClient

def fill (client : RingClient) (id : Nat) (change : Record → Record) : RingAnswer × RingClient :=
  match client.held[id]?.join with
  | some slot =>
      let ring := client.ring.fill slot change
      (.filled (ring.peek slot), { client with ring })
  | none => (.notHeld, client)

def close (client : RingClient) (id : Nat) (publish : Ring → Reservation → Ring) :
    RingAnswer × RingClient :=
  match client.held[id]?.join with
  | some slot => (.closed, { ring := publish client.ring slot, held := client.held.set id none })
  | none => (.notHeld, client)

def step : RingStep → RingClient → RingAnswer × RingClient
  | .reserve, client =>
      match client.ring.reserve with
      | (some slot, ring) =>
          (.granted client.held.length, { ring, held := client.held ++ [some slot] })
      | (none, ring) => (.refused, { client with ring })
  | .fill id change, client => client.fill id change
  | .commit id, client => client.close id Ring.commit
  | .discard id, client | .drop id, client => client.close id Ring.discard
  | .pop, client =>
      let (answer, ring) := client.ring.pop
      (.delivered answer.toList, { client with ring })
  | .popBatch limit, client =>
      let (records, ring) := client.ring.popBatch limit
      (.delivered records, { client with ring })

end RingClient

namespace ReservationQueue

def answer (queue : ReservationQueue) (id : Nat) (reply : Record → RingAnswer) : RingAnswer :=
  match queue.entries[id]? with
  | some ⟨.held, record⟩ => reply record
  | _ => .notHeld

def step : RingStep → ReservationQueue → RingAnswer × ReservationQueue
  | .reserve, queue =>
      (if queue.reserve.1 then .granted queue.entries.length else .refused, queue.reserve.2)
  | .fill id change, queue =>
      (queue.answer id fun record => .filled (change record), queue.fill id change)
  | .commit id, queue => (queue.answer id fun _ => .closed, queue.close id .committed)
  | .discard id, queue | .drop id, queue =>
      (queue.answer id fun _ => .closed, queue.close id .discarded)
  | .pop, queue =>
      let (answer, queue) := queue.pop
      (.delivered answer.toList, queue)
  | .popBatch limit, queue =>
      let (records, queue) := queue.popBatch limit
      (.delivered records, queue)

theorem held_or_closed (queue : ReservationQueue) (id : Nat) :
    (∃ record, queue.entries[id]? = some ⟨.held, record⟩) ∨
      ∀ entry, queue.entries[id]? = some entry → entry.fate ≠ .held := by
  by_cases h : ∀ entry, queue.entries[id]? = some entry → entry.fate ≠ .held
  · exact .inr h
  · simp only [Classical.not_forall, Decidable.not_not] at h
    obtain ⟨⟨fate, record⟩, hentry, rfl⟩ := h
    exact .inl ⟨record, hentry⟩

theorem answer_of_held {queue : ReservationQueue} {id : Nat} {record : Record}
    (h : queue.entries[id]? = some ⟨.held, record⟩) (reply : Record → RingAnswer) :
    queue.answer id reply = reply record := by
  rw [answer, h]

theorem answer_of_closed {queue : ReservationQueue} {id : Nat}
    (h : ∀ entry, queue.entries[id]? = some entry → entry.fate ≠ .held)
    (reply : Record → RingAnswer) : queue.answer id reply = .notHeld := by
  rw [answer]
  split
  · rename_i record hentry
    exact absurd rfl (h _ hentry)
  · rfl

end ReservationQueue

namespace RingClient

def slot (id : Nat) (entry : Entry) : Option Reservation :=
  if entry.fate = .held then some ⟨UInt64.ofNat id⟩ else none

/-- The ring stands for the queue, and the user holds what is held there. -/
structure Matches (client : RingClient) (queue : ReservationQueue) : Prop where
  ring : client.ring.Represents queue
  held : client.held = queue.entries.mapIdx slot

namespace Matches

variable {client : RingClient} {queue : ReservationQueue}

theorem join_held (h : client.Matches queue) (id : Nat) :
    client.held[id]?.join = queue.entries[id]?.bind (slot id) := by
  rw [h.held, List.getElem?_mapIdx]
  cases queue.entries[id]? <;> rfl

theorem join_of_held (h : client.Matches queue) {id : Nat} {record : Record}
    (hheld : queue.entries[id]? = some ⟨.held, record⟩) :
    client.held[id]?.join = some ⟨UInt64.ofNat id⟩ := by
  rw [h.join_held, hheld]
  rfl

theorem join_of_closed (h : client.Matches queue) {id : Nat}
    (hclosed : ∀ entry, queue.entries[id]? = some entry → entry.fate ≠ .held) :
    client.held[id]?.join = none := by
  rw [h.join_held]
  cases hentry : queue.entries[id]? with
  | none => rfl
  | some entry => exact if_neg (hclosed entry hentry)

theorem reserve (h : client.Matches queue) :
    (RingClient.step .reserve client).1 = (ReservationQueue.step .reserve queue).1 ∧
      (RingClient.step .reserve client).2.Matches (ReservationQueue.step .reserve queue).2 := by
  by_cases hroom : queue.waiting.length < queue.capacity
  · obtain ⟨hslot, hnext⟩ := h.ring.reserve_granted hroom
    have hgranted : queue.reserve.1 = true := by rw [ReservationQueue.reserve, if_pos hroom]
    have hentries : queue.reserve.2.entries =
        queue.entries ++ [{ record := queue.leftover queue.entries.length }] := by
      rw [ReservationQueue.reserve, if_pos hroom]
    rw [RingClient.step, ReservationQueue.step]
    rcases hring : client.ring.reserve with ⟨answer, ring⟩
    rw [hring] at hslot hnext
    obtain rfl : answer = some ⟨UInt64.ofNat queue.entries.length⟩ := hslot
    refine ⟨?_, hnext, ?_⟩
    · dsimp only
      rw [h.held, List.length_mapIdx, hgranted, if_pos rfl]
    · show client.held ++ [some _] = queue.reserve.2.entries.mapIdx slot
      rw [hentries, List.mapIdx_concat, h.held]
      rfl
  · obtain ⟨hslot, hnext⟩ := h.ring.reserve_refused hroom
    have hrefused : queue.reserve.1 = false := by rw [ReservationQueue.reserve, if_neg hroom]
    have hentries : queue.reserve.2.entries = queue.entries := by
      rw [ReservationQueue.reserve, if_neg hroom]
    rw [RingClient.step, ReservationQueue.step]
    rcases hring : client.ring.reserve with ⟨answer, ring⟩
    rw [hring] at hslot hnext
    obtain rfl : answer = none := hslot
    refine ⟨?_, hnext, ?_⟩
    · rw [hrefused, if_neg Bool.false_ne_true]
    · rw [hentries]
      exact h.held

theorem fill (h : client.Matches queue) (id : Nat) (change : Record → Record) :
    (client.fill id change).1 = queue.answer id (fun record => .filled (change record)) ∧
      (client.fill id change).2.Matches (queue.fill id change) := by
  rcases queue.held_or_closed id with ⟨record, hheld⟩ | hclosed
  · have hnext := h.ring.fill hheld change
    have hnow : (queue.fill id change).entries[id]? = some ⟨.held, change record⟩ := by
      rw [ReservationQueue.fill, ReservationQueue.getElem?_update, hheld]
      simp
    rw [RingClient.fill, h.join_of_held hheld, ReservationQueue.answer_of_held hheld]
    refine ⟨congrArg RingAnswer.filled (hnext.peek hnow), hnext, ?_⟩
    show client.held = (queue.fill id change).entries.mapIdx slot
    refine List.ext_getElem? fun position => ?_
    rw [h.held, List.getElem?_mapIdx, List.getElem?_mapIdx, ReservationQueue.fill,
      ReservationQueue.getElem?_update, Option.map_map]
    refine congrArg (Option.map · _) (funext fun entry => ?_)
    by_cases hboth : id = position ∧ entry.fate = .held <;> simp [slot, hboth]
  · rw [RingClient.fill, h.join_of_closed hclosed, ReservationQueue.answer_of_closed hclosed,
      ReservationQueue.fill, ReservationQueue.update_of_closed hclosed]
    exact ⟨rfl, h⟩

theorem close (h : client.Matches queue) (id : Nat) {fate : Fate} (hfate : fate ≠ .held)
    {publish : Ring → Reservation → Ring}
    (hpublish : ∀ record, queue.entries[id]? = some ⟨.held, record⟩ →
      (publish client.ring ⟨UInt64.ofNat id⟩).Represents (queue.close id fate)) :
    (client.close id publish).1 = queue.answer id (fun _ => .closed) ∧
      (client.close id publish).2.Matches (queue.close id fate) := by
  rcases queue.held_or_closed id with ⟨record, hheld⟩ | hclosed
  · rw [RingClient.close, h.join_of_held hheld, ReservationQueue.answer_of_held hheld]
    refine ⟨rfl, hpublish record hheld, ?_⟩
    show client.held.set id none = (queue.close id fate).entries.mapIdx slot
    refine List.ext_getElem? fun position => ?_
    rw [h.held, List.getElem?_set, List.length_mapIdx, List.getElem?_mapIdx, List.getElem?_mapIdx,
      ReservationQueue.close, ReservationQueue.getElem?_update]
    by_cases hid : id = position
    · subst hid
      obtain ⟨hlt, -⟩ := List.getElem?_eq_some_iff.1 hheld
      rw [if_pos rfl, if_pos hlt, hheld]
      simp [slot, hfate]
    · rw [if_neg hid]
      simp [hid]
  · rw [RingClient.close, h.join_of_closed hclosed, ReservationQueue.answer_of_closed hclosed,
      ReservationQueue.close, ReservationQueue.update_of_closed hclosed]
    exact ⟨rfl, h⟩

end Matches

end RingClient

end DentryWatch
