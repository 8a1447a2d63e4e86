import DentryWatch.Proofs.Ring.Conservation

/-!
# What the counters of a ring tell

The counters are words that wrap, the depth is a difference of positions, and
reading passes over holes. After any run they still tell exactly what happened:
how many commits, deliveries and refusals the log has, how many reservations are
open, waiting or given up, and how deep the ring ever was.
-/

namespace DentryWatch

open ReservationQueue

theorem length_eq_fates (fates : List Fate) :
    fates.length = fates.count .held + fates.count .committed + fates.count .discarded := by
  induction fates with
  | nil => rfl
  | cons fate rest ih =>
      rw [List.length_cons, ih]
      cases fate <;> simp <;> omega

theorem length_committed (entries : List Entry) :
    (committed entries).length = (entries.map Entry.fate).count .committed := by
  induction entries with
  | nil => rfl
  | cons entry rest ih =>
      obtain ⟨fate, record⟩ := entry
      cases fate <;> simpa [committed] using ih

/-! ## What the cells show -/

namespace Ring

/-- What became of the reservation of a position, as its cell shows. -/
def fateAt (ring : Ring) (position : UInt64) : Fate :=
  if (ring.cell position).turn = position then .held
  else if (ring.cell position).hole then .discarded
  else .committed

/-- What the cells from the tail to the head show. -/
def fates (ring : Ring) : List Fate :=
  (List.range ring.depth.toNat).map fun i => ring.fateAt (ring.tail + UInt64.ofNat i)

theorem Shows.fateAt {ring : Ring} {position : Nat} {entry : Entry}
    (h : Shows position (ring.cell (UInt64.ofNat position)) entry) :
    ring.fateAt (UInt64.ofNat position) = entry.fate := by
  have hne := (word_add_one_ne (UInt64.ofNat position)).symm
  obtain ⟨fate, record⟩ := entry
  cases fate with
  | held => exact if_pos h.2
  | committed =>
      obtain ⟨-, hturn, hhole⟩ := h
      rw [Ring.fateAt, hturn, if_neg hne, hhole]
      rfl
  | discarded =>
      obtain ⟨-, hturn, hhole⟩ := h
      rw [Ring.fateAt, hturn, if_neg hne, hhole]
      rfl

namespace Represents

variable {ring : Ring} {queue : ReservationQueue}

theorem fates_eq (h : ring.Represents queue) :
    ring.fates = queue.waiting.map Entry.fate := by
  refine List.ext_getElem ?_ fun i hi hi' => ?_
  · simp only [fates, List.length_map, List.length_range, h.toNat_depth]
  · rw [List.length_map] at hi'
    have hshows := h.granted (queue.taken + i) queue.waiting[i] (Nat.le_add_right ..)
      (by rw [← List.getElem?_drop]; exact List.getElem?_eq_getElem hi')
    have hposition : ring.tail + UInt64.ofNat i = UInt64.ofNat (queue.taken + i) := by
      rw [h.tail, UInt64.ofNat_add]
    simp only [fates, List.getElem_map, List.getElem_range, hposition]
    exact hshows.fateAt

end Represents

end Ring

/-! ## What reading and discarding count -/

/-- The counters after that many deliveries. -/
def RingStats.deliver (stats : RingStats) (count : Nat) : RingStats :=
  { stats with pops := stats.pops + UInt64.ofNat count }

theorem RingStats.deliver_zero (stats : RingStats) : stats.deliver 0 = stats := by
  simp [deliver]

theorem RingStats.deliver_deliver (stats : RingStats) (first second : Nat) :
    (stats.deliver first).deliver second = stats.deliver (first + second) := by
  simp [deliver, UInt64.ofNat_add, UInt64.add_assoc]

namespace Ring

/-- Holes that are passed over are not counted. -/
theorem stats_popWithin (ring : Ring) (steps : Nat) :
    (ring.popWithin steps).2.stats =
      ring.stats.deliver (ring.popWithin steps).1.toList.length := by
  induction steps generalizing ring with
  | zero => exact ring.stats.deliver_zero.symm
  | succ steps ih =>
      unfold popWithin
      split
      · dsimp only
        split
        · exact ih ring.release
        · rfl
      · exact ring.stats.deliver_zero.symm

theorem stats_popBatch (ring : Ring) (limit : Nat) :
    (ring.popBatch limit).2.stats = ring.stats.deliver (ring.popBatch limit).1.length := by
  induction limit generalizing ring with
  | zero => exact ring.stats.deliver_zero.symm
  | succ limit ih =>
      have hfirst : ring.pop.2.stats = ring.stats.deliver ring.pop.1.toList.length :=
        ring.stats_popWithin _
      rw [popBatch]
      rcases hpop : ring.pop with ⟨answer, next⟩
      rw [hpop] at hfirst
      cases answer with
      | none => exact hfirst
      | some record =>
          show (next.popBatch limit).2.stats = ring.stats.deliver ((next.popBatch limit).1.length + 1)
          rw [ih, hfirst, RingStats.deliver_deliver, Nat.add_comm]
          rfl

end Ring

namespace RingClient

def openCount (client : RingClient) : Nat := client.held.countP Option.isSome

theorem stats_of_reads (client : RingClient) {action : RingStep} (h : action.reads = true) :
    (client.step action).2.ring.stats =
      client.ring.stats.deliver (client.step action).1.records.length := by
  cases action with
  | pop => exact client.ring.stats_popWithin (client.ring.capacity + 1)
  | popBatch limit => exact client.ring.stats_popBatch limit
  | reserve | fill | commit | discard | drop => cases h

theorem stats_discard (client : RingClient) (id : Nat) :
    (client.step (.discard id)).2.ring.stats = client.ring.stats := by
  rw [step, close]
  split <;> rfl

namespace Matches

variable {client : RingClient} {queue : ReservationQueue}

theorem openCount_eq (h : client.Matches queue) :
    client.openCount = client.ring.fates.count .held := by
  have hslots : ∀ entries : List Entry, (entries.mapIdx slot).countP Option.isSome =
      (entries.map Entry.fate).count .held := by
    intro entries
    induction entries using List.reverseRecOn with
    | nil => rfl
    | append_singleton entries entry ih =>
        rw [List.mapIdx_concat, List.countP_append, ih, List.map_append, List.count_append]
        obtain ⟨fate, record⟩ := entry
        cases fate <;> rfl
  -- what is consumed was closed before, so only what waits can be open
  have hconsumed : ((queue.entries.take queue.taken).map Entry.fate).count .held = 0 := by
    refine List.count_eq_zero.2 fun hmem => ?_
    obtain ⟨entry, hentry, hfate⟩ := List.mem_map.1 hmem
    obtain ⟨id, hid⟩ := List.mem_iff_getElem?.1 hentry
    rw [List.getElem?_take] at hid
    split at hid
    · next hlt => exact h.ring.consumed id hlt entry hid hfate
    · cases hid
  rw [openCount, h.held, hslots, h.ring.fates_eq]
  conv_lhs => rw [← List.take_append_drop queue.taken queue.entries]
  rw [List.map_append, List.count_append, hconsumed, Nat.zero_add]
  rfl

end Matches

theorem matches_ofCapacity {records : Nat} (hrecords : records ≤ 2 ^ 63) :
    ({ ring := Ring.ofCapacity records } : RingClient).Matches
      { capacity := (Ring.ofCapacity records).capacity } := by
  refine ⟨?_, rfl⟩
  rw [Ring.capacity_ofCapacity]
  exact Ring.represents_ofCapacity hrecords

end RingClient

/-! ## The counters after a run -/

namespace SharedRing

/-- The counters and the depth tell what the log of a run and the cells show. -/
structure Conserves (shared : SharedRing) (log : List Moment) : Prop where
  pushes : shared.client.ring.stats.pushes = UInt64.ofNat (log.countP Moment.commits)
  pops : shared.client.ring.stats.pops = UInt64.ofNat (log.flatMap Moment.records).length
  drops : shared.client.ring.stats.drops = UInt64.ofNat (log.countP Moment.refuses)
  /-- What was committed is delivered or still waits. -/
  commits : log.countP Moment.commits =
    (log.flatMap Moment.records).length + shared.client.ring.fates.count .committed
  /-- Words that wrapped still differ by what waits. -/
  backlog : (shared.client.ring.stats.pushes - shared.client.ring.stats.pops).toNat =
    shared.client.ring.fates.count .committed
  /-- What is in use is open, or waits, or was given up and is not passed over yet. -/
  depth : shared.client.ring.depth.toNat =
    shared.client.openCount + shared.client.ring.fates.count .committed +
      shared.client.ring.fates.count .discarded
  depth_le : shared.client.ring.depth.toNat ≤ shared.client.ring.capacity
  maxDepth : shared.client.ring.stats.maxDepth.toNat = deepestOf (log.filterMap Moment.grantDepth?)
  maxDepth_le : shared.client.ring.stats.maxDepth.toNat ≤ shared.client.ring.capacity

theorem conserves {shared : SharedRing} {queue : ReservationQueue} {log : List Moment}
    (h : shared.client.Matches queue) (hlog : queue.Tallied log) : shared.Conserves log := by
  have hstats := h.ring.stats
  have hcapacity : shared.client.ring.capacity = queue.capacity := h.ring.sized.1
  have hlt := h.ring.capacity_lt
  have hdepth : shared.client.ring.depth.toNat = shared.client.ring.fates.length := by
    rw [h.ring.toNat_depth, h.ring.fates_eq, List.length_map]
  have hdepth_le : shared.client.ring.depth.toNat ≤ shared.client.ring.capacity :=
    h.ring.toNat_depth ▸ h.ring.waiting_le
  have hfates := length_eq_fates shared.client.ring.fates
  have hcommits : log.countP Moment.commits =
      (log.flatMap Moment.records).length + shared.client.ring.fates.count .committed := by
    rw [← hlog.commits, ← hlog.output, h.ring.fates_eq, ← length_committed, ← List.length_append]
    refine congrArg List.length ?_
    rw [output, waiting, ← committed_append, List.take_append_drop]
  have hpushes : shared.client.ring.stats.pushes = UInt64.ofNat (log.countP Moment.commits) :=
    (congrArg RingStats.pushes hstats).trans (congrArg UInt64.ofNat hlog.commits)
  have hpops : shared.client.ring.stats.pops = UInt64.ofNat (log.flatMap Moment.records).length :=
    (congrArg RingStats.pops hstats).trans
      (congrArg (fun records => UInt64.ofNat (List.length records)) hlog.output)
  have hdeepest : shared.client.ring.stats.maxDepth.toNat = queue.deepest := by
    rw [hstats]
    exact UInt64.toNat_ofNat_of_lt' (Nat.lt_of_le_of_lt h.ring.deepest_le (hcapacity ▸ hlt))
  refine ⟨hpushes, hpops, ?_, hcommits, ?_, ?_, hdepth_le, hdeepest.trans hlog.deepest, ?_⟩
  · exact (congrArg RingStats.drops hstats).trans (congrArg UInt64.ofNat hlog.refused)
  · rw [hpushes, hpops, hcommits, ← UInt64.ofNat_sub (Nat.le_add_right ..), Nat.add_sub_cancel_left]
    exact UInt64.toNat_ofNat_of_lt' (Nat.lt_of_le_of_lt (by omega) hlt)
  · rw [hdepth, hfates, h.openCount_eq]
  · rw [hdeepest, hcapacity]
    exact h.ring.deepest_le

/--
After any run on a fresh ring the counters tell what was logged. The largest
depth never falls, discarded reservations count nowhere, reading counts what it
delivers and nothing for the holes it passes over, and only the first who asks
gets the reader.
-/
theorem runAll_conserves {records : Nat} (hrecords : records ≤ 2 ^ 63)
    (steps : List SharedStep) :
    let start : SharedRing := { client := { ring := Ring.ofCapacity records } }
    let run := runAll observe steps start
    let shared := run.2
    shared.Conserves run.1 ∧
      (∀ later, shared.client.ring.stats.maxDepth ≤
        (runAll observe (steps ++ later) start).2.client.ring.stats.maxDepth) ∧
      (∀ id, (shared.client.step (.discard id)).2.ring.stats = shared.client.ring.stats ∧
        (shared.client.step (.drop id)).2.ring.stats = shared.client.ring.stats) ∧
      (∀ action, action.reads = true → (shared.client.step action).2.ring.stats =
        shared.client.ring.stats.deliver (shared.client.step action).1.records.length) ∧
      ∀ first later, run.1.filterMap Moment.given? = first :: later →
        first = true ∧ true ∉ later := by
  intro start run shared
  have hempty : Tallied { capacity := (Ring.ofCapacity records).capacity } [] :=
    ⟨rfl, rfl, rfl, rfl⟩
  have hlaws : ∀ steps, (runAll observe steps start).2.Conserves (runAll observe steps start).1 := by
    intro steps
    have hstart : start.client.Matches { capacity := (Ring.ofCapacity records).capacity } :=
      RingClient.matches_ofCapacity hrecords
    obtain ⟨last, hlast, hlog⟩ := runAll_tallied steps hstart hempty
    exact conserves hlast hlog
  refine ⟨hlaws steps, fun later => ?_, fun id => ⟨RingClient.stats_discard .., ?_⟩,
    fun action hreads => RingClient.stats_of_reads _ hreads,
    fun first later hgiven => given_runAll steps start hgiven⟩
  · rw [UInt64.le_iff_toNat_le, (hlaws steps).maxDepth, (hlaws (steps ++ later)).maxDepth,
      runAll_append, List.filterMap_append]
    exact deepestOf_le_append ..
  · exact RingClient.stats_discard ..

/-- Two cells, a refusal, a hole that is passed over, and a reader that is not given twice. -/
theorem runAll_conserves_two :
    (2 : Nat) ≤ 2 ^ 63 ∧
      let steps : List SharedStep := [.takeReader, .use .reserve, .use .reserve, .use .reserve,
        .use (.discard 0), .use (.commit 1), .use .pop, .use .reserve, .dropReader, .takeReader,
        .use .pop]
      let run := runAll observe steps { client := { ring := Ring.ofCapacity 2 } }
      run.2.Conserves run.1 ∧ run.2.client.ring.stats = ⟨1, 1, 1, 2⟩ ∧
        run.1.filterMap Moment.given? = [true, false] := by
  refine ⟨by decide, ?_⟩
  intro steps run
  exact ⟨(runAll_conserves (show 2 ≤ 2 ^ 63 by decide) steps).1, by decide +kernel,
    by decide +kernel⟩

end SharedRing

end DentryWatch
