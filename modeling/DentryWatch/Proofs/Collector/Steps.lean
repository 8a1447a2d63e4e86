import DentryWatch.Collector
import DentryWatch.Proofs.GroupTable.Preservation
import DentryWatch.Proofs.GroupTable.Totals
import DentryWatch.Proofs.Ring.Feeding
import DentryWatch.Proofs.Runs

/-!
# What the hooks of a collector do

A hook counts its operation in the table or as lost. A traced allocation is then
written into the ring or counted as lost there too. Since the record is
overwritten as a whole, nothing of the one that used the cell before is left.
-/

namespace DentryWatch

/-- A call on a collector or on its reader. -/
inductive CollectorStep : Type 1 where
  | alloc {ν : Type} [DecidableEq ν] (now : UInt64) (lineage : Lineage ν) (group : GroupId)
      (name : Bytes) (parent : Option ν)
  | instantiate (group : GroupId) (positive : Bool)
  | positive (group : GroupId)
  | negative (group : GroupId)
  | reclaim
  | setTracing (enabled : Bool)
  | takeReader
  | pop
  | popBatch (limit : Nat)

namespace CollectorStep

def counts : CollectorStep → Bool
  | @alloc .. | .instantiate .. | .positive _ | .negative _ => true
  | _ => false

def isAlloc : CollectorStep → Bool
  | @alloc .. => true
  | _ => false

def isReclaim : CollectorStep → Bool
  | .reclaim => true
  | _ => false

/-- The trace gate after the call. -/
def gate (before : Bool) : CollectorStep → Bool
  | .setTracing enabled => enabled
  | _ => before

/-- The record of an allocation, as if the cell had been blank. -/
def records : CollectorStep → List Record
  | @alloc _ _ now lineage group name parent =>
      [Collector.traced now group (lineage.walk name parent) .zero]
  | _ => []

end CollectorStep

namespace Collector

/-- What the call delivers, and the collector after it. -/
def step : CollectorStep → Collector → List Record × Collector
  | @CollectorStep.alloc _ _ now lineage group name parent, collector =>
      ([], collector.onAlloc now lineage group name parent)
  | .instantiate group positive, collector => ([], collector.onInstantiate group positive)
  | .positive group, collector => ([], collector.onPositive group)
  | .negative group, collector => ([], collector.onNegative group)
  | .reclaim, collector => ([], collector.onReclaim)
  | .setTracing enabled, collector => ([], (collector.setTracing enabled).2)
  | .takeReader, collector => ([], collector.takeReader.2)
  | .pop, collector =>
      let (record, collector) := collector.pop
      (record.toList, collector)
  | .popBatch limit, collector =>
      let (records, ring) := collector.ring.popBatch limit
      (records, { collector with ring })

/-! ## Records -/

/-- A traced record does not depend on what its cell held. -/
theorem traced_eq (now : UInt64) (group : GroupId) (walk : Walk) (before : Record) :
    traced now group walk before = traced now group walk .zero := by
  have hslots : walk.writeInto before.slots = walk.writeInto Record.zero.slots := by
    apply Vector.ext
    intro i hi
    rw [walk.getElem_writeInto, walk.getElem_writeInto]
  rw [traced, hslots]
  rfl

/-! ## Counting -/

/-- What counting an operation does. -/
structure Counted (before after : Collector) : Prop where
  tidy : after.table.Tidy
  total : after.table.total + after.drops.tableExhausted =
    before.table.total + before.drops.tableExhausted + 1
  ringFull : after.drops.ringFull = before.drops.ringFull
  ring : after.ring = before.ring
  tracing : after.tracing = before.tracing
  reclaims : after.reclaims = before.reclaims

theorem counted {collector : Collector} (h : collector.table.Tidy) (group : GroupId)
    (op : Operation) : collector.Counted (collector.count group op) := by
  have htallied := h.tallied group op
  have htidy := htallied.tidy h
  have htotal := htallied.total h
  rw [count]
  rcases hcall : collector.table.tally group op with ⟨answer, table⟩
  rw [hcall] at htidy htotal
  rcases htotal with ⟨hok, htotal⟩ | ⟨herror, hsame⟩
  · obtain rfl : answer = .ok () := hok
    refine ⟨htidy, ?_, rfl, rfl, rfl, rfl⟩
    show table.total + _ = _
    rw [htotal]
    ac_rfl
  · obtain rfl : answer = .error .tableExhausted := herror
    refine ⟨htidy, ?_, rfl, rfl, rfl, rfl⟩
    show table.total + (collector.drops.tableExhausted + 1) = _
    rw [show table = collector.table from hsame, UInt64.add_assoc]

/-! ## Tracing -/

open ReservationQueue

/-- A traced allocation goes into the ring while there is room. -/
theorem trace_of_room {collector : Collector} {queue : ReservationQueue}
    (h : collector.ring.Represents queue) (hroom : queue.waiting.length < queue.capacity)
    (now : UInt64) (group : GroupId) (walk : Walk) :
    ∃ ring : Ring, collector.trace now group walk = { collector with ring } ∧
      ring.Represents (queue.feed (traced now group walk)) := by
  obtain ⟨slot, hslot, hnext⟩ := h.feed hroom (traced now group walk)
  rw [trace]
  rcases hring : collector.ring.reserve with ⟨answer, ring⟩
  rw [hring] at hslot hnext
  obtain rfl : answer = some slot := hslot
  exact ⟨_, rfl, hnext⟩

/-- Otherwise it is counted as lost. -/
theorem trace_of_full {collector : Collector} {queue : ReservationQueue}
    (h : collector.ring.Represents queue) (hfull : ¬ queue.waiting.length < queue.capacity)
    (now : UInt64) (group : GroupId) (walk : Walk) :
    ∃ ring : Ring, collector.trace now group walk =
        { collector with ring, drops := collector.drops.note .ringFull } ∧
      ring.Represents { queue with refused := queue.refused + 1 } := by
  obtain ⟨hslot, hnext⟩ := h.reserve_refused hfull
  rw [ReservationQueue.reserve, if_neg hfull] at hnext
  rw [trace]
  rcases hring : collector.ring.reserve with ⟨answer, ring⟩
  rw [hring] at hslot hnext
  obtain rfl : answer = none := hslot
  exact ⟨_, rfl, hnext⟩

end Collector

end DentryWatch
