import DentryWatch.GroupTable
import DentryWatch.Lineage
import DentryWatch.Ring

/-!
# The collector

The collector owns the counters, the trace gate and the trace ring of one
attachment. Hooks count every event; while the gate is open, an allocation is
also traced with the names of its ancestors. What does not fit is counted as
lost and nothing else: an allocation that the table refuses is still traced.
-/

namespace DentryWatch

structure CollectorOptions where
  /-- How many groups are counted. -/
  tableCapacity : Nat := GroupTable.defaultCapacity
  ringRecords : Nat := Ring.recordsForBytes 1048576
  /-- Whether tracing starts on. -/
  tracing : Bool := false
deriving DecidableEq, Repr

structure Drops where
  /-- Events the table refused. -/
  tableExhausted : UInt64 := 0
  /-- Allocations the ring refused. -/
  ringFull : UInt64 := 0
deriving DecidableEq, Repr, Inhabited

def Drops.note (drops : Drops) : Loss → Drops
  | .tableExhausted => { drops with tableExhausted := drops.tableExhausted + 1 }
  | .ringFull => { drops with ringFull := drops.ringFull + 1 }

/-- Counters, trace gate and trace ring of one attachment. -/
structure Collector where
  /-- The counters per group. -/
  table : GroupTable
  ring : Ring
  /-- Whether allocations are traced. -/
  tracing : Bool
  /-- Reclaim passes seen. -/
  reclaims : UInt64 := 0
  /-- Events lost. -/
  drops : Drops := {}

namespace Collector

def ofOptions (options : CollectorOptions) : Collector where
  table := GroupTable.ofCapacity options.tableCapacity
  ring := Ring.ofCapacity options.ringRecords
  tracing := options.tracing

/-- A fresh collector, unless its table is too large. -/
def ofOptions? (options : CollectorOptions) : Option Collector :=
  (GroupTable.ofCapacity? options.tableCapacity).map fun table =>
    { table, ring := Ring.ofCapacity options.ringRecords, tracing := options.tracing }

def count (collector : Collector) (group : GroupId) (op : Operation) : Collector :=
  match collector.table.tally group op with
  | (.ok (), table) => { collector with table }
  | (.error loss, table) => { collector with table, drops := collector.drops.note loss }

/-- The record of an allocation, written over what its cell held. -/
def traced (now : UInt64) (group : GroupId) (walk : Walk) (before : Record) : Record where
  timestamp := now
  group := group
  operation := .alloc
  depth := walk.depth
  slots := walk.writeInto before.slots

def trace (collector : Collector) (now : UInt64) (group : GroupId) (walk : Walk) : Collector :=
  match collector.ring.reserve with
  | (some slot, ring) =>
      { collector with ring := (ring.fill slot (traced now group walk)).commit slot }
  | (none, ring) => { collector with ring, drops := collector.drops.note .ringFull }

section Hooks

variable {ν : Type} [DecidableEq ν]

/-- An entry with this name is allocated below `parent`. -/
def onAlloc (collector : Collector) (now : UInt64) (lineage : Lineage ν) (group : GroupId)
    (name : Bytes) (parent : Option ν) : Collector :=
  let counted := collector.count group .alloc
  if counted.tracing then counted.trace now group (lineage.walk name parent) else counted

/-- An entry was bound to an inode, or left without one. -/
def onInstantiate (collector : Collector) (group : GroupId) (positive : Bool) : Collector :=
  collector.count group (if positive then .positive else .negative)

def onPositive (collector : Collector) (group : GroupId) : Collector :=
  collector.onInstantiate group true

def onNegative (collector : Collector) (group : GroupId) : Collector :=
  collector.onInstantiate group false

def onReclaim (collector : Collector) : Collector :=
  { collector with reclaims := collector.reclaims + 1 }

end Hooks

/-- Opens or closes the trace gate. The first component is the setting before. -/
def setTracing (collector : Collector) (enabled : Bool) : Bool × Collector :=
  (collector.tracing, { collector with tracing := enabled })

def traceState (collector : Collector) : String :=
  if collector.tracing then "enabled" else "disabled"

/-- The admitted groups with their counters, in table order. -/
def groups (collector : Collector) : List (GroupId × Counts) := collector.table.toList

def takeReader (collector : Collector) : Bool × Collector :=
  let (granted, ring) := collector.ring.takeReader
  (granted, { collector with ring })

def pop (collector : Collector) : Option Record × Collector :=
  let (record, ring) := collector.ring.pop
  (record, { collector with ring })

end Collector

end DentryWatch
