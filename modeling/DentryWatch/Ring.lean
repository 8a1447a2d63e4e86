import DentryWatch.Record.Wire
import DentryWatch.Sizing

/-!
# The trace ring

A bounded queue of reservations. A reservation takes the cell at the head; it is
filled in place and then published, either as a record or as a hole that the
reader skips. The reader takes published cells at the tail, in order. When the
cell at the head is still in use, the reservation fails and is counted.

Positions are 64-bit words that wrap. A cell's turn equals its position while it
is free for that position and the position plus one once it is published. A cell
keeps its record until the next lap overwrites it.
-/

namespace DentryWatch

structure RingCell where
  /-- Whose turn the cell awaits. -/
  turn : UInt64
  /-- Whether the publication is a hole. -/
  hole : Bool := false
  /-- The record last written here. -/
  record : Record := {}
deriving Inhabited

structure RingStats where
  /-- Records published. -/
  pushes : UInt64 := 0
  /-- Records delivered. -/
  pops : UInt64 := 0
  /-- Reservations refused. -/
  drops : UInt64 := 0
  /-- The largest depth right after a reservation. -/
  maxDepth : UInt64 := 0
deriving DecidableEq, Repr, Inhabited

/-- A bounded queue of reservations. -/
structure Ring where
  cells : Array RingCell
  /-- The position of the next reservation. -/
  head : UInt64 := 0
  /-- The position of the next delivery. -/
  tail : UInt64 := 0
  /-- The pressure counters. -/
  stats : RingStats := {}
  /-- Whether the one reader was handed out. -/
  readerTaken : Bool := false

structure Reservation where
  position : UInt64
deriving DecidableEq, Repr

namespace Ring

/-- How many cells a ring for that many records gets: a power of two, at least two. -/
def cellCount (records : Nat) : Nat := ceilPow2 (max records 2)

/-- The largest power of two of records that fits into that many bytes, at least two. -/
def recordsForBytes (bytes : Nat) : Nat := 1 <<< Nat.log2 (max (bytes / recordSize) 2)

def ofCapacity (records : Nat) : Ring where
  cells := Array.ofFn (n := cellCount records) fun i => { turn := UInt64.ofNat i }

/-- How many reservations can be in use at once. -/
def capacity (ring : Ring) : Nat := ring.cells.size

/-- How many positions are reserved and not yet consumed. -/
def depth (ring : Ring) : UInt64 := ring.head - ring.tail

def index (ring : Ring) (position : UInt64) : Nat :=
  (position &&& UInt64.ofNat (ring.capacity - 1)).toNat

def cell (ring : Ring) (position : UInt64) : RingCell :=
  ring.cells.getD (ring.index position) default

def modifyCell (ring : Ring) (position : UInt64) (change : RingCell → RingCell) : Ring :=
  { ring with cells := ring.cells.modify (ring.index position) change }

/-- How far the turn of a cell is ahead of a position, as a signed word. -/
def lead (ring : Ring) (position : UInt64) : Int64 :=
  (ring.cell position).turn.toInt64 - position.toInt64

/--
Claims the cell at the head, if it is free. A cell that is behind still belongs
to the lap before, and the ring is full. A cell that is ahead was claimed while
the head was read; among calls made one after another there is none.
-/
def reserve (ring : Ring) : Option Reservation × Ring :=
  let position := ring.head
  if ring.lead position = 0 then
    let depth := position - ring.tail + 1
    (some ⟨position⟩,
      { ring with
        head := position + 1
        stats := { ring.stats with maxDepth := max ring.stats.maxDepth depth } })
  else if ring.lead position < 0 then
    (none, { ring with stats := { ring.stats with drops := ring.stats.drops + 1 } })
  else (none, ring)

/-- What the cell of a reservation holds: the last fill, or the record of the previous lap. -/
def peek (ring : Ring) (slot : Reservation) : Record := (ring.cell slot.position).record

def fill (ring : Ring) (slot : Reservation) (change : Record → Record) : Ring :=
  ring.modifyCell slot.position fun cell => { cell with record := change cell.record }

/-- Hands the cell of a reservation to the reader. -/
def publish (ring : Ring) (slot : Reservation) (hole : Bool) : Ring :=
  ring.modifyCell slot.position fun cell => { cell with hole, turn := slot.position + 1 }

def commit (ring : Ring) (slot : Reservation) : Ring :=
  let ring := ring.publish slot false
  { ring with stats := { ring.stats with pushes := ring.stats.pushes + 1 } }

/-- Gives a reservation up, on purpose or by dropping it, leaving a hole. -/
def discard (ring : Ring) (slot : Reservation) : Ring := ring.publish slot true

/-- Puts a record into the ring. False when it was refused. -/
def emit (ring : Ring) (record : Record) : Bool × Ring :=
  match ring.reserve with
  | (some slot, ring) => (true, (ring.fill slot fun _ => record).commit slot)
  | (none, ring) => (false, ring)

def isReady (ring : Ring) : Bool := (ring.cell ring.tail).turn == ring.tail + 1

/-- Frees the cell at the tail for the next lap. -/
def release (ring : Ring) : Ring :=
  let position := ring.tail
  let turn := position + UInt64.ofNat ring.capacity
  { ring.modifyCell position ({ · with turn }) with tail := position + 1 }

/--
Delivers the oldest published record, skipping holes. A hole skipped frees its
cell, so no more steps are needed than there are cells.
-/
def popWithin : Nat → Ring → Option Record × Ring
  | 0, ring => (none, ring)
  | steps + 1, ring =>
      if ring.isReady then
        let cell := ring.cell ring.tail
        let ring := ring.release
        if cell.hole then popWithin steps ring
        else
          (some cell.record,
            { ring with stats := { ring.stats with pops := ring.stats.pops + 1 } })
      else (none, ring)

/-- Delivers the oldest published record, or nothing if the oldest reservation is open. -/
def pop (ring : Ring) : Option Record × Ring := ring.popWithin (ring.capacity + 1)

def popBatch : Nat → Ring → List Record × Ring
  | 0, ring => ([], ring)
  | limit + 1, ring =>
      match ring.pop with
      | (some record, ring) =>
          let (records, ring) := popBatch limit ring
          (record :: records, ring)
      | (none, ring) => ([], ring)

/-- Hands out the one reader. False when it was handed out before. -/
def takeReader (ring : Ring) : Bool × Ring :=
  (!ring.readerTaken, { ring with readerTaken := true })

@[simp] theorem capacity_ofCapacity (records : Nat) :
    (ofCapacity records).capacity = cellCount records := by
  simp [ofCapacity, capacity]

end Ring

end DentryWatch
