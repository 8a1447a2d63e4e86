import DentryWatch.Record.Basic
import DentryWatch.Sizing

/-!
# Counters per group

A bounded table from groups to counters, sized once. Groups hash to a home slot
and are found by stepping forward from it, with wrap-around; rows are never
removed. A row is keyed first and counts only once it is admitted. Key `0` marks
a free slot, so group `0` has a row of its own beside the slots. Counters wrap.
-/

namespace DentryWatch

inductive Loss where
  /-- The table admits no further group. -/
  | tableExhausted
  /-- The ring has no free cell. -/
  | ringFull
deriving DecidableEq, Repr

def Loss.message : Loss → String
  | tableExhausted => "group stats table exhausted"
  | ringFull => "trace channel full"

structure Counts where
  /-- Allocations. -/
  alloc : UInt64 := 0
  /-- Entries bound to an inode. -/
  positive : UInt64 := 0
  /-- Entries left without one. -/
  negative : UInt64 := 0
deriving DecidableEq, Repr, Inhabited

namespace Counts

def bump (counts : Counts) : Operation → Counts
  | .alloc => { counts with alloc := counts.alloc + 1 }
  | .positive => { counts with positive := counts.positive + 1 }
  | .negative => { counts with negative := counts.negative + 1 }

def of (counts : Counts) : Operation → UInt64
  | .alloc => counts.alloc
  | .positive => counts.positive
  | .negative => counts.negative

end Counts

/-- How far the admission of a row has come. -/
inductive RowStatus where
  /-- Nobody has asked for it. -/
  | pending
  /-- It is taken, and its admission is not decided. -/
  | claimed
  /-- It is admitted: it counts and is reported. -/
  | live
  /-- It was taken when the table had no room left. -/
  | rejected
deriving DecidableEq, Repr

structure GroupRow where
  /-- The group it is keyed to, `0` in a free slot. -/
  group : GroupId := 0
  /-- Whether it is admitted. -/
  status : RowStatus := .pending
  /-- Its counters. -/
  counts : Counts := {}
deriving DecidableEq, Repr, Inhabited

def GroupRow.bump (row : GroupRow) (op : Operation) : GroupRow :=
  { row with counts := row.counts.bump op }

/-- Which row of the table belongs to a group. -/
inductive RowPlace where
  /-- The row of group `0`. -/
  | zero
  | slot (index : UInt64)
deriving DecidableEq, Repr

/-- A bounded table of counters. -/
structure GroupTable where
  /-- How many groups the table admits. -/
  capacity : Nat
  /-- The hash slots. -/
  rows : Array GroupRow
  /-- The bits of a word that choose a slot. -/
  mask : UInt64
  zero : GroupRow := {}
  /-- How many groups are admitted. -/
  live : Nat := 0

namespace GroupTable

def defaultCapacity : Nat := 4096

/--
How many slots a table of this capacity gets: at least twice the capacity, as a
power of two. Doubling stops at the largest word, rounding up may leave the words.
-/
def slotCount (capacity : Nat) : Nat := ceilPow2 (max (min (2 * capacity) (UInt64.size - 1)) 2)

def ofCapacity (capacity : Nat) : GroupTable where
  capacity := capacity
  rows := Array.replicate (slotCount capacity) {}
  mask := UInt64.ofNat (slotCount capacity) - 1

/-- A fresh table. Where the slots are too many for a word there is none, and the program stops. -/
def ofCapacity? (capacity : Nat) : Option GroupTable :=
  if slotCount capacity < UInt64.size then some (ofCapacity capacity) else none

/-- Spreads group numbers, which are often consecutive, over the words. -/
def mix (word : UInt64) : UInt64 :=
  let word := (word ^^^ (word >>> 30)) * 0xbf58476d1ce4e5b9
  let word := (word ^^^ (word >>> 27)) * 0x94d049bb133111eb
  word ^^^ (word >>> 31)

def home (table : GroupTable) (group : GroupId) : UInt64 := mix group &&& table.mask

def next (table : GroupTable) (index : UInt64) : UInt64 := (index + 1) &&& table.mask

def row (table : GroupTable) : RowPlace → GroupRow
  | .zero => table.zero
  | .slot index => table.rows.getD index.toNat {}

/-- The key of a slot, `0` when it is free. -/
def key (table : GroupTable) (index : UInt64) : GroupId := (table.row (.slot index)).group

def modifyRow (table : GroupTable) (place : RowPlace) (change : GroupRow → GroupRow) :
    GroupTable :=
  match place with
  | .zero => { table with zero := change table.zero }
  | .slot index => { table with rows := table.rows.modify index.toNat change }

def grow (table : GroupTable) : GroupTable := { table with live := table.live + 1 }

def isFull (table : GroupTable) : Bool := table.capacity ≤ table.live

/-- Lets a row count if it is admitted. A decision that is still out is not waited for long. -/
def accept (table : GroupTable) (place : RowPlace) : Except Loss RowPlace :=
  match (table.row place).status with
  | .live => .ok place
  | .rejected | .pending | .claimed => .error .tableExhausted

/-- Settles whether a row that was just taken is admitted. -/
def settle (table : GroupTable) (place : RowPlace) : Except Loss RowPlace × GroupTable :=
  if table.live < table.capacity then
    (.ok place, table.grow.modifyRow place ({ · with status := .live }))
  else (.error .tableExhausted, table.modifyRow place ({ · with status := .rejected }))

def zeroRow (table : GroupTable) : Except Loss RowPlace × GroupTable :=
  if table.zero.status ≠ .pending then (table.accept .zero, table)
  else if table.isFull then (.error .tableExhausted, table)
  else (table.modifyRow .zero ({ · with status := .claimed })).settle .zero

/-- The row of a group, searched from a slot on over that many slots, admitted on first sight. -/
def rowFrom (table : GroupTable) (group : GroupId) :
    Nat → UInt64 → Except Loss RowPlace × GroupTable
  | 0, _ => (.error .tableExhausted, table)
  | steps + 1, index =>
      if table.key index = group then (table.accept (.slot index), table)
      else if table.key index = 0 then
        if table.isFull then (.error .tableExhausted, table)
        else (table.modifyRow (.slot index) ({ · with group })).settle (.slot index)
      else table.rowFrom group steps (table.next index)

/-- The row of a group, admitted on first sight. -/
def rowFor (table : GroupTable) (group : GroupId) : Except Loss RowPlace × GroupTable :=
  if group = 0 then table.zeroRow
  else table.rowFrom group table.rows.size (table.home group)

/-- Counts an operation for a group, admitting the group on first sight. -/
def tally (table : GroupTable) (group : GroupId) (op : Operation) :
    Except Loss Unit × GroupTable :=
  match table.rowFor group with
  | (.ok place, table) => (.ok (), table.modifyRow place (·.bump op))
  | (.error loss, table) => (.error loss, table)

def record (table : GroupTable) (group : GroupId) (op : Operation) : Except Loss GroupTable :=
  match table.tally group op with
  | (.ok (), table) => .ok table
  | (.error loss, _) => .error loss

/-- The row of a group, searched from a slot on over that many slots. -/
def findFrom (table : GroupTable) (group : GroupId) : Nat → UInt64 → Option RowPlace
  | 0, _ => none
  | steps + 1, index =>
      if table.key index = group then some (.slot index)
      else if table.key index = 0 then none
      else table.findFrom group steps (table.next index)

def find (table : GroupTable) (group : GroupId) : Option RowPlace :=
  if group = 0 then some .zero
  else table.findFrom group table.rows.size (table.home group)

def get? (table : GroupTable) (group : GroupId) : Option Counts :=
  (table.find group).bind fun place =>
    if (table.row place).status = .live then some (table.row place).counts else none

def allRows (table : GroupTable) : List GroupRow := table.zero :: table.rows.toList

/-- The admitted groups with their counters: group `0` first, then in slot order. -/
def toList (table : GroupTable) : List (GroupId × Counts) :=
  (table.allRows.filter (·.status = .live)).map fun row => (row.group, row.counts)

@[simp] theorem rows_size_ofCapacity (capacity : Nat) :
    (ofCapacity capacity).rows.size = slotCount capacity := by
  simp [ofCapacity]

end GroupTable

end DentryWatch
