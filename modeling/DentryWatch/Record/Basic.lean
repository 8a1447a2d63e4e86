import DentryWatch.Record.Name

/-!
# Trace records

A record describes one directory-entry event: when, for which group, what
happened, and up to eight path components, leaf first. The depth word packs the
number of components with a flag that tells whether the walk reached the root.
-/

namespace DentryWatch

def maxDepth : Nat := 8

/-- An isolation group, by the inode number of its control group. -/
abbrev GroupId := UInt64

inductive Operation where
  /-- It was allocated. -/
  | alloc
  /-- It was bound to an inode. -/
  | positive
  /-- It was left without one. -/
  | negative
deriving DecidableEq, Repr, Inhabited

namespace Operation

def name : Operation → String
  | alloc => "alloc"
  | positive => "positive"
  | negative => "negative"

def code : Operation → UInt32
  | alloc => 0
  | positive => 1
  | negative => 2

def ofCode? (code : UInt32) : Option Operation :=
  if code = 0 then some alloc
  else if code = 1 then some positive
  else if code = 2 then some negative
  else none

@[simp] theorem ofCode?_code (op : Operation) : ofCode? op.code = some op := by
  cases op <;> rfl

theorem code_of_ofCode? {code : UInt32} {op : Operation} (h : ofCode? code = some op) :
    op.code = code := by
  unfold ofCode? at h
  split at h
  · simp_all [Operation.code]; cases h; rfl
  · split at h
    · simp_all [Operation.code]; cases h; rfl
    · split at h
      · simp_all [Operation.code]; cases h; rfl
      · cases h

end Operation

/-- A component count with the root flag, packed into one word. -/
abbrev Depth := UInt32

namespace Depth

/-- The bit that says the walk reached the root. -/
def rootFlag : UInt32 := 0x80000000

def countMask : UInt32 := 0x7FFFFFFF

/-- Packs a component count, cut to eight, with the root flag. -/
def pack (count : Nat) (rootReached : Bool) : Depth :=
  let word := UInt32.ofNat (min count maxDepth)
  if rootReached then word ||| rootFlag else word

/-- The component count, as stored. -/
def count (depth : Depth) : Nat := (depth &&& countMask).toNat

def rootReached (depth : Depth) : Bool := depth &&& rootFlag != 0

theorem count_pack (n : Nat) (root : Bool) : (pack n root).count = min n maxDepth := by
  have hle : min n maxDepth ≤ 8 := Nat.min_le_right ..
  generalize hm : min n maxDepth = m at hle
  rw [pack, hm]
  have : m = 0 ∨ m = 1 ∨ m = 2 ∨ m = 3 ∨ m = 4 ∨ m = 5 ∨ m = 6 ∨ m = 7 ∨ m = 8 := by omega
  rcases this with rfl | rfl | rfl | rfl | rfl | rfl | rfl | rfl | rfl <;> cases root <;> decide

theorem rootReached_pack (n : Nat) (root : Bool) : (pack n root).rootReached = root := by
  have hle : min n maxDepth ≤ 8 := Nat.min_le_right ..
  generalize hm : min n maxDepth = m at hle
  rw [pack, hm]
  have : m = 0 ∨ m = 1 ∨ m = 2 ∨ m = 3 ∨ m = 4 ∨ m = 5 ∨ m = 6 ∨ m = 7 ∨ m = 8 := by omega
  rcases this with rfl | rfl | rfl | rfl | rfl | rfl | rfl | rfl | rfl <;> cases root <;> decide

end Depth

/-- One traced event. -/
structure Record where
  /-- Monotonic time in nanoseconds. -/
  timestamp : UInt64 := 0
  /-- The group the event is charged to. -/
  group : GroupId := 0
  /-- What happened. -/
  operation : Operation := .alloc
  /-- The packed component count and root flag. -/
  depth : Depth := 0
  /-- The path components, leaf first. -/
  slots : Vector NameSlot maxDepth := Vector.replicate maxDepth NameSlot.empty
deriving DecidableEq

namespace Record

def zero : Record := {}

instance : Inhabited Record := ⟨zero⟩

def count (record : Record) : Nat := record.depth.count

def rootReached (record : Record) : Bool := record.depth.rootReached

def components (record : Record) : List Bytes :=
  (record.slots.toList.take record.count).map NameSlot.name

end Record

end DentryWatch
