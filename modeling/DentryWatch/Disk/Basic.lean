import DentryWatch.Bytes
import DentryWatch.Disk.Failure

/-!
# Disks

A disk is a map from locations to nodes, with the contents of its files kept by
inode number: several names may share one file, and an open file stays readable
and writable when its names are gone. A location lists names from the root,
without links, `.` or `..`; in the order of locations a directory comes right
before what it holds.
-/

namespace DentryWatch

abbrev FileName := Bytes

/-- Where a node stands: the names from the root. -/
abbrev Location := List FileName

inductive Node where
  | directory (inode : Nat)
  | file (inode : Nat)
  | link (target : Bytes)
  /-- The device on which every write fails for lack of space. -/
  | full
deriving DecidableEq, Repr

def Node.isDirectory : Node → Bool
  | directory _ => true
  | _ => false

structure Disk where
  nodes : List (Location × Node) := [([], .directory 2)]
  /-- The contents of the regular files by inode number. -/
  contents : List (Nat × Bytes) := []
  nextInode : Nat := 1048576

namespace Disk

def find? (disk : Disk) (location : Location) : Option Node := disk.nodes.lookup location

def put (disk : Disk) (location : Location) (node : Node) : Disk :=
  { disk with nodes := (location, node) :: disk.nodes.filter (·.1 != location) }

def erase (disk : Disk) (location : Location) : Disk :=
  { disk with nodes := disk.nodes.filter (·.1 != location) }

def content (disk : Disk) (inode : Nat) : Bytes := (disk.contents.lookup inode).getD []

def setContent (disk : Disk) (inode : Nat) (bytes : Bytes) : Disk :=
  { disk with contents := (inode, bytes) :: disk.contents.filter (·.1 != inode) }

def extend (disk : Disk) (inode : Nat) (bytes : Bytes) : Disk :=
  disk.setContent inode (disk.content inode ++ bytes)

/-- Puts bytes over those of a file from a position on. -/
def overlay (disk : Disk) (inode position : Nat) (bytes : Bytes) : Disk :=
  disk.setContent inode ((disk.content inode).overlay position bytes)

/-- Puts a new node, which takes the next inode number. -/
def create (disk : Disk) (location : Location) (node : Nat → Node) : Nat × Disk :=
  (disk.nextInode,
    { disk.put location (node disk.nextInode) with nextInode := disk.nextInode + 1 })

def isBelow (top location : Location) : Bool :=
  top.isPrefixOf location && top.length < location.length

/-- The order of names: byte by byte, and a name before its extensions. -/
def nameLE : FileName → FileName → Bool
  | [], _ => true
  | _ :: _, [] => false
  | a :: as, b :: bs => a < b || (a == b && nameLE as bs)

/-- The order of locations: a directory right before what it holds, siblings by name. -/
def locationLE : Location → Location → Bool
  | [], _ => true
  | _ :: _, [] => false
  | a :: as, b :: bs => if a = b then locationLE as bs else nameLE a b

def below (disk : Disk) (top : Location) : List (Location × Node) :=
  (disk.nodes.filter fun entry => isBelow top entry.1).mergeSort
    fun a b => locationLE a.1 b.1

def entries (disk : Disk) (top : Location) : List (FileName × Node) :=
  (disk.below top).filterMap fun entry =>
    match entry.1.drop top.length with
    | [name] => some (name, entry.2)
    | _ => none

def linkCount (disk : Disk) (inode : Nat) : Nat :=
  disk.nodes.countP fun entry => entry.2 == .file inode

/-- Removes what stands at a location with everything below. -/
def prune (disk : Disk) (top : Location) : Disk :=
  { disk with nodes := disk.nodes.filter fun entry => !top.isPrefixOf entry.1 }

/-- Moves what stands at a location, with everything below, to another. -/
def relocate (disk : Disk) (source target : Location) : Disk :=
  let rest := (disk.prune target).nodes
  { disk with
    nodes := rest.map fun entry =>
      match source.isPrefixOf? entry.1 with
      | some tail => (target ++ tail, entry.2)
      | none => entry }

theorem lookup_filter {α β : Type} [BEq α] [LawfulBEq α] (keep : α → Bool) (l : List (α × β))
    (key : α) :
    (l.filter fun entry => keep entry.1).lookup key =
      if keep key then l.lookup key else none := by
  induction l with
  | nil => simp
  | cons entry rest ih =>
      obtain ⟨k, v⟩ := entry
      by_cases hkey : key = k
      · subst hkey
        cases hkeep : keep key <;> simp [hkeep, ih]
      · have hne : (key == k) = false := beq_false_of_ne hkey
        cases hkeep : keep k <;> simp [List.lookup_cons, hkeep, hne, ih]

theorem find?_put (disk : Disk) (location other : Location) (node : Node) :
    (disk.put location node).find? other =
      if other = location then some node else disk.find? other := by
  by_cases h : other = location
  · simp [find?, put, h]
  · simp [find?, put, List.lookup_cons, beq_false_of_ne h, lookup_filter (· != location), h]

theorem find?_create (disk : Disk) (location other : Location) (made : Nat → Node) :
    (disk.create location made).2.find? other =
      if other = location then some (made disk.nextInode) else disk.find? other :=
  disk.find?_put location other (made disk.nextInode)

theorem find?_erase (disk : Disk) (location other : Location) :
    (disk.erase location).find? other = if other = location then none else disk.find? other := by
  by_cases h : other = location <;> simp [find?, erase, lookup_filter (· != location), h]

theorem find?_prune (disk : Disk) (top other : Location) :
    (disk.prune top).find? other =
      if top.isPrefixOf other then none else disk.find? other := by
  cases h : top.isPrefixOf other <;>
    simp [find?, prune, lookup_filter (fun location => !top.isPrefixOf location), h]

theorem content_setContent (disk : Disk) (inode other : Nat) (bytes : Bytes) :
    (disk.setContent inode bytes).content other =
      if other = inode then bytes else disk.content other := by
  by_cases h : other = inode
  · simp [content, setContent, h]
  · simp [content, setContent, List.lookup_cons, beq_false_of_ne h, lookup_filter (· != inode), h]

@[simp] theorem find?_setContent (disk : Disk) (inode : Nat) (bytes : Bytes)
    (location : Location) : (disk.setContent inode bytes).find? location = disk.find? location :=
  rfl

@[simp] theorem content_put (disk : Disk) (location : Location) (node : Node) (inode : Nat) :
    (disk.put location node).content inode = disk.content inode := rfl

end Disk

end DentryWatch
