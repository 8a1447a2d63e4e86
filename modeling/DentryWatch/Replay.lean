import DentryWatch.Disk.Lookup
import DentryWatch.Session

/-!
# Replaying a directory tree

A replay walks a tree once and fires the hooks of every entry as if it had just
been looked up: an allocation under the entry's directory, bound to an inode.
Asked to, it also looks up one name per directory that is missing there. A
directory comes right before what it holds, siblings in the order of their names,
and links are not followed; what a directory too deep to be read holds is skipped.
At the end the tree leaves the cache in one go.
-/

namespace DentryWatch

structure ReplayCounts where
  /-- Entries below the root. -/
  entries : Nat := 0
  /-- Directories, with the root. -/
  dirs : Nat := 0
  /-- Missing names looked up. -/
  missing : Nat := 0
  /-- Entries that could not be visited. -/
  skipped : Nat := 0
deriving DecidableEq, Repr

inductive ReplayFailure where
  /-- The source holds no collector. -/
  | notAttached
  /-- The root leads nowhere. -/
  | unresolved (root : Path) (cause : SystemError)
deriving DecidableEq, Repr

def ReplayFailure.chain : ReplayFailure → List String
  | notAttached => ["replay source is not attached"]
  | unresolved root cause => [s!"cannot resolve {root.text}", cause.message]

/-- A directory tree as a source of hook calls. -/
structure ReplaySource where
  /-- The directory the tree hangs from. -/
  root : Path
  group : GroupId
  /-- Whether a missing name is looked up in each directory. -/
  probes : Bool := false
  /-- Whether a collector is attached. -/
  attached : Bool := false
deriving DecidableEq, Repr

/-- Whether the entries of a directory can be read: its path has to be short enough. -/
def Location.isReadable (location : Location) : Bool := location.path.length < Path.maxLength

/-- The locations of a disk as nodes of a tree; the root is its own parent. -/
def Location.lineage : Lineage Location where
  name location := location.getLast?.getD [Path.slash]
  parent location := some location.dropLast

/-- What a replay carries from one entry to the next. -/
structure ReplayState where
  counts : ReplayCounts := {}
  /-- The directories met so far: where each stands, and its node in the lineage. -/
  dirs : List (Location × Location)
  collector : Collector

namespace ReplaySource

def name : String := "replay"

def missingName : FileName := Path.ofText ".dcache-missing"

/-- Takes the collector, if it holds none and the root is a directory. -/
def attach (disk : Disk) (source : ReplaySource) : Except AttachError Unit × ReplaySource :=
  if source.attached then (.error (.alreadyAttached name), source)
  else if disk.isDirectory source.root then (.ok (), { source with attached := true })
  else (.error (.source name s!"{source.root.text} is not a directory"), source)

def detach (source : ReplaySource) : ReplaySource := { source with attached := false }

def events (disk : Disk) : EventSource ReplaySource := .quiet (attach disk) detach

def entryHooks (source : ReplaySource) (now : UInt64) (entry : Location) (collector : Collector) :
    Collector :=
  (collector.onAlloc now Location.lineage source.group (entry.getLast?.getD [])
    (some entry.dropLast)).onPositive source.group

def probeHooks (source : ReplaySource) (now : UInt64) (dir : Location) (collector : Collector) :
    Collector :=
  (collector.onAlloc now Location.lineage source.group missingName (some dir)).onNegative
    source.group

/-- Counts a directory, by itself and if it cannot be read, and looks up its missing name. -/
def enter (source : ReplaySource) (now : UInt64) (state : ReplayState) (location : Location)
    (node : Node) : ReplayState :=
  if !node.isDirectory then state
  else
    let unread := if location.isReadable then 0 else 1
    let counts :=
      { state.counts with
        dirs := state.counts.dirs + 1, skipped := state.counts.skipped + unread }
    match if source.probes then state.dirs.lookup location else none with
    | none => { state with counts }
    | some dir =>
        { state with
          counts := { counts with missing := counts.missing + 1 }
          collector := source.probeHooks now dir state.collector }

/-- Visits one entry below the root, or skips it if its directory was not met before. -/
def visit (source : ReplaySource) (now : UInt64) (state : ReplayState)
    (entry : Location × Node) : ReplayState :=
  let (location, node) := entry
  match state.dirs.lookup location.dropLast with
  | none => { state with counts := { state.counts with skipped := state.counts.skipped + 1 } }
  | some parent =>
      let child := parent ++ [location.getLast?.getD []]
      source.enter now
        { counts := { state.counts with entries := state.counts.entries + 1 }
          dirs := if node.isDirectory then (location, child) :: state.dirs else state.dirs
          collector := source.entryHooks now child state.collector }
        location node

def tree (disk : Disk) (root : Location) : List (Location × Node) :=
  (disk.below root).filter fun entry => Location.isReadable entry.1.dropLast

def replay (source : ReplaySource) (disk : Disk) (now : UInt64) (collector : Collector) :
    Except ReplayFailure (ReplayCounts × Collector) :=
  if !source.attached then .error .notAttached
  else
    match disk.canonical source.root with
    | .error cause => .error (.unresolved source.root cause)
    | .ok (root, node) =>
        let start := source.enter now { dirs := [(root, root)], collector } root node
        let last := (tree disk root).foldl (source.visit now) start
        .ok (last.counts, last.collector.onReclaim)

end ReplaySource

end DentryWatch
