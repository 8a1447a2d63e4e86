import DentryWatch.Cgroup.Pod
import DentryWatch.Disk.Files
import DentryWatch.ExportFailure
import DentryWatch.Text.Numeral

/-!
# Resolving groups to pods

A group is the inode number of its control-group directory. The resolver scans
the processes of the system for pods and keeps the map it found last. A process
that cannot be read or is in no pod is passed over; a system that cannot be
listed leaves the map as it was.
-/

namespace DentryWatch

namespace Cgroup

def inode (disk : Disk) (cgroupRoot : Path) (path : List Char) : Except ExportFailure GroupId :=
  let below := Utf8.encodeChars (path.dropWhile (· = '/'))
  match disk.inodeOf (cgroupRoot.join below) with
  | .ok inode => .ok (UInt64.ofNat inode)
  | .error code => .error (.system code)

def currentGroup (disk : Disk) (procRoot cgroupRoot : Path) : Except ExportFailure GroupId :=
  let path := procRoot.child "self/cgroup"
  match disk.readText path with
  | .error cause => .error (.io cause)
  | .ok contents =>
      match unifiedPath? contents.toList with
      | none => .error (.malformed path "no cgroup v2 entry")
      | some cgroup => inode disk cgroupRoot cgroup

/-- The group asked for, or that of the calling process, or `0`. -/
def groupOrCurrent (disk : Disk) (procRoot cgroupRoot : Path) (group : Option GroupId) : GroupId :=
  match group with
  | some group => group
  | none =>
      match currentGroup disk procRoot cgroupRoot with
      | .ok group => group
      | .error _ => 0

end Cgroup

structure Resolver where
  /-- Where the system shows its processes. -/
  procRoot : Path
  /-- The root of the control-group hierarchy. -/
  cgroupRoot : Path
  /-- The pods found last, one for each group. -/
  pods : List (GroupId × PodInfo) := []

namespace Resolver

def isProcess (name : FileName) : Bool :=
  match Utf8.decode? name with
  | none => false
  | some text =>
      match Text.readWord32? text.toList with
      | some pid => pid != 0
      | none => false

def podOfProcess? (resolver : Resolver) (disk : Disk) (name : FileName) : Option PodInfo := do
  let contents ← (disk.readText ((resolver.procRoot.join name).child "cgroup")).toOption
  let path ← Cgroup.unifiedPath? contents.toList
  let pod ← Cgroup.podOfPath? path
  let group ← (Cgroup.inode disk resolver.cgroupRoot path).toOption
  some { pod with group }

def insert (pods : List (GroupId × PodInfo)) (pod : PodInfo) : List (GroupId × PodInfo) :=
  (pod.group, pod) :: pods.filter (·.1 != pod.group)

/-- Scans the processes again. The answer is the number of groups mapped. -/
def refresh (resolver : Resolver) (disk : Disk) : Except ExportFailure Nat × Resolver :=
  match disk.list resolver.procRoot with
  | .error code => (.error (.system code), resolver)
  | .ok entries =>
      let processes := (entries.map Prod.fst).filter isProcess
      let pods := (processes.filterMap (resolver.podOfProcess? disk)).foldl insert []
      (.ok pods.length, { resolver with pods })

def resolve (resolver : Resolver) (group : GroupId) : Option PodInfo := resolver.pods.lookup group

/-- The label of a group that is in no pod. -/
def fallback (group : GroupId) : String := s!"cgroup-{group}"

def labels (resolver : Resolver) (group : GroupId) : String × String :=
  match resolver.resolve group with
  | some info => (info.pod, info.container)
  | none => (fallback group, "")

end Resolver

end DentryWatch
