import DentryWatch.Cgroup.Path
import DentryWatch.Record.Basic

/-!
# Pods by control-group path

The path of a container names its pod and itself. Two layouts are understood:

    /kubepods.slice/kubepods-burstable.slice/kubepods-burstable-pod<uid>.slice/cri-containerd-<id>.scope
    /kubepods/burstable/pod<uid>/<id of 64 hexadecimal digits>

Of several names that look like a pod or a container, the last one counts.
-/

namespace DentryWatch

structure PodInfo where
  pod : String
  container : String
  group : GroupId
deriving DecidableEq, Repr

namespace Cgroup

def shownUidLength : Nat := 12

/-- The shown form of a pod's identifier, with the dashes that were written as underscores. -/
def shortenUid (uid : List Char) : List Char :=
  (uid.map fun c => if c = '_' then '-' else c).take shownUidLength

def withoutSuffix (suffix part : List Char) : List Char :=
  (suffix.isSuffixOf? part).getD part

/-- The identifier of a pod in a component: after `pod` at its start, or else after its last `-pod`. -/
def podUid? (component : List Char) : Option (List Char) :=
  let stem := withoutSuffix ".slice".toList component
  let uid := match "pod".toList.isPrefixOf? stem with
    | some uid => some uid
    | none => Text.afterLast? "-pod".toList stem
  uid.filter fun uid => !uid.isEmpty

def isHexDigit (c : Char) : Bool :=
  c.isDigit || ('a' ≤ c && c ≤ 'f') || ('A' ≤ c && c ≤ 'F')

def containerId? (component : List Char) : Option (List Char) :=
  match "cri-containerd-".toList.isPrefixOf? component with
  | some id => some (withoutSuffix ".scope".toList id)
  | none =>
      if component.length = 64 && component.all isHexDigit then some component else none

def lastSome? {α β : Type} (f : α → Option β) (items : List α) : Option β :=
  (items.filterMap f).getLast?

def podOfPath? (path : List Char) : Option PodInfo :=
  if !Text.occursIn podMark path then none
  else
    let components := path.splitOn '/'
    (lastSome? podUid? components).map fun uid =>
      { pod := String.ofList ("pod-".toList ++ shortenUid uid)
        container := String.ofList ((lastSome? containerId? components).getD [])
        group := 0 }

end Cgroup

end DentryWatch
