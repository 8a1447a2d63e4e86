import DentryWatch.Text.Lines
import DentryWatch.Text.Search

/-!
# Control-group paths

A process lists its control groups one a line; the unified hierarchy is on the
line that begins with `0::`. Seen from another namespace the path may climb with
`..` and miss its beginning: it is cleaned so that it never climbs above the
root, and when `kubepods` was lost it is put in front of the service class again.
-/

namespace DentryWatch.Cgroup

/-- Walks one component further; `..` leads back, but never above the root. -/
def step (kept : List (List Char)) (component : List Char) : List (List Char) :=
  if component.isEmpty || component = ['.'] then kept
  else if component = ['.', '.'] then kept.dropLast
  else kept ++ [component]

def cleanParts (path : List Char) : List (List Char) := (path.splitOn '/').foldl step []

def absolute (parts : List (List Char)) : List Char := '/' :: ['/'].intercalate parts

/-- A path without empty, `.` and `..` components. -/
def clean (path : List Char) : List Char := absolute (cleanParts path)

def podMark : List Char := "kubepods".toList

def serviceClasses : List (List Char) :=
  ["/burstable/".toList, "/besteffort/".toList, "/guaranteed/".toList]

/-- Puts the lost beginning in front of the service class of a path. -/
def restore (path : List Char) : List Char :=
  if Text.occursIn podMark path then path
  else
    match serviceClasses.findSome? (Text.fromFirst? · path) with
    | some tail => '/' :: podMark ++ tail
    | none => path

def unifiedPath? (contents : List Char) : Option (List Char) :=
  (Text.linesAfter "0::".toList contents).head?.map fun raw => restore (clean raw)

end DentryWatch.Cgroup
