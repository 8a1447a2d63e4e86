import DentryWatch.Disk.Basic
import DentryWatch.Text.Utf8

/-!
# Looking up paths

A path is followed name by name from the root. Links are followed on the way,
and at the end if asked, at most forty in all; `..` leads to the directory that
was entered last. The answer is a location whose parent is a directory; what
stands there, if anything, is for the caller to see. A path with a NUL byte, an
empty one and one of 4096 bytes or more is refused before it is followed.
-/

namespace DentryWatch

abbrev Path := Bytes

namespace Path

def slash : UInt8 := 0x2F

/-- The names a path is made of. Slashes at the end stand as one last empty name. -/
def names (path : Path) : List FileName :=
  let parts := path.splitOn slash
  parts.filter (fun part => !part.isEmpty) ++ if parts.getLast? = some [] then [[]] else []

/--
The parts that tell two paths apart: whether it begins at the root, and its
names. A `.` counts only at the very start, and further slashes not at all.
-/
def parts (path : Path) : Bool × List FileName :=
  let absolute := path.head? = some slash
  let names := (path.splitOn slash).filter fun part => !part.isEmpty
  (absolute,
    match names with
    | [] => []
    | first :: rest =>
        (if absolute && first = [0x2E] then [] else [first]) ++ rest.filter (· ≠ [0x2E]))

def same (path other : Path) : Bool := path.parts == other.parts

/-- Appends a relative path; an absolute one takes its place. -/
def join (path tail : Path) : Path :=
  if tail.head? = some slash then tail
  else if path.isEmpty || path.getLast? = some slash then path ++ tail
  else path ++ slash :: tail

/-- A path without the slashes at its end; that of the root stays. -/
def trimmed (path : Path) : Path :=
  let rest := (path.reverse.dropWhile (· == slash)).reverse
  if rest.isEmpty then path else rest

def isIdle (part : FileName) : Bool := part.isEmpty || part = [0x2E]

/-- The path of the directory that holds what a path names, or nothing at the root. -/
def parent? (path : Path) : Option Path :=
  match (path.splitOn slash).reverse.dropWhile isIdle with
  | [] => none
  | _ :: above =>
      let parts := (above.dropWhile isIdle).reverse
      some (if parts.isEmpty then path.takeWhile (· == slash) else [slash].intercalate parts)

def maxLength : Nat := 4096

/-- Refuses a path that cannot be followed, whatever stands on the disk. -/
def check (path : Path) : Except SystemError Unit :=
  if path.contains 0 then .error .nulInPath
  else if path.isEmpty then .error .noEntry
  else if maxLength ≤ path.length then .error .nameTooLong
  else .ok ()

def ofText (text : String) : Path := Utf8.encode text

def child (path : Path) (name : String) : Path := path.join (ofText name)

def text (path : Path) : String := Utf8.lossy path

end Path

namespace Location

def path (location : Location) : Path :=
  if location.isEmpty then [Path.slash]
  else location.flatMap fun name => Path.slash :: name

end Location

namespace Disk

def maxLinks : Nat := 40

def maxFileName : Nat := 255

/-- What happens at the last name of a path. -/
structure PathEnd where
  /-- Whether a link there is followed. -/
  follows : Bool
  /-- Whether a file may be made there. A slash after its name is refused unseen. -/
  forFile : Bool := false
deriving DecidableEq, Repr

def PathEnd.followed : PathEnd := { follows := true }

def PathEnd.kept : PathEnd := { follows := false }

/-- Follows names from a directory. An empty name, like `.`, stays where it is. -/
def follow (disk : Disk) (atEnd : PathEnd) (links : Nat) (here : Location) :
    List FileName → Except SystemError Location
  | [] => .ok here
  | name :: rest =>
      if Path.isIdle name then disk.follow atEnd links here rest
      else if name = [0x2E, 0x2E] then disk.follow atEnd links here.dropLast rest
      else if atEnd.forFile && rest = [[]] then .error .isDirectory
      else if maxFileName < name.length then .error .nameTooLong
      else
        let next := here ++ [name]
        match disk.find? next with
        | none => if rest.isEmpty then .ok next else .error .noEntry
        | some (.directory _) => disk.follow atEnd links next rest
        | some (.link target) =>
            if rest.isEmpty && !atEnd.follows then .ok next
            else
              match links with
              | 0 => .error .linkLoop
              | links + 1 =>
                  let start := if target.head? = some Path.slash then [] else here
                  if target.isEmpty then .error .noEntry
                  else disk.follow atEnd links start (Path.names target ++ rest)
        | some (.file _) | some .full => if rest.isEmpty then .ok next else .error .notDirectory
termination_by names => (links, names.length)

def locate (disk : Disk) (path : Path) (atEnd : PathEnd) : Except SystemError Location := do
  path.check
  disk.follow atEnd maxLinks [] path.names

def stat (disk : Disk) (path : Path) : Except SystemError (Location × Node) := do
  let location ← disk.locate path .followed
  match disk.find? location with
  | some node => .ok (location, node)
  | none => .error .noEntry

def isDirectory (disk : Disk) (path : Path) : Bool :=
  match disk.stat path with
  | .ok (_, node) => node.isDirectory
  | .error _ => false

def pathExists (disk : Disk) (path : Path) : Bool := (disk.stat path).isOk

/-- What a path leads to, if the path of that without any link is short enough, too. -/
def canonical (disk : Disk) (path : Path) : Except SystemError (Location × Node) := do
  let (location, node) ← disk.stat path
  location.path.check
  .ok (location, node)

def list (disk : Disk) (path : Path) : Except SystemError (List (FileName × Node)) := do
  match ← disk.stat path with
  | (location, .directory _) => .ok (disk.entries location)
  | _ => .error .notDirectory

def inodeOf (disk : Disk) (path : Path) : Except SystemError Nat := do
  match ← disk.stat path with
  | (_, .directory inode) | (_, .file inode) => .ok inode
  | _ => .ok 0

end Disk

end DentryWatch
