import DentryWatch.Disk.Lookup
import DentryWatch.Text.Utf8

/-!
# Operations on files and directories

Every operation looks its path up, then changes one location. A failed operation
changes nothing; only making a directory with its parents may stop on the way.
-/

namespace DentryWatch

/-- An open file: it stays the same file whatever happens to its names. -/
inductive Handle where
  /-- A regular file, written at its end. -/
  | atEnd (inode : Nat)
  /-- A regular file, written from a position of its own on. -/
  | fromPosition (inode position : Nat)
  /-- The device on which every write fails. -/
  | full
deriving DecidableEq, Repr

/-- How a file is opened for writing. A file that is missing is created. -/
inductive OpenMode where
  /-- What is there is kept and written on at its end. -/
  | append
  /-- What is there is cut to nothing. -/
  | truncate
  /-- Nothing may be there, not even a link. -/
  | new
deriving DecidableEq, Repr

def OpenMode.handle (mode : OpenMode) (inode : Nat) : Handle :=
  if mode = .append then .atEnd inode else .fromPosition inode 0

namespace Disk

def openFile (disk : Disk) (path : Path) (mode : OpenMode) : Except SystemError (Handle × Disk) := do
  let location ← disk.locate path { follows := mode != .new, forFile := true }
  match disk.find? location with
  | none =>
      let (inode, disk) := disk.create location .file
      .ok (mode.handle inode, disk)
  | some node =>
      if mode = .new then .error .occupied
      else
        match node with
        | .file inode =>
            .ok (mode.handle inode, if mode = .truncate then disk.setContent inode [] else disk)
        | .full => .ok (.full, disk)
        | .directory _ => .error .isDirectory
        | .link _ => .error .linkLoop

/-- Writes to an open file, whose position moves past the bytes. -/
def write (disk : Disk) (handle : Handle) (bytes : Bytes) : Except SystemError (Handle × Disk) :=
  if bytes.isEmpty then .ok (handle, disk)
  else
    match handle with
    | .atEnd inode => .ok (handle, disk.extend inode bytes)
    | .fromPosition inode position =>
        .ok (.fromPosition inode (position + bytes.length), disk.overlay inode position bytes)
    | .full => .error .noSpace

/-- Forces an open file to the medium, which the device does not support. -/
def sync (handle : Handle) : Except SystemError Unit :=
  match handle with
  | .atEnd _ | .fromPosition _ _ => .ok ()
  | .full => .error .invalid

def size (disk : Disk) (handle : Handle) : Nat :=
  match handle with
  | .atEnd inode | .fromPosition inode _ => (disk.content inode).length
  | .full => 0

def readBytes (disk : Disk) (path : Path) : Except SystemError Bytes := do
  match ← disk.stat path with
  | (_, .file inode) => .ok (disk.content inode)
  | (_, .directory _) => .error .isDirectory
  | _ => .ok []

def readText (disk : Disk) (path : Path) : Except IoFailure String :=
  match disk.readBytes path with
  | .error code => .error (.system code)
  | .ok bytes =>
      match Utf8.decode? bytes with
      | some text => .ok text
      | none => .error .notText

/-- Makes a directory. Slashes at the end of its path do not matter. -/
def makeDirectory (disk : Disk) (path : Path) : Except SystemError Disk := do
  path.check
  let location ← disk.locate path.trimmed .kept
  match disk.find? location with
  | some _ => .error .occupied
  | none => .ok (disk.create location .directory).2

def ensureDirectory (disk : Disk) (path : Path) : Except SystemError Unit × Disk :=
  match disk.makeDirectory path with
  | .ok disk => (.ok (), disk)
  | .error cause => (if disk.isDirectory path then .ok () else .error cause, disk)

/-- Makes a directory and those of its parents that are missing, at most that many. -/
def makeDirectoriesWithin : Nat → Path → Disk → Except SystemError Unit × Disk
  | 0, _, disk => (.error .noEntry, disk)
  | steps + 1, path, disk =>
      match disk.ensureDirectory path with
      | (.error .noEntry, disk) =>
          match path.parent? with
          | none => (.error .noEntry, disk)
          | some parent =>
              match makeDirectoriesWithin steps parent disk with
              | (.ok (), disk) => disk.ensureDirectory path
              | failed => failed
      | done => done

/--
Makes a directory and those of its parents that are missing; what stands is kept,
and so are parents made before a failure. An empty path asks for nothing.
-/
def makeDirectories (disk : Disk) (path : Path) : Except SystemError Unit × Disk :=
  if path.isEmpty then (.ok (), disk) else makeDirectoriesWithin (path.length + 1) path disk

def removeFile (disk : Disk) (path : Path) : Except SystemError Disk := do
  let location ← disk.locate path .kept
  match disk.find? location with
  | none => .error .noEntry
  | some (.directory _) => .error .isDirectory
  | some _ => .ok (disk.erase location)

def removeTree (disk : Disk) (path : Path) : Except SystemError Disk := do
  let location ← disk.locate path .kept
  match disk.find? location with
  | none => .error .noEntry
  | some _ => .ok (disk.prune location)

/-- Gives a file one more name. A link at the source is not followed. -/
def hardLink (disk : Disk) (source target : Path) : Except SystemError Disk := do
  let origin ← disk.locate source .kept
  match disk.find? origin with
  | none => .error .noEntry
  | some node =>
      let goal ← disk.locate target .kept
      match disk.find? goal with
      | some _ => .error .occupied
      | none => if node.isDirectory then .error .permission else .ok (disk.put goal node)

def makeLink (disk : Disk) (path : Path) (target : Path) : Except SystemError Disk := do
  target.check
  let location ← disk.locate path .kept
  match disk.find? location with
  | some _ => .error .occupied
  | none => .ok (disk.put location (.link target))

/--
Moves what stands at one path to another. A file replaces a file, a directory
replaces an empty directory, and two names of one file stay as they are.
-/
def rename (disk : Disk) (source target : Path) : Except SystemError Disk := do
  let origin ← disk.locate source .kept
  let goal ← disk.locate target .kept
  match disk.find? origin with
  | none => .error .noEntry
  | some node =>
      if origin = goal then .ok disk
      else if isBelow origin goal then .error .invalid
      else
        match disk.find? goal with
        | none => .ok (disk.relocate origin goal)
        | some (.directory _) =>
            if !node.isDirectory then .error .isDirectory
            else if (disk.below goal).isEmpty then .ok (disk.relocate origin goal)
            else .error .notEmpty
        | some other =>
            if node.isDirectory then .error .notDirectory
            else if node = other && node matches .file _ then .ok disk
            else .ok (disk.relocate origin goal)

end Disk

end DentryWatch
