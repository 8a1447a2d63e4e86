import DentryWatch.Disk.Files
import DentryWatch.Text.Numeral

/-!
# Churn

A churn tries the names `d0/f0`, `d0/f1`, … below a base directory one by one,
a fixed number of them a directory. In positive mode each new name is one more
link to a shared file; in negative mode it is a file that is removed at once. A
name that is taken is skipped. The churn ends with enough new names, when the
device is full, or at a directory that cannot be used.
-/

namespace DentryWatch

inductive ChurnMode where
  /-- Links that stay. -/
  | positive
  /-- Files that go at once. -/
  | negative
deriving DecidableEq, Repr

namespace ChurnMode

def name : ChurnMode → String
  | positive => "positive"
  | negative => "negative"

def names : List String := [positive.name, negative.name]

/-- The mode with the given name, capitals and small letters alike. -/
def ofName? (text : String) : Option ChurnMode :=
  let small := text.toList.map Char.toLower
  [positive, negative].find? fun mode => mode.name.toList = small

end ChurnMode

structure Churn where
  /-- The directory everything is below. -/
  base : Path
  /-- What kind of entries it makes. -/
  mode : ChurnMode
  /-- How many names it tries in a directory. -/
  perDir : Nat
  /-- The number of the current directory. -/
  dirIndex : Nat := 0
  /-- The number of the next name there. -/
  fileIndex : Nat := 0
  /-- How many entries it has made. -/
  total : Nat := 0
deriving DecidableEq, Repr

/-- A churn that ended early, with the entries made until then. -/
structure ChurnFailure where
  /-- How many entries it had made. -/
  total : Nat
  /-- What went wrong. -/
  cause : SystemError
deriving DecidableEq, Repr

def ChurnFailure.chain (failure : ChurnFailure) : List String :=
  [s!"generator stopped at {failure.total} total", failure.cause.message]

namespace Churn

def label (letter : Char) (n : Nat) : String := String.ofList (letter :: Text.decimal n)

def sourcePath (churn : Churn) : Path := churn.base.child ".src"

def dir (churn : Churn) : Path := churn.base.child (label 'd' churn.dirIndex)

def nextPath (churn : Churn) : Path := churn.dir.child (label 'f' churn.fileIndex)

/-- Makes the base directory, the shared file if it is needed, and the first directory. -/
def prepare (disk : Disk) (base : Path) (mode : ChurnMode) (perDir : Nat) :
    Except SystemError Churn × Disk :=
  let churn : Churn := { base, mode, perDir := max perDir 1 }
  match disk.makeDirectories base with
  | (.error code, disk) => (.error code, disk)
  | (.ok (), disk) =>
      let opened :=
        match mode with
        | .positive => (disk.openFile churn.sourcePath .append).map Prod.snd
        | .negative => .ok disk
      match opened with
      | .error code => (.error code, disk)
      | .ok disk =>
          let (outcome, disk) := disk.makeDirectories churn.dir
          (outcome.map fun _ => churn, disk)

/-- Goes on to the next directory once enough names were tried in this one. -/
def advance (churn : Churn) (disk : Disk) : Except SystemError Unit × Churn × Disk :=
  if churn.fileIndex < churn.perDir then (.ok (), churn, disk)
  else
    let churn := { churn with dirIndex := churn.dirIndex + 1, fileIndex := 0 }
    match disk.makeDirectory churn.dir with
    | .ok disk => (.ok (), churn, disk)
    | .error code =>
        if code = .occupied && disk.isDirectory churn.dir then (.ok (), churn, disk)
        else (.error code, churn, disk)

def place (churn : Churn) (disk : Disk) (path : Path) : Except SystemError Disk :=
  match churn.mode with
  | .positive => disk.hardLink churn.sourcePath path
  | .negative => do
      let (_, disk) ← disk.openFile path .new
      disk.removeFile path

/-- Tries the next name. The answer is whether an entry was made. -/
def step (churn : Churn) (disk : Disk) : Except SystemError Bool × Churn × Disk :=
  match churn.advance disk with
  | (.error code, churn, disk) => (.error code, churn, disk)
  | (.ok (), churn, disk) =>
      let tried := { churn with fileIndex := churn.fileIndex + 1 }
      match churn.place disk churn.nextPath with
      | .ok disk => (.ok true, { tried with total := tried.total + 1 }, disk)
      | .error .noSpace => (.error .noSpace, tried, disk)
      | .error _ => (.ok false, tried, disk)

/-- Tries names until that many entries are made, `0` for no limit; at most so many names. -/
def driveWithin (max : Nat) : Nat → Churn → Disk → Except ChurnFailure Unit × Churn × Disk
  | 0, churn, disk => (.ok (), churn, disk)
  | names + 1, churn, disk =>
      match churn.step disk with
      | (.error .noSpace, churn, disk) => (.ok (), churn, disk)
      | (.error cause, churn, disk) => (.error ⟨churn.total, cause⟩, churn, disk)
      | (.ok _, churn, disk) =>
          if 0 < max && max ≤ churn.total then (.ok (), churn, disk)
          else driveWithin max names churn disk

/-- How many names there are to try; directories are numbered by 64-bit words. -/
def namesLeft (churn : Churn) : Nat := (UInt64.size - churn.dirIndex) * churn.perDir

/-- Drives the churn without a pause unless it was stopped before. -/
def drive (churn : Churn) (disk : Disk) (max : Nat) (running : Bool) :
    Except ChurnFailure Unit × Churn × Disk :=
  if running then driveWithin max churn.namesLeft churn disk else (.ok (), churn, disk)

inductive Window where
  /-- Its entries are made, and so many names are left to try. -/
  | filled (names : Nat)
  /-- The drive is over. -/
  | last (outcome : Except ChurnFailure Unit)

/--
Tries names until as many entries are made as are due. The drive is over when `max`
are made in all, at a failure, and when no name is left.
-/
def window (max : Nat) : (names due : Nat) → Churn → Disk → Window × Churn × Disk
  | names, 0, churn, disk => (.filled names, churn, disk)
  | 0, _ + 1, churn, disk => (.last (.ok ()), churn, disk)
  | names + 1, due + 1, churn, disk =>
      match churn.step disk with
      | (.error .noSpace, churn, disk) => (.last (.ok ()), churn, disk)
      | (.error cause, churn, disk) => (.last (.error ⟨churn.total, cause⟩), churn, disk)
      | (.ok made, churn, disk) =>
          if 0 < max && max ≤ churn.total then (.last (.ok ()), churn, disk)
          else window max names (if made then due else due + 1) churn disk

/-- Drives the churn window by window, at most so many of them, with so many names to try. -/
def windows (max batch : Nat) :
    (count names : Nat) → Churn → Disk → Except ChurnFailure Unit × Churn × Disk
  | 0, _, churn, disk => (.ok (), churn, disk)
  | count + 1, names, churn, disk =>
      match window max names batch churn disk with
      | (.last outcome, churn, disk) => (outcome, churn, disk)
      | (.filled names, churn, disk) => windows max batch count names churn disk

def windowsPerSecond : Nat := 10

/--
Drives the churn at a rate, the entries made in a second. A pause ends each window,
and each window tries a name, so there are at most as many windows as names.
-/
def driveAt (churn : Churn) (disk : Disk) (rate max : Nat) (running : Bool) :
    Except ChurnFailure Unit × Churn × Disk :=
  if running then
    windows max (Nat.max (rate / windowsPerSecond) 1) churn.namesLeft churn.namesLeft churn disk
  else (.ok (), churn, disk)

end Churn

end DentryWatch
