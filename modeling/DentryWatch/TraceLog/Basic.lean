import DentryWatch.Disk.Buffered
import DentryWatch.TraceLog.Row

/-!
# Trace logs

A trace log appends rows to `traces.tsv` in its directory through a buffer. Once
the file has reached its size limit it becomes `traces.tsv.1`, the files before
it move up by one number, and a new file is begun. A rotation that fails is given
up where it stands, and the row that caused it is kept. Every push of the buffer may
be turned away; the calls as they run are those under no refusals.
-/

namespace DentryWatch

structure TraceLog where
  directory : Path
  /-- The size from which the active file is rotated. -/
  maxSize : Nat
  /-- How many rotated files are kept. -/
  maxFiles : Nat
  out : BufferedFile
  /-- The length of the active file, the buffer included. -/
  size : Nat
  /-- The rows written since the log was opened. -/
  rows : Nat := 0

namespace TraceLog

def activeName : String := "traces.tsv"

def bufferSize : Nat := 64 * 1024

def activeIn (directory : Path) : Path := directory.child activeName

def rotatedName (number : Nat) : String := s!"{activeName}.{number}"

def rotatedIn (directory : Path) (number : Nat) : Path := directory.child (rotatedName number)

def activePath (log : TraceLog) : Path := activeIn log.directory

def rotatedPath (log : TraceLog) (number : Nat) : Path := rotatedIn log.directory number

def headerBytes : Bytes := Utf8.encodeChars header

/-- Opens the active file of a directory at its end, beginning an empty one with the header. -/
def openActive (disk : Disk) (directory : Path) :
    Except SystemError (BufferedFile × Nat × Disk) := do
  let (handle, disk) ← disk.openFile (activeIn directory) .append
  let size := disk.size handle
  let file : BufferedFile := { handle, capacity := bufferSize }
  if size = 0 then
    .ok ({ file with pending := headerBytes }, headerBytes.length, disk)
  else .ok (file, size, disk)

def openIn (disk : Disk) (directory : Path) (maxSize maxFiles : Nat) :
    Except SystemError TraceLog × Disk :=
  match disk.makeDirectories directory with
  | (.error code, disk) => (.error code, disk)
  | (.ok (), disk) =>
      match openActive disk directory with
      | .error code => (.error code, disk)
      | .ok (out, size, disk) => (.ok { directory, maxSize, maxFiles, out, size }, disk)

/-- Carries an operation out, or leaves the disk as it is. -/
def attempt (disk : Disk) (op : Disk → Except SystemError Disk) : Disk :=
  match op disk with
  | .ok disk => disk
  | .error _ => disk

/-- Removes the oldest rotated file and moves the others up by one number. -/
def shiftHistory (log : TraceLog) (disk : Disk) : Disk :=
  let disk := attempt disk (·.removeFile (log.rotatedPath log.maxFiles))
  (List.range (log.maxFiles - 1)).reverse.foldl
    (fun disk i =>
      attempt disk (·.rename (log.rotatedPath (i + 1)) (log.rotatedPath (i + 2))))
    disk

/-- Takes the active file out of the way. -/
def retire (log : TraceLog) (disk : Disk) : Except SystemError Unit × Disk :=
  if log.maxFiles = 0 then
    match disk.removeFile log.activePath with
    | .ok disk => (.ok (), disk)
    | .error code => (.error code, disk)
  else
    let disk := log.shiftHistory disk
    match disk.rename log.activePath (log.rotatedPath 1) with
    | .ok disk => (.ok (), disk)
    | .error code => (.error code, disk)

/-! ## Calls under refusals -/

def rotateUnder (refusals : Refusals) (log : TraceLog) (disk : Disk) :
    (Except SystemError Unit × TraceLog × Disk) × Refusals :=
  match log.out.flushUnder refusals disk with
  | ((.error code, out, disk), refusals) => ((.error code, { log with out }, disk), refusals)
  | ((.ok (), out, disk), refusals) =>
      let log := { log with out }
      match log.retire disk with
      | (.error code, disk) => ((.error code, log, disk), refusals)
      | (.ok (), disk) =>
          match openActive disk log.directory with
          | .error code => ((.error code, log, disk), refusals)
          | .ok (out, size, disk) => ((.ok (), { log with out, size }, disk), refusals)

def writeRecordUnder (refusals : Refusals) (log : TraceLog) (disk : Disk) (seen : Instant)
    (record : Record) (path : String) :
    (Except SystemError Unit × TraceLog × Disk) × Refusals :=
  let bytes := Utf8.encodeChars (row seen record path.toList)
  match log.out.writeUnder refusals disk bytes with
  | ((.error code, out, disk), refusals) => ((.error code, { log with out }, disk), refusals)
  | ((.ok (), out, disk), refusals) =>
      let log := { log with out, size := log.size + bytes.length, rows := log.rows + 1 }
      if log.maxSize ≤ log.size then
        let ((_, log, disk), refusals) := log.rotateUnder refusals disk
        ((.ok (), log, disk), refusals)
      else ((.ok (), log, disk), refusals)

def flushUnder (refusals : Refusals) (log : TraceLog) (disk : Disk) :
    (Except SystemError Unit × TraceLog × Disk) × Refusals :=
  let ((outcome, out, disk), refusals) := log.out.flushUnder refusals disk
  ((outcome, { log with out }, disk), refusals)

/-- Pushes the buffer out, forces the file to the medium and releases the log. -/
def closeUnder (refusals : Refusals) (log : TraceLog) (disk : Disk) :
    (Except SystemError Unit × Disk) × Refusals :=
  match log.out.flushUnder refusals disk with
  | ((.error code, out, disk), refusals) =>
      let (disk, refusals) := out.dropUnder refusals disk
      ((.error code, disk), refusals)
  | ((.ok (), out, disk), refusals) =>
      let (disk, refusals) := out.dropUnder refusals disk
      ((Disk.sync out.handle, disk), refusals)

/-! ## Calls -/

def rotate (log : TraceLog) (disk : Disk) : Except SystemError Unit × TraceLog × Disk :=
  (log.rotateUnder [] disk).1

def writeRecord (log : TraceLog) (disk : Disk) (seen : Instant) (record : Record)
    (path : String) : Except SystemError Unit × TraceLog × Disk :=
  (log.writeRecordUnder [] disk seen record path).1

def flush (log : TraceLog) (disk : Disk) : Except SystemError Unit × TraceLog × Disk :=
  (log.flushUnder [] disk).1

def drop (log : TraceLog) (disk : Disk) : Disk := log.out.drop disk

/-- Pushes the buffer out, forces the file to the medium and releases the log. -/
def close (log : TraceLog) (disk : Disk) : Except SystemError Unit × Disk :=
  (log.closeUnder [] disk).1

def stream (log : TraceLog) (disk : Disk) : Bytes := log.out.stream disk

/-! ## Without refusals -/

theorem rotateUnder_nil (log : TraceLog) (disk : Disk) :
    log.rotateUnder [] disk = (log.rotate disk, []) := by
  refine Prod.ext rfl ?_
  rw [rotateUnder, BufferedFile.flushUnder_nil]
  rcases log.out.flush disk with ⟨code | done, out, flushed⟩
  · rfl
  · dsimp only
    rcases TraceLog.retire { log with out } flushed with ⟨code | done, retired⟩
    · rfl
    · dsimp only
      cases openActive retired log.directory <;> rfl

theorem rotate_eq (log : TraceLog) (disk : Disk) :
    log.rotate disk =
      match log.out.flush disk with
      | (.error code, out, disk) => (.error code, { log with out }, disk)
      | (.ok (), out, disk) =>
          let log := { log with out }
          match log.retire disk with
          | (.error code, disk) => (.error code, log, disk)
          | (.ok (), disk) =>
              match openActive disk log.directory with
              | .error code => (.error code, log, disk)
              | .ok (out, size, disk) => (.ok (), { log with out, size }, disk) := by
  rw [rotate, rotateUnder, BufferedFile.flushUnder_nil]
  rcases log.out.flush disk with ⟨code | done, out, flushed⟩
  · rfl
  · dsimp only
    rcases TraceLog.retire { log with out } flushed with ⟨code | done, retired⟩
    · rfl
    · dsimp only
      cases openActive retired log.directory <;> rfl

theorem writeRecordUnder_nil (log : TraceLog) (disk : Disk) (seen : Instant) (record : Record)
    (path : String) :
    log.writeRecordUnder [] disk seen record path =
      (log.writeRecord disk seen record path, []) := by
  refine Prod.ext (by rw [writeRecord]) ?_
  rw [writeRecordUnder]
  dsimp only
  rw [BufferedFile.writeUnder_nil]
  rcases log.out.write disk _ with ⟨code | done, out, written⟩
  · rfl
  · dsimp only
    rw [rotateUnder_nil]
    split <;> rfl

theorem writeRecord_eq (log : TraceLog) (disk : Disk) (seen : Instant) (record : Record)
    (path : String) :
    log.writeRecord disk seen record path =
      let bytes := Utf8.encodeChars (row seen record path.toList)
      match log.out.write disk bytes with
      | (.error code, out, disk) => (.error code, { log with out }, disk)
      | (.ok (), out, disk) =>
          let log := { log with out, size := log.size + bytes.length, rows := log.rows + 1 }
          if log.maxSize ≤ log.size then
            let (_, log, disk) := log.rotate disk
            (.ok (), log, disk)
          else (.ok (), log, disk) := by
  rw [writeRecord, writeRecordUnder]
  dsimp only
  rw [BufferedFile.writeUnder_nil]
  rcases log.out.write disk _ with ⟨code | done, out, written⟩
  · rfl
  · dsimp only
    rw [rotateUnder_nil]
    split <;> rfl

theorem flushUnder_nil (log : TraceLog) (disk : Disk) :
    log.flushUnder [] disk = (log.flush disk, []) := by
  rw [flush, flushUnder, BufferedFile.flushUnder_nil]

theorem flush_eq (log : TraceLog) (disk : Disk) :
    log.flush disk =
      let (outcome, out, disk) := log.out.flush disk
      (outcome, { log with out }, disk) := by
  rw [flush, flushUnder, BufferedFile.flushUnder_nil]

theorem close_eq (log : TraceLog) (disk : Disk) :
    log.close disk =
      match log.out.flush disk with
      | (.error code, out, disk) => (.error code, out.drop disk)
      | (.ok (), out, disk) => (Disk.sync out.handle, out.drop disk) := by
  rw [close, closeUnder, BufferedFile.flushUnder_nil]
  rcases log.out.flush disk with ⟨code | done, out, flushed⟩ <;> rfl

end TraceLog

end DentryWatch
