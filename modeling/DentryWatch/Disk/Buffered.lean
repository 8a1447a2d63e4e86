import DentryWatch.Disk.Files

/-!
# Buffered files

A buffer in front of an open file collects small writes. What does not fit the
free space first pushes the buffer out; a write as large as the whole buffer then
goes straight to the file. A push that fails leaves the buffer as it was.
-/

namespace DentryWatch

/--
How the next pushes go: each that is listed is turned away for a cause, or carried
out. Later pushes are carried out.
-/
abbrev Refusals := List (Option SystemError)

/-- Writes to an open file, unless the bytes are turned away. Without bytes there is no push. -/
def Disk.push (disk : Disk) (refusals : Refusals) (handle : Handle) (bytes : Bytes) :
    Except SystemError (Handle × Disk) × Refusals :=
  if bytes.isEmpty then (.ok (handle, disk), refusals)
  else
    match refusals with
    | [] => (disk.write handle bytes, [])
    | none :: rest => (disk.write handle bytes, rest)
    | some cause :: rest => (.error cause, rest)

theorem Disk.push_nil (disk : Disk) (handle : Handle) (bytes : Bytes) :
    disk.push [] handle bytes = (disk.write handle bytes, []) := by
  unfold Disk.push Disk.write
  split <;> rfl

structure BufferedFile where
  /-- The file behind the buffer. -/
  handle : Handle
  /-- How many bytes the buffer holds at most. -/
  capacity : Nat
  /-- The bytes not yet pushed out. -/
  pending : Bytes := []

namespace BufferedFile

/-- Pushes the buffer out, unless it is turned away. -/
def flushUnder (refusals : Refusals) (file : BufferedFile) (disk : Disk) :
    (Except SystemError Unit × BufferedFile × Disk) × Refusals :=
  match disk.push refusals file.handle file.pending with
  | (.ok (handle, disk), refusals) =>
      ((.ok (), { file with handle, pending := [] }, disk), refusals)
  | (.error code, refusals) => ((.error code, file, disk), refusals)

/-- Writes bytes that fit an empty enough buffer, or are too large for any. -/
def placeUnder (refusals : Refusals) (file : BufferedFile) (disk : Disk) (bytes : Bytes) :
    (Except SystemError Unit × BufferedFile × Disk) × Refusals :=
  if file.capacity ≤ bytes.length then
    match disk.push refusals file.handle bytes with
    | (.ok (handle, disk), refusals) => ((.ok (), { file with handle }, disk), refusals)
    | (.error code, refusals) => ((.error code, file, disk), refusals)
  else ((.ok (), { file with pending := file.pending ++ bytes }, disk), refusals)

def writeUnder (refusals : Refusals) (file : BufferedFile) (disk : Disk) (bytes : Bytes) :
    (Except SystemError Unit × BufferedFile × Disk) × Refusals :=
  if file.capacity < file.pending.length + bytes.length then
    match file.flushUnder refusals disk with
    | ((.ok (), file, disk), refusals) => file.placeUnder refusals disk bytes
    | failed => failed
  else file.placeUnder refusals disk bytes

/-- Releases a buffered file, pushing the buffer out if it is not turned away. -/
def dropUnder (refusals : Refusals) (file : BufferedFile) (disk : Disk) : Disk × Refusals :=
  let ((_, _, disk), refusals) := file.flushUnder refusals disk
  (disk, refusals)

def flush (file : BufferedFile) (disk : Disk) : Except SystemError Unit × BufferedFile × Disk :=
  (file.flushUnder [] disk).1

def place (file : BufferedFile) (disk : Disk) (bytes : Bytes) :
    Except SystemError Unit × BufferedFile × Disk :=
  (file.placeUnder [] disk bytes).1

def write (file : BufferedFile) (disk : Disk) (bytes : Bytes) :
    Except SystemError Unit × BufferedFile × Disk :=
  (file.writeUnder [] disk bytes).1

def drop (file : BufferedFile) (disk : Disk) : Disk := (file.dropUnder [] disk).1

/-- The bytes of the file as they are once the buffer is pushed out. -/
def stream (file : BufferedFile) (disk : Disk) : Bytes :=
  match file.handle with
  | .atEnd inode => disk.content inode ++ file.pending
  | .fromPosition inode position => (disk.content inode).overlay position file.pending
  | .full => file.pending

/-! ## Without refusals -/

theorem flushUnder_nil (file : BufferedFile) (disk : Disk) :
    file.flushUnder [] disk = (file.flush disk, []) := by
  refine Prod.ext rfl ?_
  rw [flushUnder, Disk.push_nil]
  cases disk.write file.handle file.pending <;> rfl

theorem placeUnder_nil (file : BufferedFile) (disk : Disk) (bytes : Bytes) :
    file.placeUnder [] disk bytes = (file.place disk bytes, []) := by
  refine Prod.ext rfl ?_
  rw [placeUnder, Disk.push_nil]
  split
  · cases disk.write file.handle bytes <;> rfl
  · rfl

theorem writeUnder_nil (file : BufferedFile) (disk : Disk) (bytes : Bytes) :
    file.writeUnder [] disk bytes = (file.write disk bytes, []) := by
  refine Prod.ext rfl ?_
  rw [writeUnder, flushUnder_nil, placeUnder_nil]
  split
  · rcases file.flush disk with ⟨code | done, out, next⟩
    · rfl
    · show (out.placeUnder [] next bytes).2 = []
      rw [placeUnder_nil]
  · rfl

theorem drop_eq (file : BufferedFile) (disk : Disk) : file.drop disk = (file.flush disk).2.2 := rfl

theorem flush_eq (file : BufferedFile) (disk : Disk) :
    file.flush disk =
      match disk.write file.handle file.pending with
      | .ok (handle, disk) => (.ok (), { file with handle, pending := [] }, disk)
      | .error code => (.error code, file, disk) := by
  rw [flush, flushUnder, Disk.push_nil]
  cases disk.write file.handle file.pending <;> rfl

theorem place_eq (file : BufferedFile) (disk : Disk) (bytes : Bytes) :
    file.place disk bytes =
      if file.capacity ≤ bytes.length then
        match disk.write file.handle bytes with
        | .ok (handle, disk) => (.ok (), { file with handle }, disk)
        | .error code => (.error code, file, disk)
      else (.ok (), { file with pending := file.pending ++ bytes }, disk) := by
  rw [place, placeUnder, Disk.push_nil]
  split
  · cases disk.write file.handle bytes <;> rfl
  · rfl

theorem write_eq (file : BufferedFile) (disk : Disk) (bytes : Bytes) :
    file.write disk bytes =
      if file.capacity < file.pending.length + bytes.length then
        match file.flush disk with
        | (.ok (), file, disk) => file.place disk bytes
        | failed => failed
      else file.place disk bytes := by
  rw [write, writeUnder, flushUnder_nil, placeUnder_nil]
  split
  · rcases file.flush disk with ⟨code | done, out, next⟩
    · rfl
    · show (out.placeUnder [] next bytes).1 = _
      rw [placeUnder_nil]
  · rfl

end BufferedFile

end DentryWatch
