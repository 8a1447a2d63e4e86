import DentryWatch.Proofs.TraceLog.Journals
import DentryWatch.Proofs.TraceLog.Rotation

/-!
# Logs that keep a journal

An open log keeps a journal when its active file, with the buffer, has the rows
of the active volume and the rotated files have those of the newest volumes.
Every call keeps it so, answers that all went well, and leaves the files of others
alone.
-/

namespace DentryWatch.TraceLog

/-- The rotated files are the newest volumes, at most so many. -/
def Slots.Holds (slots : Slots) (maxFiles : Nat) (volumes : List Volume) : Prop :=
  ∀ number, (slots (number + 1)).map Stored.text =
    (volumes.take maxFiles)[number]?.map fun volume => fileBytes volume.rows

/-- The paths of the first files of a log can be looked up. -/
def Reachable (directory : Path) (reach : Nat) : Prop :=
  ∀ number ≤ reach, (fileIn directory number).check = .ok ()

/-- The files of a log when it is not open. -/
structure Resting (base disk : Disk) (top : Location) (maxFiles : Nat) (journal : Journal)
    (slots : Slots) (active : Stored) : Prop where
  shelved : Shelved base disk top slots
  slot : slots 0 = some active
  text : active.text = fileBytes journal.active
  older : slots.Holds maxFiles journal.volumes

/-- An open log that keeps a journal. -/
structure Recording (base disk : Disk) (directory : Path) (top : Location) (journal : Journal)
    (log : TraceLog) (slots : Slots) (active : Stored) : Prop where
  shelved : Shelved base disk top slots
  slot : slots 0 = some active
  handle : log.out.handle = .atEnd active.inode
  stream : active.text ++ log.out.pending = fileBytes journal.active
  older : slots.Holds log.maxFiles journal.volumes
  size : log.size = (fileBytes journal.active).length
  directory : log.directory = directory

variable {base disk : Disk} {directory : Path} {top : Location} {journal : Journal}
  {log : TraceLog} {slots : Slots} {active : Stored} {total : Nat}

theorem Slots.Holds.place {maxFiles : Nat} {volumes : List Volume}
    (h : slots.Holds maxFiles volumes) (stored : Stored) :
    (slots.place 0 stored).Holds maxFiles volumes := by
  intro number
  rw [Slots.place, if_neg (by omega), h number]

/-- A rotation makes the active file the newest volume. -/
theorem Slots.Holds.retired {maxFiles : Nat} {volumes : List Volume}
    (h : slots.Holds maxFiles volumes) (hactive : slots 0 = some active) (volume : Volume)
    (htext : active.text = fileBytes volume.rows) :
    (slots.retired maxFiles).Holds maxFiles (volume :: volumes) := by
  intro number
  rw [Slots.retired, if_neg (by omega), List.getElem?_take]
  by_cases hkept : number + 1 ≤ maxFiles
  · rw [if_pos hkept, if_pos (Nat.lt_of_succ_le hkept)]
    cases number with
    | zero =>
        show (slots 0).map Stored.text = _
        rw [hactive, Option.map_some, htext]
        rfl
    | succ number =>
        show (slots (number + 1)).map Stored.text = _
        rw [h number, List.getElem?_take, if_pos (by omega)]
        rfl
  · rw [if_neg hkept, if_neg (by omega), h number, List.getElem?_take, if_neg (by omega)]

/-- What stands on a slot is among the kept volumes, or active. -/
theorem Slots.Holds.le_of_ne_none {maxFiles : Nat} {volumes : List Volume}
    (h : slots.Holds maxFiles volumes) {occupied : Nat} (hsome : slots occupied ≠ none) :
    occupied ≤ volumes.length := by
  cases occupied with
  | zero => exact Nat.zero_le _
  | succ number =>
      by_cases hlt : number < volumes.length
      · exact hlt
      · have hnone : (volumes.take maxFiles)[number]? = none := by
          rw [List.getElem?_eq_none_iff, List.length_take]
          omega
        have hmap := h number
        rw [hnone, Option.map_none, Option.map_eq_none_iff] at hmap
        exact absurd hmap hsome

theorem Slots.Holds.rotatable {maxFiles : Nat} {volumes : List Volume}
    (h : slots.Holds maxFiles volumes) (hreach : Reachable directory (min total maxFiles))
    (htotal : volumes.length + 1 ≤ total) : Rotatable directory maxFiles slots := by
  intro occupied hsome number hnumber hfiles
  have hle := h.le_of_ne_none hsome
  exact hreach number (by omega)

/-! ## Files of others -/

/-- What a call leaves alone: every file that there is and that is none of the log's. -/
structure Leaves (disk : Disk) (slots : Slots) (next : Disk) (slots' : Slots) : Prop where
  nextInode_le : disk.nextInode ≤ next.nextInode
  content : ∀ inode < disk.nextInode, slots.Spares inode →
    next.content inode = disk.content inode
  spares : ∀ inode < disk.nextInode, slots.Spares inode → slots'.Spares inode

theorem Leaves.trans {middle next : Disk} {slots' slots'' : Slots}
    (h : Leaves disk slots middle slots') (hmore : Leaves middle slots' next slots'') :
    Leaves disk slots next slots'' := by
  refine ⟨Nat.le_trans h.nextInode_le hmore.nextInode_le, ?_, ?_⟩
  · intro inode hlt hspares
    have hlt' := Nat.lt_of_lt_of_le hlt h.nextInode_le
    rw [hmore.content inode hlt' (h.spares inode hlt hspares), h.content inode hlt hspares]
  · intro inode hlt hspares
    exact hmore.spares inode (Nat.lt_of_lt_of_le hlt h.nextInode_le) (h.spares inode hlt hspares)

/-- Bytes go to the active file. -/
theorem leaves_appended {bytes text : Bytes} {next : Disk} (hactive : slots 0 = some active)
    (hgrown : disk.Appended active.inode bytes next) :
    Leaves disk slots next (slots.place 0 ⟨active.inode, text⟩) := by
  refine ⟨Nat.le_of_eq hgrown.nextInode.symm, ?_, ?_⟩
  · intro inode _ hspares
    exact hgrown.kept inode (hspares 0 active hactive).symm
  · intro inode _ hspares
    exact hspares.place (hspares 0 active hactive)

theorem leaves_retire {retired : Disk} (hretire : log.retire disk = (.ok (), retired)) :
    Leaves disk slots retired (slots.retired log.maxFiles) := by
  have hbytes := sameBytes_retire log disk
  rw [hretire] at hbytes
  refine ⟨Nat.le_of_eq hbytes.nextInode.symm, ?_, fun _ _ hspares => hspares.retired _⟩
  intro inode _ _
  rw [Disk.content, hbytes.contents, Disk.content]

theorem leaves_create (disk : Disk) (slots : Slots) (location : Location) :
    Leaves disk slots (disk.create location .file).2 (slots.place 0 ⟨disk.nextInode, []⟩) :=
  ⟨Nat.le_succ _, fun _ _ _ => rfl, fun _ hlt hspares => hspares.place (Nat.ne_of_gt hlt)⟩

/-! ## Calls -/

theorem Recording.flush (h : Recording base disk directory top journal log slots active) :
    ∃ next, log.out.flush disk = (.ok (), { log.out with pending := [] }, next) ∧
      Recording base next directory top journal { log with out := { log.out with pending := [] } }
        (slots.place 0 ⟨active.inode, fileBytes journal.active⟩)
        ⟨active.inode, fileBytes journal.active⟩ ∧
      Leaves disk slots next (slots.place 0 ⟨active.inode, fileBytes journal.active⟩) := by
  obtain ⟨next, hflush, hgrown⟩ := BufferedFile.flush_atEnd h.handle disk
  have hshelved := h.shelved.append h.slot hgrown
  rw [h.stream] at hshelved
  exact ⟨next, hflush, ⟨hshelved, rfl, h.handle, List.append_nil _, h.older.place _, h.size,
    h.directory⟩, leaves_appended h.slot hgrown⟩

/-- Bytes written through the buffer come behind those of the file. -/
theorem Recording.write (h : Recording base disk directory top journal log slots active)
    (bytes : Bytes) :
    ∃ pending next text, log.out.write disk bytes = (.ok (), { log.out with pending }, next) ∧
      Shelved base next top (slots.place 0 ⟨active.inode, text⟩) ∧
      Leaves disk slots next (slots.place 0 ⟨active.inode, text⟩) ∧
      text ++ pending = fileBytes journal.active ++ bytes := by
  obtain ⟨pending, pushed, next, hwrite, hgrown, hsum⟩ :=
    BufferedFile.write_atEnd h.handle disk bytes
  refine ⟨pending, next, _, hwrite, h.shelved.append h.slot hgrown,
    leaves_appended h.slot hgrown, ?_⟩
  rw [List.append_assoc, hsum, ← h.stream, List.append_assoc]

theorem Recording.touched {node : Node} {next : Disk}
    (h : Recording base disk directory top journal log slots active)
    (hother : ∀ inode, node = .file inode → slots.Spares inode ∧ inode < disk.nextInode)
    (htouched : disk.Touched node next) :
    Recording base next directory top journal log slots active :=
  ⟨h.shelved.touched hother htouched, h.slot, h.handle, h.stream, h.older, h.size, h.directory⟩

theorem rotate_of_ok {flushed retired next : Disk} {out out' : BufferedFile} {size : Nat}
    (hflush : log.out.flush disk = (.ok (), out, flushed))
    (hretire : ({ log with out } : TraceLog).retire flushed = (.ok (), retired))
    (hopen : openActive retired log.directory = .ok (out', size, next)) :
    log.rotate disk = (.ok (), { log with out := out', size }, next) := by
  rw [TraceLog.rotate_eq, hflush]
  dsimp only
  rw [hretire]
  dsimp only
  rw [hopen]

/-- A rotation closes the volume. -/
theorem Recording.rotate (site : Site base directory top)
    (h : Recording base disk directory top journal log slots active)
    (hsize : log.maxFiles < UInt64.size)
    (hreach : Reachable directory (min total log.maxFiles))
    (htotal : journal.volumes.length + 1 ≤ total) (limit since : Nat) :
    ∃ log' next slots' active', log.rotate disk = (.ok (), log', next) ∧
      log'.maxFiles = log.maxFiles ∧ log'.maxSize = log.maxSize ∧
      Recording base next directory top
        { volumes := ⟨journal.active, limit, since⟩ :: journal.volumes } log' slots' active' ∧
      Leaves disk slots next slots' := by
  obtain ⟨flushed, hflush, hkept, hleaves⟩ := h.flush
  have hcheck : Rotatable directory log.maxFiles
      (slots.place 0 ⟨active.inode, fileBytes journal.active⟩) :=
    hkept.older.rotatable hreach htotal
  obtain ⟨retired, hretire, hgone⟩ := hkept.shelved.retire site hkept.directory hsize hcheck rfl
  obtain ⟨hopen, hnew⟩ := hgone.openActive_new site (hreach 0 (Nat.zero_le _)) rfl
  have holder := hkept.older.retired hkept.slot ⟨journal.active, limit, since⟩ rfl
  have hempty : fileBytes [] = headerBytes := List.append_nil _
  refine ⟨{ log with
      out := ⟨.atEnd retired.nextInode, bufferSize, headerBytes⟩
      size := headerBytes.length }, _, _, ⟨retired.nextInode, []⟩, ?_, rfl, rfl,
    ⟨hnew, rfl, rfl, hempty.symm, holder.place _, congrArg List.length hempty.symm, h.directory⟩,
    (hleaves.trans (leaves_retire hretire)).trans (leaves_create retired _ _)⟩
  exact rotate_of_ok hflush hretire (h.directory ▸ hopen)

theorem fileBytes_concat (rows : List Bytes) (row : Bytes) :
    fileBytes (rows ++ [row]) = fileBytes rows ++ row := by
  rw [fileBytes, fileBytes, List.flatten_append, List.flatten_singleton, List.append_assoc]

/-- The log once a row has gone through its buffer. -/
def written (log : TraceLog) (out : BufferedFile) (row : Bytes) : TraceLog :=
  { log with out, size := log.size + row.length, rows := log.rows + 1 }

/-- A row is written, and then a rotation follows if the size asks for it. -/
theorem writeRecord_of_ok {seen : Instant} {record : Record} {path : String}
    {out : BufferedFile} {next : Disk}
    (hwrite : log.out.write disk (rowBytes seen record path) = (.ok (), out, next)) :
    log.writeRecord disk seen record path =
      (.ok (),
        if log.maxSize ≤ log.size + (rowBytes seen record path).length then
          ((log.written out (rowBytes seen record path)).rotate next).2
        else (log.written out (rowBytes seen record path), next)) := by
  rw [TraceLog.writeRecord_eq, ← rowBytes]
  dsimp only
  rw [hwrite]
  dsimp only
  split <;> rfl

theorem Recording.extended (h : Recording base disk directory top journal log slots active)
    (seen : Instant) (record : Record) (path : String) :
    ∃ log' next slots' active',
      log.writeRecord disk seen record path =
        (.ok (), if log'.maxSize ≤ log'.size then (log'.rotate next).2 else (log', next)) ∧
      log'.maxFiles = log.maxFiles ∧ log'.maxSize = log.maxSize ∧
      Recording base next directory top
        { journal with
          active := journal.active ++ [rowBytes seen record path]
          since := journal.since + 1 } log' slots' active' ∧
      Leaves disk slots next slots' := by
  obtain ⟨pending, next, text, hwrite, hshelved, hleaves, htext⟩ :=
    h.write (rowBytes seen record path)
  refine ⟨log.written { log.out with pending } (rowBytes seen record path), next, _,
    ⟨active.inode, text⟩, writeRecord_of_ok hwrite, rfl, rfl, ⟨hshelved, rfl, h.handle, ?_,
    h.older.place _, ?_, h.directory⟩, hleaves⟩
  · rw [fileBytes_concat]
    exact htext
  · rw [fileBytes_concat, List.length_append, ← h.size]
    rfl

theorem Recording.writeRecord (site : Site base directory top)
    (h : Recording base disk directory top journal log slots active)
    (hsize : log.maxFiles < UInt64.size)
    (hreach : Reachable directory (min total log.maxFiles)) (seen : Instant) (record : Record)
    (path : String)
    (htotal : (journal.append log.maxSize (rowBytes seen record path)).volumes.length ≤ total) :
    ∃ log' next slots' active', log.writeRecord disk seen record path = (.ok (), log', next) ∧
      log'.maxFiles = log.maxFiles ∧ log'.maxSize = log.maxSize ∧
      Recording base next directory top (journal.append log.maxSize (rowBytes seen record path))
        log' slots' active' ∧
      Leaves disk slots next slots' := by
  obtain ⟨written, middle, slots', active', hwrite, hfiles, hlimit, hkept, hleaves⟩ :=
    h.extended seen record path
  rw [hwrite, hkept.size, hlimit]
  by_cases hreached :
      log.maxSize ≤ (fileBytes (journal.active ++ [rowBytes seen record path])).length
  · rw [Journal.append_of_reached hreached] at htotal ⊢
    rw [if_pos hreached]
    rw [← hfiles] at hsize hreach
    obtain ⟨rotated, next, slots'', active'', hrotate, hfiles', hlimit', hnext, hleaves'⟩ :=
      hkept.rotate site hsize hreach htotal log.maxSize (journal.since + 1)
    exact ⟨rotated, next, slots'', active'', by rw [hrotate], hfiles'.trans hfiles,
      hlimit'.trans hlimit, hnext, hleaves.trans hleaves'⟩
  · rw [Journal.append_of_below (Nat.not_le.1 hreached), if_neg hreached]
    exact ⟨written, middle, slots', active', rfl, hfiles, hlimit, hkept, hleaves⟩

end DentryWatch.TraceLog
