import DentryWatch.Proofs.Drain.Healthy
import DentryWatch.Proofs.RecordStream.Schedules
import DentryWatch.Proofs.TraceLog.Files
import DentryWatch.Proofs.TraceLog.Frames
import DentryWatch.Proofs.TraceLog.Newest
import DentryWatch.Proofs.TraceLog.Timing

/-!
# Both outputs of a drain

On healthy outputs a drain loses nothing: the log keeps the rows of all records
that pass, as far as it keeps volumes, and the raw file has the same records in
the same order. Neither batches nor flushes show.
-/

namespace DentryWatch

namespace Drain

open TraceLog

variable {base disk : Disk} {directory : Path} {top : Location} {maxSize maxFiles : Nat}
  {records : List Record}

/-! ## Opening the outputs -/

/-- What stands there has no name of a log in that directory. -/
structure NoLogName (disk : Disk) (top : Location) (node : Node) : Prop where
  active : disk.find? (top ++ [Path.ofText activeName]) ≠ some node
  rotated : ∀ number, disk.find? (top ++ [Path.ofText (rotatedName number)]) ≠ some node

theorem NoLogName.fileAt_ne {node : Node} (h : NoLogName disk top node) (number : Nat) :
    disk.find? (fileAt top number) ≠ some node := by
  cases number with
  | zero => exact h.active
  | succ number => exact h.rotated (number + 1)

/-- A log in a directory of its own, and perhaps a raw file elsewhere, were just opened. -/
structure Ready (base : Disk) (directory : Path) (top : Location) (log : TraceLog)
    (slots : Slots) (active : Stored) (raw : Option BufferedFile) (ready : Disk) : Prop where
  site : Site base directory top
  free : base.find? (top ++ [Path.ofText (rotatedName 0)]) = none
  recording : Recording base ready directory top {} log slots active
  aside : Aside slots ready (raw.map fun file => file.handle.node)
  output : RawOutput ready raw (raw.map fun file => file.handle.node) []

variable {slots : Slots} {active : Stored} {log : TraceLog} {raw : Option BufferedFile}
  {ready : Disk}

theorem aside_of_noLogName {handle : Handle} {location : Location} (hsound : ready.Sound)
    (hshelved : Shelved base ready top slots)
    (hnames : ready.find? location = some handle.node)
    (hnoname : NoLogName ready top handle.node) : Aside slots ready (some handle.node) := by
  intro inode hnode
  obtain hfile : handle.node = .file inode := Option.some.inj hnode
  rw [hfile] at hnames hnoname
  refine ⟨?_, hsound.numbered _ _ hnames⟩
  rintro number stored hstored rfl
  exact hnoname.fileAt_ne number (hshelved.find?_of_some number hstored)

/-- A raw file that was opened elsewhere may be new, so it belongs to the ground of the log. -/
theorem Ready.present {made opened : Disk} {path : Path} {file : BufferedFile}
    (site : Site made directory top)
    (hrotated : made.find? (top ++ [Path.ofText (rotatedName 0)]) = none)
    (hrecording : Recording made opened directory top {} log slots active)
    (hopen : openRaw opened path = .ok (file, ready))
    (hnoname : NoLogName ready top file.handle.node) :
    Ready (cleared ready top) directory top log slots active (some file) ready := by
  have hshelved := hrecording.shelved
  have hsound := hshelved.sound site
  obtain ⟨⟨location, hopens⟩, -, -⟩ := exists_opens_openRaw hopen
  have hopened := hshelved.opens hsound hopens hnoname.fileAt_ne
  have hleads : ready.Leads directory top := (hshelved.leads site).mono hopens.includes
  refine ⟨hopened.filesOnly.site (hopens.sound hsound) hleads, ?_,
    ⟨hopened, hrecording.slot, hrecording.handle, hrecording.stream, hrecording.older,
      hrecording.size, hrecording.directory⟩,
    aside_of_noLogName (hopens.sound hsound) hopened hopens.names.find? hnoname,
    (RawOpened.present hopen).output (hshelved.unused _ (Nat.le_refl _))⟩
  have hother : top ++ [Path.ofText (rotatedName 0)] ≠ location := by
    rintro rfl
    exact hnoname.rotated 0 hopens.names.find?
  rw [find?_cleared_other (rotatedName_zero_ne top), hopens.elsewhere _ hother,
    hshelved.other _ (rotatedName_zero_ne top), hrotated]

theorem exists_ready {start made opened : Disk} {rawPath : Option Path}
    (hmake : start.makeDirectories directory = (.ok (), made)) (site : Site made directory top)
    (hrotated : made.find? (top ++ [Path.ofText (rotatedName 0)]) = none)
    (hcheck : (fileIn directory 0).check = .ok ())
    (hopen : TraceLog.openIn start directory maxSize maxFiles = (.ok log, opened))
    (hraw : RawOpened opened rawPath raw ready)
    (haside : ∀ file, raw = some file → NoLogName ready top file.handle.node) :
    log.maxSize = maxSize ∧ log.maxFiles = maxFiles ∧
      ∃ base slots active, Ready base directory top log slots active raw ready := by
  obtain ⟨log', opened', hopen', ⟨slots, active, hrecording⟩, hlimit, hfiles⟩ :=
    site.openIn hmake hcheck maxSize maxFiles
  obtain ⟨hlog, rfl⟩ := Prod.mk.inj (hopen'.symm.trans hopen)
  obtain rfl := Except.ok.inj hlog
  dsimp only at hrecording hlimit hfiles
  refine ⟨hlimit, hfiles, ?_⟩
  cases hraw with
  | absent =>
      have hunused := hrecording.shelved.unused _ (Nat.le_refl _)
      exact ⟨made, slots, active, site, hrotated, hrecording, nofun,
        RawOpened.absent.output hunused⟩
  | present hopened =>
      exact ⟨_, slots, active, .present site hrotated hrecording hopened (haside _ rfl)⟩

theorem Ready.drained (h : Ready base directory top log slots active raw ready)
    (hlimit : log.maxSize = maxSize) (hfiles : log.maxFiles = maxFiles)
    (seen : Nat → Instant) (filter : PathFilter) :
    Drained seen filter base directory top maxSize maxFiles
      (raw.map fun file => file.handle.node) [] { log, filter, raw } ready :=
  ⟨rfl, rfl, hlimit, hfiles, ⟨slots, active, h.recording, h.aside⟩, h.output⟩

/-! ## After a run -/

/-- The log keeps the newest volumes of a journal, and the raw file has all records. -/
structure Filled (journal : Journal) (records : List Record) (maxFiles : Nat) (directory : Path)
    (top : Location) (rawPath : Option Path) (disk : Disk) : Prop where
  log : KeepsNewest journal maxFiles directory top disk
  raw : ∀ path, rawPath = some path →
    disk.readBytes path = .ok (records.flatMap Record.encode)

theorem rows_logJournal (seen : Nat → Instant) (filter : PathFilter) (maxSize : Nat)
    (records : List Record) :
    (logJournal seen filter maxSize records).rows = matchingRows seen filter records :=
  Journal.rows_foldl maxSize {} _

theorem isRow_logJournal (seen : Nat → Instant) (filter : PathFilter) (maxSize : Nat)
    (records : List Record) : ∀ row ∈ (logJournal seen filter maxSize records).rows, IsRow row := by
  intro row hmem
  rw [rows_logJournal] at hmem
  obtain ⟨entry, -, rfl⟩ := List.mem_map.1 hmem
  exact ⟨_, _, _, rfl⟩

theorem Ready.run {opened : Disk} {rawPath : Option Path} {ring : Ring} {capacity : Nat}
    (h : Ready base directory top log slots active raw ready)
    (hlimit : log.maxSize = maxSize) (hfiles : log.maxFiles = maxFiles)
    (hraw : RawOpened opened rawPath raw ready)
    (haside : ∀ file, raw = some file → NoLogName ready top file.handle.node)
    (hordinary : ∀ file, raw = some file → file.handle ≠ .full)
    (hsize : maxFiles < UInt64.size) (filter : PathFilter) (schedule : DrainSchedule)
    (hreach : Reachable directory
      ((logJournal schedule.seen filter maxSize records).kept maxFiles))
    (hbacklog : ring.Backlog capacity records) :
    ∃ ring' disk,
      Drain.run schedule { log, filter, raw } ring ready =
        (.ok (tally filter records), ring', disk) ∧
      Filled (logJournal schedule.seen filter maxSize records) (matching filter records) maxFiles
        directory top rawPath disk := by
  have hhealthy : raw.map (fun file => file.handle.node) ≠ some .full := by
    intro hfull
    obtain ⟨file, hfile, hnode⟩ := Option.map_eq_some_iff.1 hfull
    exact hordinary file hfile ((Handle.node_eq_full_iff _).1 hnode)
  obtain ⟨drain, ring', drained, hempty, hlast, -⟩ :=
    (invariant_drained h.site hsize hreach hhealthy schedule rfl).empty
      (h.drained hlimit hfiles schedule.seen filter) hbacklog
  obtain ⟨disk, slots', active', hfinish, hrest, hcontent⟩ := hlast.finish hhealthy
  refine ⟨ring', disk, ?_, ?_, ?_⟩
  · rw [Drain.run, hempty]
    dsimp only
    rw [hfinish]
  · exact hrest.keepsNewest h.site hsize hreach h.free (isRow_logJournal _ _ _ _)
  · intro path hpath
    obtain ⟨file, location, hfile, hnames⟩ := hraw.names hpath
    have hplace : ∀ number, location ≠ fileAt top number := by
      rintro number rfl
      exact (haside file hfile).fileAt_ne number hnames.find?
    have hshelved := h.recording.shelved
    have hstands : disk.find? location = some file.handle.node := by
      rw [hrest.shelved.other _ hplace, ← hshelved.other _ hplace, hnames.find?]
    have hlater := hnames.mono (hshelved.includes_later hrest.shelved) hstands
    refine (hlater.readBytes_eq_iff fun inode hnode => hcontent inode ?_).2 fun hfull => ?_
    · rw [hfile, Option.map_some, hnode]
    · exact absurd hfull (hordinary file hfile)

theorem matchingRows_sameButTime {seen other : Nat → Instant}
    (hwidth : ∀ number, (seen number).nanosText.length = (other number).nanosText.length)
    (filter : PathFilter) (records : List Record) :
    List.Forall₂ SameButTime (matchingRows seen filter records)
      (matchingRows other filter records) := by
  rw [matchingRows, matchingRows, List.forall₂_map_left_iff, List.forall₂_map_right_iff,
    List.forall₂_same]
  exact fun _ _ => ⟨_, _, _, _, hwidth _, rfl, rfl⟩

theorem logJournal_sameButTimes {seen other : Nat → Instant}
    (hwidth : ∀ number, (seen number).nanosText.length = (other number).nanosText.length)
    (filter : PathFilter) (maxSize : Nat) (records : List Record) :
    (logJournal seen filter maxSize records).SameButTimes
      (logJournal other filter maxSize records) :=
  Journal.SameButTimes.foldl ⟨.nil, .nil⟩ (matchingRows_sameButTime hwidth filter records)

/-! ## A log in the root and a raw file beside it -/

def rawPathBeside : Path := Path.child [] "raw"

def logBeside : Disk := (({} : Disk).create (fileAt [] 0) .file).2

def bothBeside : Disk := (logBeside.create [Path.ofText "raw"] .file).2

def rawBeside : BufferedFile := ⟨.fromPosition 1048577 0, rawBufferSize, []⟩

theorem openIn_beside (maxSize maxFiles : Nat) :
    TraceLog.openIn {} [] maxSize maxFiles =
      (.ok (begun [] maxSize maxFiles 1048576), logBeside) := by
  have hmake : ({} : Disk).makeDirectories [] = (.ok (), {}) := rfl
  exact openIn_missing hmake (Disk.leads_root rfl ⟨2, rfl⟩) rfl rfl rfl maxSize maxFiles

theorem rawOpened_beside :
    RawOpened logBeside (some rawPathBeside) (some rawBeside) bothBeside := by
  have hproper : FileName.Proper (Path.ofText "raw") :=
    ⟨by decide, by decide, by decide, by decide, by decide⟩
  have hleads : logBeside.Leads [] [] := Disk.leads_root rfl ⟨2, rfl⟩
  have hopen : logBeside.openFile rawPathBeside .truncate = _ :=
    hleads.openFile_missing hproper rfl rfl .truncate
  refine .present ?_
  rw [openRaw, hopen]
  rfl

theorem noLogName_beside : NoLogName bothBeside [] rawBeside.handle.node := by
  refine ⟨by decide, fun number => ?_⟩
  have hname : Path.ofText (rotatedName number) ≠ Path.ofText "raw" := by
    intro heq
    have hlength := congrArg List.length heq
    rw [length_rotatedName] at hlength
    have hshort : (Path.ofText "raw").length = 3 := by decide
    omega
  have hfind : bothBeside.find? ([] ++ [Path.ofText (rotatedName number)]) =
      logBeside.find? ([] ++ [Path.ofText (rotatedName number)]) :=
    (Disk.find?_put _ _ _ _).trans (if_neg (by simpa using hname))
  have hnone : logBeside.find? ([] ++ [Path.ofText (rotatedName number)]) = none := by
    refine (Disk.find?_put _ _ _ _).trans ?_
    rw [if_neg, Disk.find?_empty (by simp)]
    simpa [fileAt, fileName] using rotatedName_ne_activeName number
  rw [hfind, hnone]
  simp

theorem site_root : Site {} [] [] := by
  refine ⟨Disk.sound_empty, Disk.leads_root rfl Disk.sound_empty.root, fun number => ?_⟩
  exact Disk.find?_empty (List.append_ne_nil_of_right_ne_nil _ (List.cons_ne_nil _ _))

/--
A drain whose log begins in a directory of its own, and whose raw file, if there is one, is an
ordinary file elsewhere, takes all records that the ring accepted and has no errors. The log
keeps the rows of those that pass the filter, each with its six columns, all of them while no
volume is gone. The raw file is read back as the same records in the same order, but for those
that count more than eight components: these are written all the same, and are refused when
they are read. Flushes and batches make no difference, and the times at which records are seen
none but in the rows.
-/
theorem run_fills_both_outputs {start made opened ready : Disk} {directory : Path}
    {top : Location} {rawPath : Option Path} {maxSize maxFiles capacity : Nat} {log : TraceLog}
    {raw : Option BufferedFile} (hsound : start.Sound)
    (hmake : start.makeDirectories directory = (.ok (), made))
    (hleads : made.Leads directory top)
    (hactive : made.find? (top ++ [Path.ofText activeName]) = none)
    (hrotated : ∀ number, made.find? (top ++ [Path.ofText (rotatedName number)]) = none)
    (hsize : maxFiles < UInt64.size)
    (hopen : TraceLog.openIn start directory maxSize maxFiles = (.ok log, opened))
    (hraw : RawOpened opened rawPath raw ready)
    (haside : ∀ file, raw = some file → NoLogName ready top file.handle.node)
    (hordinary : ∀ file, raw = some file → file.handle ≠ .full)
    (hcapacity : capacity ≤ 2 ^ 63) (events : List Record) (filter : PathFilter)
    (schedule : DrainSchedule)
    (hreach : Reachable directory
      ((logJournal schedule.seen filter maxSize
        ((Ring.ofCapacity capacity).accepted events)).kept maxFiles)) :
    let ring := Ring.ofCapacity capacity
    let accepted := ring.accepted events
    let records := matching filter accepted
    let rows := matchingRows schedule.seen filter accepted
    let journal := logJournal schedule.seen filter maxSize accepted
    let totals := tally filter accepted
    let drain : Drain := { log, filter, raw }
    totals.received = (ring.emitAll events).1.count true ∧
    totals.received = totals.written + totals.filtered ∧ totals.writeErrors = 0 ∧
    totals.written = records.length ∧
    List.Forall₂ (fun row record => ∃ seen, row = rowBytes seen record record.path ∧
      row.count lineFeed = 1 ∧ row.getLast? = some lineFeed ∧
      cells row =
        [seen.nanosText, Text.decimal record.group.toNat, record.operation.name.toList,
          Text.decimal record.count, (toString record.rootReached).toList,
          record.path.toList.map fun c => if c = '\t' ∨ c = '\n' ∨ c = '\r' then ' ' else c].map
            Utf8.encodeChars) rows records ∧
    (∀ script, ByteSource.Steady script →
      RecordReader.Yields ⟨⟨records.flatMap Record.encode, script⟩, false⟩
        (records.map Record.readBack)) ∧
    ((∀ record ∈ records, record.count ≤ maxDepth) →
      records.map Record.readBack = records.map .ok) ∧
    (∃ ring' disk, drain.run schedule (ring.emitAll events).2 ready = (.ok totals, ring', disk) ∧
      Filled journal records maxFiles directory top rawPath disk ∧
      rows = Journal.rowsOf (journal.volumes.drop maxFiles) ++
        storedRows disk directory (journal.kept maxFiles) ∧
      (journal.volumes.length ≤ maxFiles →
        storedRows disk directory (journal.kept maxFiles) = rows)) ∧
    ∀ other : DrainSchedule,
      (∀ number, (schedule.seen number).nanosText.length = (other.seen number).nanosText.length) →
      journal.SameButTimes (logJournal other.seen filter maxSize accepted) ∧
      ∃ ring' disk, drain.run other (ring.emitAll events).2 ready = (.ok totals, ring', disk) ∧
        Filled (logJournal other.seen filter maxSize accepted) records maxFiles directory top
          rawPath disk := by
  intro ring accepted records rows journal totals drain
  have site : Site made directory top := by
    refine ⟨(hsound.makeDirectories hmake).1, hleads, fun number => ?_⟩
    cases number with
    | zero => exact hactive
    | succ number => exact hrotated (number + 1)
  obtain ⟨hlimit, hfiles, base, slots, active, hready⟩ :=
    exists_ready hmake site (hrotated 0) (hreach 0 (Nat.zero_le _)) hopen hraw haside
  obtain ⟨hbacklog, -, hcount⟩ := (Ring.backlog_ofCapacity hcapacity).emitAll events
  have hrun : ∀ other : DrainSchedule, Reachable directory
      ((logJournal other.seen filter maxSize accepted).kept maxFiles) →
      ∃ ring' disk, drain.run other (ring.emitAll events).2 ready = (.ok totals, ring', disk) ∧
        Filled (logJournal other.seen filter maxSize accepted) records maxFiles directory top
          rawPath disk :=
    fun other hreach => hready.run hlimit hfiles hraw haside hordinary hsize filter other hreach
      hbacklog
  refine ⟨hcount.symm, tally_balances filter accepted, rfl, rfl, ?_, ?_,
    map_readBack records, ?_, ?_⟩
  · refine (matchingRows_matching schedule.seen accepted).imp ?_
    rintro row record ⟨seen, rfl⟩
    exact ⟨seen, rfl, count_lineFeed_rowBytes seen record record.path,
      getLast?_rowBytes seen record record.path, cells_rowBytes_eq seen record record.path⟩
  · intro script hscript
    have hyields := RecordReader.yields_of_steady (records.flatMap Record.encode) hscript
    rwa [streamItems_flatMap_encode] at hyields
  · obtain ⟨ring', disk, hdone, hfilled⟩ := hrun schedule hreach
    have hrows : rows = Journal.rowsOf (journal.volumes.drop maxFiles) ++
        storedRows disk directory (journal.kept maxFiles) :=
      (rows_logJournal _ _ _ _).symm.trans hfilled.log.rows_eq
    refine ⟨ring', disk, hdone, hfilled, hrows, fun hall => ?_⟩
    rw [hrows, List.drop_eq_nil_of_le hall]
    rfl
  · intro other hwidth
    have hsame := logJournal_sameButTimes hwidth filter maxSize accepted
    refine ⟨hsame, hrun other ?_⟩
    rw [Journal.kept, ← hsame.volumes.length_eq]
    exact hreach

/-- Of three records the ring takes two, and the log keeps the file of the second only. -/
theorem run_fills_both_outputs_two :
    let events : List Record := [{ group := 1 }, { group := 2 }, { group := 3 }]
    let schedule : DrainSchedule := { seen := fun _ => ⟨0, 0⟩, flushDue := fun _ => true }
    let drain : Drain := { log := begun [] 10 1 1048576, raw := some rawBeside }
    let row := rowBytes ⟨0, 0⟩ { group := 2 } "/"
    ∃ ring' disk,
      drain.run schedule ((Ring.ofCapacity 2).emitAll events).2 bothBeside =
        (.ok ⟨2, 2, 0, 0⟩, ring', disk) ∧
      storedRows disk [] 1 = [row] ∧
      disk.readBytes rawPathBeside = .ok ((events.take 2).flatMap Record.encode) := by
  intro events schedule drain row
  have hsmall : 2 ≤ 2 ^ 63 := by decide
  have haccepted : (Ring.ofCapacity 2).accepted events = events.take 2 :=
    ((Ring.backlog_ofCapacity hsmall).emitAll events).2.1
  have hvolumes : (logJournal schedule.seen {} 10 (events.take 2)).volumes.length = 2 := by
    decide +kernel
  have hkept : (logJournal schedule.seen {} 10 (events.take 2)).kept 1 = 1 := by
    rw [Journal.kept, hvolumes]
    rfl
  have hreach : Reachable [] ((logJournal schedule.seen {} 10
      ((Ring.ofCapacity 2).accepted events)).kept 1) := by
    rw [haccepted, hkept]
    intro number hnumber
    have hcases : number = 0 ∨ number = 1 := by omega
    rcases hcases with rfl | rfl <;> rfl
  have hmake : ({} : Disk).makeDirectories [] = (.ok (), {}) := rfl
  obtain ⟨-, -, -, -, -, -, -, ⟨ring', disk, hrun, hfilled, hrows, -⟩, -⟩ :=
    run_fills_both_outputs Disk.sound_empty hmake site_root.leads (site_root.free 0)
      (fun _ => Disk.find?_empty (List.cons_ne_nil _ _)) (by decide) (openIn_beside 10 1)
      rawOpened_beside (fun _ hfile => Option.some.inj hfile ▸ noLogName_beside)
      (fun _ hfile => Option.some.inj hfile ▸ nofun) hsmall events {} schedule hreach
  rw [haccepted] at hrun hfilled hrows
  refine ⟨ring', disk, hrun, ?_, hfilled.raw _ rfl⟩
  have hdropped : Journal.rowsOf
      ((logJournal schedule.seen {} 10 (events.take 2)).volumes.drop 1) =
        [rowBytes ⟨0, 0⟩ { group := 1 } "/"] := by
    decide +kernel
  rw [hkept, hdropped] at hrows
  exact (List.cons.inj hrows).2.symm

/-! ## A record that counts nine components -/

def deepRecord : Record where
  timestamp := 1
  group := 1
  depth := 9
  slots := (Vector.replicate maxDepth NameSlot.empty).set 0 (NameSlot.ofName [0x61])

/-- The record counts as written, and its raw form is refused when it is read back. -/
theorem deep_record_not_read_back :
    let schedule : DrainSchedule := { seen := fun _ => ⟨0, 0⟩, flushDue := fun _ => false }
    let drain : Drain := { log := begun [] 1048576 1 1048576, raw := some rawBeside }
    let ring := Ring.ofCapacity 4
    TraceLog.openIn {} [] 1048576 1 = (.ok drain.log, logBeside) ∧
    RawOpened logBeside (some rawPathBeside) drain.raw bothBeside ∧
    ring.accepted [deepRecord] = [deepRecord] ∧
    ∃ ring' disk bytes,
      drain.run schedule (ring.emitAll [deepRecord]).2 bothBeside =
        (.ok ⟨1, 1, 0, 0⟩, ring', disk) ∧
      disk.readBytes rawPathBeside = .ok bytes ∧
      RecordReader.items ⟨⟨bytes, []⟩, false⟩ ≠ [.ok deepRecord] := by
  intro schedule drain ring
  have hsmall : 4 ≤ 2 ^ 63 := by decide
  have hmake : ({} : Disk).makeDirectories [] = (.ok (), {}) := rfl
  have haside : ∀ file, some rawBeside = some file →
      NoLogName bothBeside [] file.handle.node :=
    fun _ hfile => Option.some.inj hfile ▸ noLogName_beside
  obtain ⟨hbacklog, haccepted, -⟩ := (Ring.backlog_ofCapacity hsmall).emitAll [deepRecord]
  obtain ⟨hlimit, hfiles, base, slots, active, hready⟩ :=
    exists_ready hmake site_root (Disk.find?_empty (List.cons_ne_nil _ _)) rfl
      (openIn_beside 1048576 1) rawOpened_beside haside
  have hkept : (logJournal schedule.seen {} 1048576 [deepRecord]).kept 1 = 0 := by
    decide +kernel
  have hreach : Reachable []
      ((logJournal schedule.seen {} 1048576 [deepRecord]).kept 1) := by
    rw [hkept]
    intro number hnumber
    obtain rfl : number = 0 := by omega
    rfl
  have htaken : (Ring.ofCapacity 4).accepted [deepRecord] = [deepRecord] := haccepted
  rw [htaken] at hbacklog
  obtain ⟨ring', disk, hrun, hfilled⟩ :=
    hready.run hlimit hfiles rawOpened_beside haside
      (fun _ hfile => Option.some.inj hfile ▸ nofun) (by decide) {} schedule hreach hbacklog
  have hsteady : ByteSource.Steady [] := nofun
  have hyields := RecordReader.yields_of_steady ([deepRecord].flatMap Record.encode) hsteady
  rw [streamItems_flatMap_encode] at hyields
  refine ⟨openIn_beside _ _, rawOpened_beside, htaken, ring', disk, _, hrun,
    hfilled.raw _ rfl, ?_⟩
  have hmatching : matching {} [deepRecord] = [deepRecord] := by decide +kernel
  rw [hmatching, hyields.1]
  decide +kernel

end Drain

end DentryWatch
