import DentryWatch.Proofs.Drain.Handling
import DentryWatch.Proofs.Drain.RawFiles
import DentryWatch.Proofs.Drain.Rounds
import DentryWatch.Proofs.TraceLog.Outputs

/-!
# Drains in front of a full device

Each of the two outputs of a drain may be a file or the device on which every
write fails. A failed push leaves its bytes in the buffer, so the last flush
reports what was lost; and a file gets all its bytes whatever becomes of the
other output.
-/

namespace DentryWatch.Drain

/-- What the outputs have taken once these records were handled. -/
structure Copied (schedule : DrainSchedule) (filter : PathFilter) (opened : TraceLog)
    (text : Bytes) (logNode : Node) (rawNode : Option Node) (ready : Disk) (done : List Record)
    (drain : Drain) (disk : Disk) : Prop where
  filter_eq : drain.filter = filter
  received : drain.summary.received = done.length
  log : drain.log.out.Output disk logNode (text ++ (matchingRows schedule.seen filter done).flatten)
  raw : RawOutput disk drain.raw rawNode ((matching filter done).flatMap Record.encode)
  maxSize : drain.log.maxSize = opened.maxSize
  size : logNode ≠ .full →
    drain.log.size = opened.size + (matchingRows schedule.seen filter done).flatten.length
  errors : logNode ≠ .full → (rawNode = some .full → matching filter done = []) →
    drain.summary.writeErrors = 0
  nodes : disk.nodes = ready.nodes

/-- No row brings the log to its limit. On the full device there is no rotation anyway. -/
def NoRotationDue (log : TraceLog) (rows : List Bytes) : Prop :=
  log.out.handle.node ≠ .full → rows ≠ [] → log.size + rows.flatten.length < log.maxSize

theorem flatMap_encode_eq_nil_iff (records : List Record) :
    records.flatMap Record.encode = [] ↔ records = [] := by
  refine ⟨fun hnone => ?_, fun hnone => hnone ▸ rfl⟩
  cases records with
  | nil => rfl
  | cons record rest =>
      have hlength := congrArg List.length hnone
      rw [List.flatMap_cons, List.length_append, Record.encode_length] at hlength
      exact absurd hlength (by simp [recordSize])

variable {schedule : DrainSchedule} {filter : PathFilter} {opened : TraceLog} {text : Bytes}
  {logNode : Node} {rawNode : Option Node} {ready disk : Disk} {records done : List Record}
  {drain : Drain} {record : Record}

theorem Copied.dropped
    (h : Copied schedule filter opened text logNode rawNode ready done drain disk)
    (hdropped : filter.accepts record.path = false) (seen : Instant) :
    Copied schedule filter opened text logNode rawNode ready (done ++ [record])
      (drain.handle disk seen record).1 (drain.handle disk seen record).2 := by
  rw [handle_of_dropped (by rw [h.filter_eq, hdropped])]
  refine ⟨h.filter_eq, ?_, ?_, ?_, h.maxSize, ?_, ?_, h.nodes⟩
  · simp [h.received]
  · rw [matchingRows_of_dropped schedule.seen done hdropped]
    exact h.log
  · rw [matching_of_dropped done hdropped]
    exact h.raw
  · rw [matchingRows_of_dropped schedule.seen done hdropped]
    exact h.size
  · rw [matching_of_dropped done hdropped]
    exact h.errors

section Outputs

variable (hapart : logNode.Apart (target rawNode)) (hnonempty : text ≠ [])

include hapart hnonempty

theorem Copied.passed
    (h : Copied schedule filter opened text logNode rawNode ready done drain disk)
    (hpassed : filter.accepts record.path = true)
    (hbelow : logNode ≠ .full →
      opened.size + (matchingRows schedule.seen filter (done ++ [record])).flatten.length <
        opened.maxSize) :
    Copied schedule filter opened text logNode rawNode ready (done ++ [record])
      (drain.handle disk (schedule.seen done.length) record).1
      (drain.handle disk (schedule.seen done.length) record).2 := by
  have hrows := matchingRows_of_passed schedule.seen done hpassed
  rw [hrows, List.flatten_append, List.flatten_singleton, List.length_append] at hbelow
  obtain ⟨logged, log, middle, hlog, hlogged, hmiddle, hlimit, hgood⟩ :=
    TraceLog.writeRecord_output h.log (by simp [hnonempty]) (schedule.seen done.length) record
      record.path fun hnode => by
        have hroom := hbelow hnode
        rw [h.size hnode, h.maxSize]
        omega
  obtain ⟨copied, raw, next, hraw, hcopied, hnext, hcopy⟩ :=
    (h.raw.touched hmiddle hapart.symm).write record
  rw [handle_of_passed (by rw [h.filter_eq, hpassed]) hlog hraw]
  refine ⟨h.filter_eq, ?_, ?_, ?_, hlimit.trans h.maxSize, ?_, ?_, ?_⟩
  · simp [h.received]
  · rw [hrows, List.flatten_append, List.flatten_singleton, ← List.append_assoc]
    exact hlogged.touched hnext hapart
  · rw [matching_of_passed done hpassed, List.flatMap_append, List.flatMap_singleton]
    exact hcopied
  · intro hnode
    rw [hrows, List.flatten_append, List.flatten_singleton, List.length_append, ← Nat.add_assoc,
      ← h.size hnode]
    exact (hgood hnode).2
  · intro hnode hnothing
    -- one record has passed, so a raw file for which nothing passed is not the device
    rw [matching_of_passed done hpassed] at hnothing
    have hfile : rawNode ≠ some .full := fun hfull => by simpa using hnothing hfull
    rw [(hgood hnode).1, hcopy hfile]
    exact h.errors hnode fun hfull => absurd hfull hfile
  · rw [hnext.nodes, hmiddle.nodes, h.nodes]

omit hnonempty in
theorem Copied.flush
    (h : Copied schedule filter opened text logNode rawNode ready done drain disk) :
    Copied schedule filter opened text logNode rawNode ready done
      (drain.flush disk).1 (drain.flush disk).2 := by
  obtain ⟨log, middle, hlog, hlogged, hmiddle, hlimit, hsize⟩ := TraceLog.flush_output h.log
  obtain ⟨raw, next, hraw, hcopied, hnext, -⟩ := (h.raw.touched hmiddle hapart.symm).flush
  have hflush : drain.flush disk = ({ drain with log, raw }, next) := by
    rw [Drain.flush, hlog]
    dsimp only
    rw [hraw]
  rw [hflush]
  refine ⟨h.filter_eq, h.received, hlogged.touched hnext hapart, hcopied, hlimit.trans h.maxSize, ?_,
    h.errors, ?_⟩
  · intro hnode
    exact hsize.trans (h.size hnode)
  · rw [hnext.nodes, hmiddle.nodes, h.nodes]

theorem invariant_copied
    (hnode : opened.out.handle.node = logNode)
    (hdue : NoRotationDue opened (matchingRows schedule.seen filter records)) :
    Invariant schedule records (Copied schedule filter opened text logNode rawNode ready) := by
  subst hnode
  refine ⟨fun done drain disk h => h.received, ?_, fun done drain disk h => h.flush hapart⟩
  intro done record drain disk hfirst h
  cases hpass : filter.accepts record.path with
  | false => exact h.dropped hpass _
  | true =>
      refine h.passed hapart hnonempty hpass fun hnode => ?_
      obtain ⟨rest, hrest⟩ := matchingRows_prefix schedule.seen filter hfirst
      have hsome : matchingRows schedule.seen filter records ≠ [] := by
        rw [← hrest, matchingRows_of_passed schedule.seen done hpass]
        simp
      have hroom := hdue hnode hsome
      rw [← hrest, List.flatten_append, List.length_append] at hroom
      omega

/-! ## The end of a drain -/

omit hapart hnonempty in
/-- The last flush reports records that the device did not take; the log is released with all. -/
theorem Copied.finish_of_lost
    (h : Copied schedule filter opened text logNode (some .full) ready records drain disk)
    (hlost : matching filter records ≠ []) :
    ∃ next, drain.finish disk = (.error (.system .noSpace), next) ∧ next.nodes = ready.nodes ∧
      ∀ inode, logNode = .file inode →
        next.content inode = text ++ (matchingRows schedule.seen filter records).flatten := by
  obtain ⟨raw, middle, hraw, hcopied, hmiddle, -⟩ := h.raw.flush
  rw [if_pos ⟨rfl, fun hnone => hlost ((flatMap_encode_eq_nil_iff _).1 hnone)⟩] at hraw
  obtain ⟨hdropped, hrows⟩ := (h.log.touched hmiddle (Node.apart_full _)).drop
  -- neither output is closed any more: both are released, the log first
  cases hcopied with
  | @present file node bytes output capacity =>
      obtain ⟨hlast, -⟩ := (output.touched hdropped (Node.apart_full _).symm).drop
      refine ⟨file.drop (drain.log.drop middle), ?_, ?_, ?_⟩
      · rw [Drain.finish, hraw]
        rfl
      · rw [TraceLog.drop, hlast.nodes, hdropped.nodes, hmiddle.nodes, h.nodes]
      · rintro inode hnode
        rw [TraceLog.drop, hlast.kept inode nofun, hrows inode hnode]

theorem Copied.finish_of_kept
    (h : Copied schedule filter opened text logNode rawNode ready records drain disk)
    (hkept : rawNode = some .full → matching filter records = []) :
    ∃ next, drain.finish disk =
        (if logNode = .full then .error (.system .noSpace) else .ok drain.summary, next) ∧
      next.nodes = ready.nodes ∧
      (∀ inode, logNode = .file inode →
        next.content inode = text ++ (matchingRows schedule.seen filter records).flatten) ∧
      ∀ inode, rawNode = some (.file inode) →
        next.content inode = (matching filter records).flatMap Record.encode := by
  obtain ⟨raw, middle, hraw, -, hmiddle, hcontent⟩ := h.raw.flush
  have hgoes : ¬ (rawNode = some .full ∧ (matching filter records).flatMap Record.encode ≠ []) :=
    fun hlost => hlost.2 ((flatMap_encode_eq_nil_iff _).2 (hkept hlost.1))
  rw [if_neg hgoes] at hraw
  obtain ⟨next, hclose, hnext, hrows⟩ :=
    TraceLog.close_output (h.log.touched hmiddle hapart) (by simp [hnonempty])
  refine ⟨next, ?_, ?_, hrows, ?_⟩
  · rw [Drain.finish, hraw]
    dsimp only
    rw [hclose]
    by_cases hnode : logNode = .full
    · rw [if_pos hnode, if_pos hnode]
    · rw [if_neg hnode, if_neg hnode]
  · rw [hnext.nodes, hmiddle.nodes, h.nodes]
  · intro inode hfile
    rw [hnext.kept inode ?_, hcontent hgoes inode hfile]
    exact fun hnode => hapart inode hnode (by rw [hfile]; rfl)

/-- The drain reports a failure exactly if an output has not got all its bytes. -/
theorem Copied.finish
    (h : Copied schedule filter opened text logNode rawNode ready records drain disk) :
    ∃ outcome next, drain.finish disk = (outcome, next) ∧ next.nodes = ready.nodes ∧
      ((∃ summary, outcome = .ok summary) ↔
        logNode ≠ .full ∧ (rawNode = some .full → matching filter records = [])) ∧
      (∀ summary, outcome = .ok summary →
        summary.writeErrors = 0 ∧ summary.received = records.length) ∧
      (∀ inode, logNode = .file inode →
        next.content inode = text ++ (matchingRows schedule.seen filter records).flatten) ∧
      ∀ inode, rawNode = some (.file inode) →
        next.content inode = (matching filter records).flatMap Record.encode := by
  by_cases hkept : rawNode = some .full → matching filter records = []
  · obtain ⟨next, hfinish, hnodes, hrows, hrecords⟩ := h.finish_of_kept hapart hnonempty hkept
    refine ⟨_, next, hfinish, hnodes, ?_, ?_, hrows, hrecords⟩
    · by_cases hnode : logNode = .full
      · rw [if_pos hnode]
        exact ⟨nofun, fun hgoes => absurd hnode hgoes.1⟩
      · exact ⟨fun _ => ⟨hnode, hkept⟩, fun _ => ⟨_, if_neg hnode⟩⟩
    · intro summary hok
      by_cases hnode : logNode = .full
      · rw [if_pos hnode] at hok
        cases hok
      · rw [if_neg hnode] at hok
        cases hok
        exact ⟨h.errors hnode hkept, h.received⟩
  · obtain ⟨rfl, hlost⟩ := Classical.not_imp.1 hkept
    obtain ⟨next, hfinish, hnodes, hrows⟩ := h.finish_of_lost hlost
    exact ⟨_, next, hfinish, hnodes, ⟨nofun, fun hgoes => absurd hgoes.2 hkept⟩, nofun, hrows,
      nofun⟩

end Outputs

/-! ## What arrived -/

/-- The rows are in the active file, and the records in the raw file if there is one. -/
structure Arrived (disk : Disk) (directory : Path) (rawPath : Option Path) (text : Bytes)
    (records : List Record) : Prop where
  rows : disk.readBytes (TraceLog.activeIn directory) = .ok text
  raw : ∀ path, rawPath = some path →
    disk.readBytes path = .ok (records.flatMap Record.encode)

theorem arrived_iff {opened : Disk} {directory : Path} {rawPath : Option Path} {log : TraceLog}
    {raw : Option BufferedFile} (hraw : RawOpened opened rawPath raw ready)
    (hrows : disk.readBytes (TraceLog.activeIn directory) = .ok text ↔ log.out.handle ≠ .full)
    (hrecords : ∀ path file, rawPath = some path → raw = some file →
      (disk.readBytes path = .ok (records.flatMap Record.encode) ↔
        (file.handle = .full → records = []))) :
    Arrived disk directory rawPath text records ↔ log.out.handle ≠ .full ∧
      ∀ file, raw = some file → file.handle = .full → records = [] := by
  rw [← hrows]
  cases hraw with
  | absent => exact ⟨fun h => ⟨h.rows, nofun⟩, fun h => ⟨h.1, nofun⟩⟩
  | present _ =>
      have hcopy := hrecords _ _ rfl rfl
      constructor
      · intro h
        refine ⟨h.rows, fun file hfile => ?_⟩
        obtain rfl := Option.some.inj hfile
        exact hcopy.1 (h.raw _ rfl)
      · rintro ⟨hrows, hnothing⟩
        refine ⟨hrows, fun path hpath => ?_⟩
        obtain rfl := Option.some.inj hpath
        exact hcopy.2 (hnothing _ rfl)

/--
The log of a directory and, if a path is given, a raw file are opened, and each may be an
ordinary file or the full device. When no rotation is due, draining a ring succeeds if and only
if every record that the ring accepted and the filter lets pass has arrived in all outputs, and
then no write error is counted. A file has everything all the same when the other output fails.
-/
theorem run_ok_iff_arrived {start opened ready : Disk} {directory : Path} {rawPath : Option Path}
    {maxSize maxFiles capacity : Nat} {log : TraceLog} {raw : Option BufferedFile}
    (hsound : start.Sound)
    (hopen : TraceLog.openIn start directory maxSize maxFiles = (.ok log, opened))
    (hraw : RawOpened opened rawPath raw ready)
    (hapart : ∀ file, raw = some file → log.out.handle.node.Apart file.handle.node)
    (hcapacity : capacity ≤ 2 ^ 63) (events : List Record) (filter : PathFilter)
    (schedule : DrainSchedule)
    (hdue : NoRotationDue log
      (matchingRows schedule.seen filter ((Ring.ofCapacity capacity).accepted events))) :
    let ring := Ring.ofCapacity capacity
    let rows := matchingRows schedule.seen filter (ring.accepted events)
    let records := matching filter (ring.accepted events)
    let text := log.stream opened ++ rows.flatten
    ∃ outcome ring' disk,
      run schedule { log, filter, raw } (ring.emitAll events).2 ready = (outcome, ring', disk) ∧
      ((∃ summary, outcome = .ok summary) ↔ Arrived disk directory rawPath text records) ∧
      ((∃ summary, outcome = .ok summary) ↔ log.out.handle ≠ .full ∧
        ∀ file, raw = some file → file.handle = .full → records = []) ∧
      (∀ summary, outcome = .ok summary →
        summary.writeErrors = 0 ∧ summary.received = (ring.accepted events).length) ∧
      (log.out.handle ≠ .full →
        disk.readBytes (TraceLog.activeIn directory) = .ok text) ∧
      ∀ path file, rawPath = some path → raw = some file → file.handle ≠ .full →
        disk.readBytes path = .ok (records.flatMap Record.encode) := by
  intro ring rows records text
  obtain ⟨made, location, hopened⟩ := TraceLog.openIn_output hsound hopen
  have hcopied : Copied schedule filter log (log.stream opened) log.out.handle.node
      (raw.map fun file => file.handle.node) ready [] { log, filter, raw } ready := by
    refine ⟨rfl, rfl, ?_, hraw.output hopened.unused, rfl, fun _ => rfl, fun _ _ => rfl, rfl⟩
    exact (List.append_nil (log.stream opened)).symm ▸ hraw.kept hopened.output hapart
  have hnodes : log.out.handle.node.Apart (target (raw.map fun file => file.handle.node)) := by
    cases raw with
    | none => exact Node.apart_full _
    | some file => exact hapart file rfl
  have hbacklog := ((Ring.backlog_ofCapacity hcapacity).emitAll events).1
  obtain ⟨drain, ring', drained, hempty, hlast, -⟩ :=
    (invariant_copied hnodes hopened.nonempty rfl hdue).empty hcopied hbacklog
  obtain ⟨outcome, disk, hfinish, hdisk, hok, hsummary, hlog, hcopy⟩ :=
    hlast.finish hnodes hopened.nonempty
  have hrun : run schedule { log, filter, raw } (ring.emitAll events).2 ready =
      (outcome, ring', disk) := by
    rw [Drain.run, hempty]
    dsimp only
    rw [hfinish]
  have hrows : disk.readBytes (TraceLog.activeIn directory) = .ok text ↔
      log.out.handle ≠ .full := by
    have hnames := (hraw.names_kept hopened.opens.names).of_nodes hdisk
    have htext : text ≠ [] :=
      fun hnothing => hopened.nonempty (List.append_eq_nil_iff.1 hnothing).1
    rw [hnames.readBytes_eq_iff hlog]
    exact forall_congr' fun _ => iff_false_intro htext
  have hrecords : ∀ path file, rawPath = some path → raw = some file →
      (disk.readBytes path = .ok (records.flatMap Record.encode) ↔
        (file.handle = .full → records = [])) := by
    intro path file hpath hfile
    rw [hraw.readBytes_eq_iff hdisk hcopy hpath hfile, flatMap_encode_eq_nil_iff]
  have hgoes : (∃ summary, outcome = .ok summary) ↔ log.out.handle ≠ .full ∧
      ∀ file, raw = some file → file.handle = .full → records = [] := by
    rw [hok, ne_eq, Handle.node_eq_full_iff]
    simp only [Option.map_eq_some_iff, Handle.node_eq_full_iff, forall_exists_index, and_imp]
    rfl
  refine ⟨outcome, ring', disk, hrun, ?_, hgoes, hsummary, hrows.2, ?_⟩
  · rw [hgoes, arrived_iff hraw hrows hrecords]
  · intro path file hpath hfile hordinary
    exact (hrecords path file hpath hfile).2 fun hfull => absurd hfull hordinary

/-! ## Raw records on the full device -/

/-- A disk with the full device under a name of its own. -/
def withDevice : Disk := ({} : Disk).put [Path.ofText "full"] .full

theorem sound_withDevice : withDevice.Sound :=
  Disk.sound_empty.put (Disk.find?_empty (List.cons_ne_nil _ _)) ⟨[], _, 2, rfl, rfl⟩ nofun

theorem openRaw_device {disk : Disk} (hroot : disk.find? [] = some (.directory 2))
    (hdevice : disk.find? [Path.ofText "full"] = some .full) :
    openRaw disk (Path.child [] "full") = .ok (⟨.full, rawBufferSize, []⟩, disk) := by
  have hproper : FileName.Proper (Path.ofText "full") :=
    ⟨by decide, by decide, by decide, by decide, by decide⟩
  have hlocate : disk.locate (Path.child [] "full") { follows := true, forFile := true } =
      .ok ([] ++ [Path.ofText "full"]) := by
    refine (Disk.leads_root rfl ⟨2, hroot⟩).locate_child hproper rfl _ (.inr fun target hlink => ?_)
    rw [List.nil_append, hdevice] at hlink
    cases hlink
  have hopen : disk.openFile (Path.child [] "full") .truncate = .ok (.full, disk) := by
    unfold Disk.openFile
    rw [show (OpenMode.truncate != .new) = true from rfl, hlocate, Disk.ok_bind, List.nil_append,
      hdevice]
    rfl
  rw [openRaw, hopen]
  rfl

/-- The record is in the log, and the drain fails for want of room for its raw form. -/
theorem run_ok_iff_arrived_device :
    let opened := (withDevice.create (TraceLog.fileAt [] 0) .file).2
    let schedule : DrainSchedule := { seen := fun _ => ⟨0, 0⟩, flushDue := fun _ => true }
    let drain : Drain :=
      { log := TraceLog.begun [] 1000 1 1048576, raw := some ⟨.full, rawBufferSize, []⟩ }
    openRaw opened (Path.child [] "full") = .ok (⟨.full, rawBufferSize, []⟩, opened) ∧
      ∃ outcome ring disk,
        drain.run schedule ((Ring.ofCapacity 4).emitAll [{}]).2 opened = (outcome, ring, disk) ∧
        (¬ ∃ summary, outcome = .ok summary) ∧
        disk.readBytes (TraceLog.activeIn []) =
          .ok (TraceLog.headerBytes ++ TraceLog.rowBytes ⟨0, 0⟩ {} "/") := by
  intro opened schedule drain
  have hraw : openRaw opened (Path.child [] "full") = .ok (⟨.full, rawBufferSize, []⟩, opened) :=
    openRaw_device rfl rfl
  have hsmall : 4 ≤ 2 ^ 63 := by decide
  have haccepted : (Ring.ofCapacity 4).accepted [{}] = [{}] :=
    ((Ring.backlog_ofCapacity hsmall).emitAll [{}]).2.1
  have hrows : matchingRows schedule.seen {} [{}] = [TraceLog.rowBytes ⟨0, 0⟩ {} "/"] := rfl
  have hmake : withDevice.makeDirectories [] = (.ok (), withDevice) := rfl
  have hopen : TraceLog.openIn withDevice [] 1000 1 =
      (.ok (TraceLog.begun [] 1000 1 1048576), opened) :=
    TraceLog.openIn_missing hmake (Disk.leads_root rfl ⟨2, rfl⟩) rfl rfl rfl 1000 1
  obtain ⟨outcome, ring, disk, hrun, -, hgoes, -, hlogged, -⟩ :=
    run_ok_iff_arrived sound_withDevice hopen (.present hraw)
      (fun file hfile => Option.some.inj hfile ▸ Node.apart_full _) hsmall [{}] {} schedule
      (by rw [haccepted, hrows]; exact fun _ _ => by decide +kernel)
  refine ⟨hraw, outcome, ring, disk, hrun, ?_, ?_⟩
  · rw [hgoes, haccepted]
    exact fun hall => nomatch hall.2 _ rfl rfl
  · rw [hlogged (by decide), haccepted, hrows]
    rfl

end DentryWatch.Drain
