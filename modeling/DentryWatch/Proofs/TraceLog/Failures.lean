import DentryWatch.Proofs.TraceLog.Files

/-!
# Rotations that fail

A rotation that fails is tried again with every further row. As long as the
buffer cannot be pushed out nothing happens to the rotated files. But a rotation
that fails for want of an active file has moved them up before, so that every
further row costs the oldest of them, until none is left.
-/

namespace DentryWatch.TraceLog

variable {base disk : Disk} {directory : Path} {top : Location} {slots : Slots} {log : TraceLog}
  {inode : Nat}

/-! ## Buffers that cannot be pushed out -/

theorem rotate_of_stuck (h : log.out.Stuck) (disk : Disk) :
    log.rotate disk = (.error .noSpace, log, disk) := by
  rw [TraceLog.rotate_eq, h.flush]

theorem run_of_stuck (h : log.out.Stuck) (disk : Disk) (step : LogStep) :
    ∃ answer log', step.run (log, disk) = (answer, (log', disk)) ∧ log'.out.Stuck := by
  cases step with
  | flush =>
      refine ⟨.error .noSpace, log, ?_, h⟩
      show log.flush disk = _
      rw [TraceLog.flush_eq, h.flush]
  | write seen record path =>
      show ∃ answer log', log.writeRecord disk seen record path = (answer, (log', disk)) ∧ _
      obtain ⟨answer, out, hwrite, hstuck⟩ := h.write disk (rowBytes seen record path)
      cases answer with
      | error code =>
          refine ⟨.error code, { log with out }, ?_, hstuck⟩
          rw [TraceLog.writeRecord_eq, ← rowBytes]
          dsimp only
          rw [hwrite]
      | ok done =>
          have hwritten : (log.written out (rowBytes seen record path)).out.Stuck := hstuck
          refine ⟨.ok (), log.written out (rowBytes seen record path), ?_, hwritten⟩
          rw [writeRecord_of_ok hwrite, rotate_of_stuck hwritten, ite_self]

theorem runAll_of_stuck (h : log.out.Stuck) (disk : Disk) (steps : List LogStep) :
    (runAll LogStep.run steps (log, disk)).2.2 = disk := by
  induction steps generalizing log with
  | nil => rfl
  | cons step rest ih =>
      obtain ⟨answer, log', hstep, hstuck⟩ := run_of_stuck h disk step
      rw [runAll_cons, hstep]
      exact ih hstuck

/-! ## Files that have moved up -/

/-- The slots after so many rotations without an active file. -/
def Slots.aged (slots : Slots) (maxFiles count : Nat) : Slots :=
  fun number =>
    if number ≤ maxFiles then
      if number ≤ count then none else slots (number - count)
    else slots number

theorem Slots.aged_zero (hgone : slots 0 = none) (maxFiles : Nat) :
    slots.aged maxFiles 0 = slots := by
  funext number
  cases number with
  | zero => simp [aged, hgone]
  | succ number => simp [aged]

theorem Slots.aged_retired (hgone : slots 0 = none) (maxFiles count : Nat) :
    (slots.retired maxFiles).aged maxFiles count = slots.aged maxFiles (count + 1) := by
  funext number
  unfold aged retired
  by_cases hkept : number ≤ maxFiles
  · rw [if_pos hkept, if_pos hkept]
    by_cases hempty : number ≤ count
    · rw [if_pos hempty, if_pos (by omega)]
    rw [if_neg hempty, if_neg (by omega), if_pos (by omega)]
    by_cases hlast : number = count + 1
    · rw [if_pos (by omega), hlast, Nat.add_sub_cancel_left, Nat.sub_self, hgone]
    · rw [if_neg (by omega), Nat.sub_sub]
  · rw [if_neg hkept, if_neg hkept, if_neg (by omega), if_neg hkept]

/-! ## Logs without an active file -/

/-- A log whose open file has lost its name, in a directory without an active file. -/
structure Stranded (base disk : Disk) (directory : Path) (top : Location) (log : TraceLog)
    (slots : Slots) (inode : Nat) : Prop where
  shelved : Shelved base disk top slots
  gone : slots 0 = none
  handle : log.out.handle = .atEnd inode
  created : inode < base.nextInode
  nameless : ∀ number stored, slots number = some stored → stored.inode ≠ inode
  directory : log.directory = directory

theorem Stranded.appended (h : Stranded base disk directory top log slots inode)
    {bytes pending : Bytes} {next : Disk} (hgrown : disk.Appended inode bytes next)
    {log' : TraceLog} (hout : log'.out = { log.out with pending })
    (hdirectory : log'.directory = log.directory) :
    Stranded base next directory top log' slots inode := by
  have hcreated : inode < disk.nextInode := Nat.lt_of_lt_of_le h.created h.shelved.nextInode_le
  have hshelved := h.shelved.touched
    (fun _ hnode => Node.file.inj hnode ▸ ⟨h.nameless, hcreated⟩) hgrown.touched
  refine ⟨hshelved, h.gone, ?_, h.created, h.nameless, hdirectory.trans h.directory⟩
  rw [hout]
  exact h.handle

section Calls

variable (site : Site base directory top) (h : Stranded base disk directory top log slots inode)
  (hsize : log.maxFiles < UInt64.size) (hreach : Reachable directory log.maxFiles)

include site h hsize hreach

/-- The rotation fails, and the rotated files have moved up. -/
theorem Stranded.rotate :
    ∃ cause next, log.rotate disk = (.error cause, log.emptied, next) ∧
      Stranded base next directory top log.emptied (slots.retired log.maxFiles) inode := by
  obtain ⟨flushed, hflush, hgrown⟩ := flush_of_atEnd h.handle disk
  have hflushed : Stranded base flushed directory top log.emptied slots inode :=
    h.appended hgrown rfl rfl
  obtain ⟨cause, next, hretire, hnext⟩ :=
    hflushed.shelved.retire_missing site hflushed.directory hsize (hreach.rotatable slots) h.gone
  exact ⟨cause, next, rotate_of_error hflush hretire, hnext, rfl, h.handle, h.created,
    Slots.Spares.retired h.nameless _, h.directory⟩

theorem Stranded.writeRecord (seen : Instant) (record : Record) (path : String) :
    ∃ log' next, log.writeRecord disk seen record path = (.ok (), log', next) ∧
      log'.maxFiles = log.maxFiles ∧ log'.maxSize = log.maxSize ∧
      log'.size = log.size + (rowBytes seen record path).length ∧
      Stranded base next directory top log'
        (if log.maxSize ≤ log.size + (rowBytes seen record path).length then
          slots.retired log.maxFiles else slots) inode := by
  obtain ⟨pending, pushed, middle, hwrite, hgrown, -⟩ :=
    BufferedFile.write_atEnd h.handle disk (rowBytes seen record path)
  have hwritten : Stranded base middle directory top
      (log.written { log.out with pending } (rowBytes seen record path)) slots inode :=
    h.appended hgrown rfl rfl
  rw [writeRecord_of_ok hwrite]
  split
  · obtain ⟨cause, next, hrotate, hnext⟩ := hwritten.rotate site hsize hreach
    refine ⟨emptied (log.written { log.out with pending } (rowBytes seen record path)), next, ?_,
      rfl, rfl, rfl, hnext⟩
    rw [hrotate]
  · exact ⟨_, middle, rfl, rfl, rfl, rfl, hwritten⟩

end Calls

theorem Stranded.flush (h : Stranded base disk directory top log slots inode) :
    ∃ next, log.flush disk = (.ok (), log.emptied, next) ∧
      Stranded base next directory top log.emptied slots inode := by
  obtain ⟨next, hflush, hgrown⟩ := flush_of_atEnd h.handle disk
  refine ⟨next, ?_, h.appended hgrown rfl rfl⟩
  rw [TraceLog.flush_eq, hflush]
  rfl

/-- How many rows ask for a rotation when none resets the size. -/
def overdue (maxSize : Nat) : Nat → List Bytes → Nat
  | _, [] => 0
  | size, row :: rows =>
      overdue maxSize (size + row.length) rows + if maxSize ≤ size + row.length then 1 else 0

/-- Every call answers that all went well, and the rotated files move up all the while. -/
theorem Stranded.runAll (site : Site base directory top)
    (h : Stranded base disk directory top log slots inode) (hsize : log.maxFiles < UInt64.size)
    (hreach : Reachable directory log.maxFiles) (steps : List LogStep) :
    ∃ log' next, runAll LogStep.run steps (log, disk) =
        (steps.map fun _ => .ok (), (log', next)) ∧
      Shelved base next top
        (slots.aged log.maxFiles
          (overdue log.maxSize log.size (steps.filterMap LogStep.row?))) := by
  induction steps generalizing log disk slots with
  | nil =>
      refine ⟨log, disk, rfl, ?_⟩
      rw [List.filterMap_nil, overdue, Slots.aged_zero h.gone]
      exact h.shelved
  | cons step rest ih =>
      cases step with
      | flush =>
          obtain ⟨middle, hflush, hmiddle⟩ := h.flush
          obtain ⟨log', next, hrest, hnext⟩ := ih hmiddle hsize hreach
          refine ⟨log', next, ?_, hnext⟩
          have hstep : LogStep.run .flush (log, disk) = _ := hflush
          rw [runAll_cons, hstep, hrest]
          rfl
      | write seen record path =>
          obtain ⟨written, middle, hwrite, hfiles, hlimit, hlength, hmiddle⟩ :=
            h.writeRecord site hsize hreach seen record path
          obtain ⟨log', next, hrest, hnext⟩ :=
            ih hmiddle (hfiles ▸ hsize) (hfiles ▸ hreach)
          refine ⟨log', next, ?_, ?_⟩
          · have hstep : LogStep.run (.write seen record path) (log, disk) = _ := hwrite
            rw [runAll_cons, hstep, hrest]
            rfl
          · rw [hfiles, hlimit, hlength] at hnext
            have hrows : (LogStep.write seen record path :: rest).filterMap LogStep.row? =
                rowBytes seen record path :: rest.filterMap LogStep.row? := rfl
            rw [hrows, overdue]
            split
            · next hdue =>
                rw [if_pos hdue, Slots.aged_retired h.gone] at hnext
                exact hnext
            · next hdue =>
                rw [if_neg hdue] at hnext
                exact hnext

/-! ## What is read back -/

/-- The rotated files are read back as before. -/
def SameHistory (directory : Path) (maxFiles : Nat) (disk next : Disk) : Prop :=
  ∀ number, 1 ≤ number → number ≤ maxFiles →
    next.readBytes (rotatedIn directory number) = disk.readBytes (rotatedIn directory number)

/-- The rotated files have moved up by so many numbers, and none has come after them. -/
def MovedUp (directory : Path) (maxFiles count : Nat) (disk next : Disk) : Prop :=
  ∀ number, 1 ≤ number → number ≤ maxFiles →
    next.readBytes (rotatedIn directory number) =
      if number ≤ count then .error .noEntry
      else disk.readBytes (rotatedIn directory (number - count))

/-- There are no rotated files. -/
def NoHistory (directory : Path) (maxFiles : Nat) (disk : Disk) : Prop :=
  ∀ number, 1 ≤ number → number ≤ maxFiles →
    disk.readBytes (rotatedIn directory number) = .error .noEntry

theorem MovedUp.sameHistory_iff {maxFiles count : Nat} {next : Disk}
    (h : MovedUp directory maxFiles count disk next) :
    SameHistory directory maxFiles disk next ↔
      count = 0 ∨ NoHistory directory maxFiles disk := by
  constructor
  · intro hsame
    refine or_iff_not_imp_left.2 fun hcount number => ?_
    induction number using Nat.strongRecOn with
    | ind number ih =>
        intro hone hkept
        rw [← hsame number hone hkept, h number hone hkept]
        split
        · rfl
        · exact ih (number - count) (by omega) (by omega) (by omega)
  · rintro (rfl | hnone) number hone hkept
    · rw [h number hone hkept, if_neg (by omega), Nat.sub_zero]
    · rw [h number hone hkept, hnone number hone hkept]
      split
      · rfl
      · exact hnone (number - count) (by omega) (by omega)

theorem rotatedIn_eq_fileIn {number : Nat} (hone : 1 ≤ number) :
    rotatedIn directory number = fileIn directory number := by
  obtain ⟨before, rfl⟩ := Nat.exists_eq_add_of_le' hone
  exact (fileIn_succ directory before).symm

theorem Shelved.movedUp (site : Site base directory top) (h : Shelved base disk top slots)
    {maxFiles count : Nat} {next : Disk} (hnext : Shelved base next top (slots.aged maxFiles count))
    (hsize : maxFiles < UInt64.size) (hreach : Reachable directory maxFiles) :
    MovedUp directory maxFiles count disk next := by
  intro number hone hkept
  rw [rotatedIn_eq_fileIn hone, hnext.readBytes site number (by omega) (hreach number hkept)]
  by_cases hlost : number ≤ count
  · rw [if_pos hlost, Slots.read, Slots.aged, if_pos hkept, if_pos hlost]
  · rw [if_neg hlost, Slots.read, Slots.aged, if_pos hkept, if_neg hlost,
      rotatedIn_eq_fileIn (by omega),
      h.readBytes site (number - count) (by omega) (hreach _ (by omega)), Slots.read]

/-! ## The headline -/

theorem Placed.stranded (h : Placed log disk top inode)
    (hgone : disk.find? (fileAt top 0) = none) :
    Stranded (cleared disk top) disk log.directory top log (slotsOf disk top) inode := by
  have hfree : slotsOf disk top 0 = none := (h.files.slotsOf_eq_none_iff 0).2 hgone
  refine ⟨h.files.shelved h.sound, hfree, h.handle, h.created, ?_, rfl⟩
  intro number stored hstored hsame
  have hfind := h.files.find?_of_slotsOf number hstored
  rw [hsame] at hfind
  cases number with
  | zero =>
      rw [hgone] at hfind
      cases hfind
  | succ number => exact h.rotated number hfind

theorem Placed.runAll (h : Placed log disk top inode)
    (hgone : disk.find? (fileAt top 0) = none) (steps : List LogStep) :
    ∃ log' next, runAll LogStep.run steps (log, disk) =
        (steps.map fun _ => .ok (), (log', next)) ∧
      MovedUp log.directory log.maxFiles
        (overdue log.maxSize log.size (steps.filterMap LogStep.row?)) disk next := by
  have site := h.files.site h.sound h.leads
  have hstranded := h.stranded hgone
  obtain ⟨log', next, hrun, hnext⟩ := hstranded.runAll site h.size h.reach steps
  exact ⟨log', next, hrun, hstranded.shelved.movedUp site hnext h.size h.reach⟩

/--
A buffer that cannot be pushed out keeps the whole disk as it is, whatever is called. In a
directory with files of a log a rotation fails otherwise if and only if the active file is
missing. Then all calls answer that all went well, while each row that asks for a rotation
moves the rotated files up by one more. So they are the same as before only if no row asks
for one, or there were none.
-/
theorem failed_rotation_moves_history_up (log : TraceLog) (disk : Disk) (steps : List LogStep) :
    (∀ code, (log.out.flush disk).1 = .error code →
      (runAll LogStep.run steps (log, disk)).2.2 = disk) ∧
    ∀ (top : Location) (inode : Nat), Placed log disk top inode →
      ((∃ cause, (log.rotate disk).1 = .error cause) ↔ disk.find? (fileAt top 0) = none) ∧
      (disk.find? (fileAt top 0) = none →
        let count := overdue log.maxSize log.size (steps.filterMap LogStep.row?)
        ∃ log' next, runAll LogStep.run steps (log, disk) =
            (steps.map fun _ => .ok (), (log', next)) ∧
          MovedUp log.directory log.maxFiles count disk next ∧
          (SameHistory log.directory log.maxFiles disk next ↔
            count = 0 ∨ NoHistory log.directory log.maxFiles disk)) := by
  refine ⟨?_, ?_⟩
  · intro code hfails
    exact runAll_of_stuck (BufferedFile.stuck_of_flush hfails) disk steps
  · intro top inode h
    refine ⟨h.rotate_fails_iff, fun hgone => ?_⟩
    obtain ⟨log', next, hrun, hmoved⟩ := h.runAll hgone steps
    exact ⟨log', next, hrun, hmoved, hmoved.sameHistory_iff⟩

/-! ## Two rotated files and no active one -/

def withoutActive : Disk :=
  ((({} : Disk).create (fileAt [] 1) .file).2.create (fileAt [] 2) .file).2

def lostLog : TraceLog where
  directory := []
  maxSize := 10
  maxFiles := 2
  out := { handle := .atEnd 5, capacity := bufferSize }
  size := 60

theorem reachable_two : Reachable [] 2 := by
  intro number hnumber
  have hcases : number = 0 ∨ number = 1 ∨ number = 2 := by omega
  rcases hcases with rfl | rfl | rfl <;> rfl

theorem site_empty : Site {} [] [] := by
  have hfree : ∀ name : FileName, ({} : Disk).find? ([] ++ [name]) = none :=
    fun name => Disk.find?_empty (List.cons_ne_nil _ _)
  exact ⟨Disk.sound_empty, Disk.leads_root rfl Disk.sound_empty.root, fun number => hfree _⟩

theorem shelved_withoutActive :
    Shelved {} withoutActive []
      (Slots.place (Slots.place (fun _ => none) 1 ⟨1048576, []⟩) 2 ⟨1048577, []⟩) :=
  (site_empty.shelved.create 1).create 2

theorem placed_lostLog : Placed lostLog withoutActive [] 5 := by
  have h := shelved_withoutActive
  refine ⟨h.sound site_empty, h.leads site_empty, h.filesOnly, reachable_two, by decide, rfl,
    by decide, ?_⟩
  intro number hfile
  rw [h.slot, Option.map_eq_some_iff] at hfile
  obtain ⟨stored, hstored, hinode⟩ := hfile
  rcases Slots.of_place hstored with ⟨-, rfl⟩ | ⟨-, hstored⟩
  · cases hinode
  rcases Slots.of_place hstored with ⟨-, rfl⟩ | ⟨-, hstored⟩
  · cases hinode
  · cases hstored

theorem find?_withoutActive : withoutActive.find? (fileAt [] 0) = none :=
  shelved_withoutActive.find?_of_none 0 rfl

/-- A row moves the rotated files up although a rotation fails, and a stuck one leaves them. -/
theorem failed_rotation_moves_history_up_two :
    let row : LogStep := .write ⟨0, 0⟩ {} "/c"
    (runAll LogStep.run [row, .flush]
        ({ lostLog with out := ⟨.full, bufferSize, [0x61]⟩ }, withoutActive)).2.2 =
      withoutActive ∧
    Placed lostLog withoutActive [] 5 ∧
    (∃ cause, (lostLog.rotate withoutActive).1 = .error cause) ∧
    ∃ log' next, runAll LogStep.run [row] (lostLog, withoutActive) = ([.ok ()], (log', next)) ∧
      next.readBytes (rotatedIn [] 1) = .error .noEntry ∧
      next.readBytes (rotatedIn [] 2) = withoutActive.readBytes (rotatedIn [] 1) := by
  intro row
  have hstuck := (failed_rotation_moves_history_up
    { lostLog with out := ⟨.full, bufferSize, [0x61]⟩ } withoutActive [row, .flush]).1 _ rfl
  obtain ⟨hfails, hrun⟩ := (failed_rotation_moves_history_up lostLog withoutActive [row]).2 [] 5
    placed_lostLog
  obtain ⟨log', next, hrun, hmoved, -⟩ := hrun find?_withoutActive
  have hcount : overdue lostLog.maxSize lostLog.size ([row].filterMap LogStep.row?) = 1 := by
    decide +kernel
  rw [hcount] at hmoved
  exact ⟨hstuck, placed_lostLog, hfails.2 find?_withoutActive, log', next, hrun,
    hmoved 1 (by decide) (by decide), hmoved 2 (by decide) (by decide)⟩

/-- A rotation that fails behind a row does not keep the rotated files. -/
theorem failed_rotation_loses_history :
    ¬ ∀ (log : TraceLog) (disk next : Disk) (seen : Instant) (record : Record) (path : String)
      (out : BufferedFile) (cause : SystemError),
      log.out.write disk (rowBytes seen record path) = (.ok (), out, next) →
      ((log.written out (rowBytes seen record path)).rotate next).1 = .error cause →
      SameHistory log.directory log.maxFiles disk (log.writeRecord disk seen record path).2.2 := by
  intro hkeeps
  have hwrite : lostLog.out.write withoutActive (rowBytes ⟨0, 0⟩ {} "/c") =
      (.ok (), ⟨.atEnd 5, bufferSize, rowBytes ⟨0, 0⟩ {} "/c"⟩, withoutActive) := by
    rw [BufferedFile.write_eq, if_neg (by decide +kernel), BufferedFile.place_eq,
      if_neg (by decide +kernel)]
    rfl
  have h := placed_lostLog
  have hplaced : Placed (lostLog.written ⟨.atEnd 5, bufferSize, rowBytes ⟨0, 0⟩ {} "/c"⟩
      (rowBytes ⟨0, 0⟩ {} "/c")) withoutActive [] 5 :=
    ⟨h.sound, h.leads, h.files, h.reach, h.size, rfl, h.created, h.rotated⟩
  obtain ⟨cause, hfails⟩ := hplaced.rotate_fails_iff.2 find?_withoutActive
  have hsame := hkeeps _ _ _ _ _ _ _ _ hwrite hfails 1 (by decide) (by decide)
  obtain ⟨log', next, hrun, hmoved⟩ :=
    h.runAll find?_withoutActive [.write ⟨0, 0⟩ {} "/c"]
  have hnext : (lostLog.writeRecord withoutActive ⟨0, 0⟩ {} "/c").2.2 = next :=
    congrArg (fun ran => ran.2.2) hrun
  have hlost := hmoved 1 (by decide) (by decide)
  have hbefore : withoutActive.readBytes (rotatedIn [] 1) = .ok [] :=
    shelved_withoutActive.readBytes site_empty 1 (by decide) rfl
  have hdue : 1 ≤ overdue lostLog.maxSize lostLog.size
      ([LogStep.write ⟨0, 0⟩ {} "/c"].filterMap LogStep.row?) := by decide +kernel
  rw [hnext] at hsame
  rw [if_pos hdue] at hlost
  have hdiffers := hlost.symm.trans (hsame.trans hbefore)
  cases hdiffers

end DentryWatch.TraceLog
