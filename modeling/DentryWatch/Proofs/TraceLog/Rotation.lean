import DentryWatch.Proofs.TraceLog.Shelves

/-!
# Rotations on the shelf

A rotation moves every file to the next number and begins a new active file. The
moves start at the oldest file, so that each goes to a free slot; the one at the
last number is removed before.
-/

namespace DentryWatch.TraceLog

namespace Slots

/-- The slots with the rotated files before a number moved up by one. -/
def shifted (slots : Slots) (steps : Nat) : Slots :=
  fun number =>
    if number = 1 then none
    else if 2 ≤ number ∧ number ≤ steps + 1 then slots (number - 1) else slots number

/-- The slots without an active file, and with all others moved up by one. -/
def retired (slots : Slots) (maxFiles : Nat) : Slots :=
  fun number =>
    if number = 0 then none
    else if number ≤ maxFiles then slots (number - 1) else slots number

theorem shifted_zero {slots : Slots} (hfree : slots 1 = none) : slots.shifted 0 = slots := by
  funext number
  rw [shifted]
  split
  · next heq => rw [heq, hfree]
  · rw [if_neg (by omega)]

theorem shifted_succ (slots : Slots) (steps : Nat) :
    (slots.move (steps + 1) (steps + 2)).shifted steps = slots.shifted (steps + 1) := by
  funext number
  rw [shifted, shifted]
  by_cases hone : number = 1
  · rw [if_pos hone, if_pos hone]
  rw [if_neg hone, if_neg hone]
  by_cases hlow : 2 ≤ number ∧ number ≤ steps + 1
  · rw [if_pos hlow, if_pos (by omega), move, if_neg (by omega), if_neg (by omega)]
  rw [if_neg hlow, move]
  by_cases hlast : number = steps + 2
  · subst hlast
    rw [if_pos rfl, if_pos (by omega)]
    rfl
  · by_cases hsource : number = steps + 1
    · subst hsource
      have hzero : steps = 0 := by omega
      exact absurd (by omega) hone
    · rw [if_neg hlast, if_neg hsource, if_neg (by omega)]

theorem retired_zero (slots : Slots) : slots.vacate 0 = slots.retired 0 := by
  funext number
  rw [vacate, retired]
  by_cases hzero : number = 0
  · rw [if_pos hzero, if_pos hzero]
  · rw [if_neg hzero, if_neg hzero, if_neg (by omega)]

theorem retired_succ (slots : Slots) (steps : Nat) :
    ((slots.vacate (steps + 1)).shifted steps).move 0 1 = slots.retired (steps + 1) := by
  funext number
  rw [move, retired]
  by_cases hzero : number = 0
  · subst hzero
    rfl
  rw [if_neg hzero]
  by_cases hone : number = 1
  · subst hone
    rw [if_pos rfl, if_neg hzero, if_pos (by omega), shifted, if_neg (by omega),
      if_neg (by omega), vacate, if_neg (by omega)]
  rw [if_neg hone, if_neg hzero, shifted, if_neg hone]
  by_cases hlow : number ≤ steps + 1
  · rw [if_pos (by omega), if_pos hlow, vacate, if_neg (by omega)]
  · rw [if_neg (by omega), if_neg hlow, vacate, if_neg (by omega)]

theorem Spares.retired {slots : Slots} {inode : Nat} (h : slots.Spares inode) (maxFiles : Nat) :
    (slots.retired maxFiles).Spares inode := by
  intro number stored hstored
  rw [Slots.retired] at hstored
  split at hstored
  · cases hstored
  split at hstored
  · exact h _ stored hstored
  · exact h _ stored hstored

/-- Without an active file the others are moved up all the same. -/
theorem shifted_of_none {slots : Slots} (hgone : slots 0 = none) (steps : Nat) :
    (slots.vacate (steps + 1)).shifted steps = slots.retired (steps + 1) := by
  have hsource : (slots.vacate (steps + 1)).shifted steps 0 = none := by
    rw [shifted, if_neg (by omega), if_neg (by omega), vacate, if_neg (by omega), hgone]
  rw [← retired_succ, move_of_none hsource rfl]

end Slots

/-- The paths that a rotation of these files uses can be looked up. -/
def Rotatable (directory : Path) (maxFiles : Nat) (slots : Slots) : Prop :=
  ∀ occupied, slots occupied ≠ none → ∀ number, number ≤ occupied + 1 → number ≤ maxFiles →
    (fileIn directory number).check = .ok ()

variable {base disk : Disk} {directory : Path} {top : Location} {slots : Slots} {log : TraceLog}

theorem Shelved.shift (site : Site base directory top) (steps : Nat)
    (h : Shelved base disk top slots) (hfree : slots (steps + 1) = none)
    (hsteps : steps + 1 < UInt64.size)
    (hcheck : ∀ i < steps, slots (i + 1) ≠ none →
      (fileIn directory (i + 1)).check = .ok () ∧ (fileIn directory (i + 2)).check = .ok ()) :
    Shelved base
      ((List.range steps).reverse.foldl
        (fun disk i =>
          attempt disk (·.rename (rotatedIn directory (i + 1)) (rotatedIn directory (i + 2))))
        disk)
      top (slots.shifted steps) := by
  induction steps generalizing disk slots with
  | zero =>
      rw [Slots.shifted_zero hfree]
      exact h
  | succ steps ih =>
      have hmoved := h.attempt_rename site (steps + 1) (steps + 2)
        (by omega) (by omega) hfree (hcheck steps (Nat.lt_succ_self _))
      simp only [fileIn_succ] at hmoved
      rw [List.range_succ, List.reverse_append, List.reverse_singleton, List.singleton_append,
        List.foldl_cons, ← Slots.shifted_succ]
      refine ih hmoved ?_ (by omega) ?_
      · rw [Slots.move, if_neg (by omega), if_pos rfl]
      · intro i hi hsome
        rw [Slots.move, if_neg (by omega), if_neg (by omega)] at hsome
        exact hcheck i (Nat.lt_succ_of_lt hi) hsome

theorem Shelved.shiftHistory (site : Site base directory top) (h : Shelved base disk top slots)
    (hdirectory : log.directory = directory) {steps : Nat} (hfiles : log.maxFiles = steps + 1)
    (hsize : steps + 1 < UInt64.size) (hcheck : Rotatable directory (steps + 1) slots) :
    Shelved base (log.shiftHistory disk) top ((slots.vacate (steps + 1)).shifted steps) := by
  have hremoved := h.attempt_removeFile site hsize fun hsome =>
    hcheck (steps + 1) hsome (steps + 1) (by omega) (by omega)
  rw [fileIn_succ] at hremoved
  have hfree : slots.vacate (steps + 1) (steps + 1) = none := by rw [Slots.vacate, if_pos rfl]
  rw [TraceLog.shiftHistory, hfiles]
  simp only [rotatedPath, hdirectory]
  refine hremoved.shift site steps hfree hsize ?_
  intro i hi hsome
  rw [Slots.vacate, if_neg (by omega)] at hsome
  exact ⟨hcheck (i + 1) hsome (i + 1) (by omega) (by omega),
    hcheck (i + 1) hsome (i + 2) (by omega) (by omega)⟩

/-- The active file is taken out of the way. -/
theorem Shelved.retire (site : Site base directory top) (h : Shelved base disk top slots)
    (hdirectory : log.directory = directory) (hsize : log.maxFiles < UInt64.size)
    (hcheck : Rotatable directory log.maxFiles slots) {active : Stored}
    (hactive : slots 0 = some active) :
    ∃ next, log.retire disk = (.ok (), next) ∧
      Shelved base next top (slots.retired log.maxFiles) := by
  have hsome : slots 0 ≠ none := by rw [hactive]; exact Option.some_ne_none _
  have hcheck0 := hcheck 0 hsome 0 (by omega) (by omega)
  cases hfiles : log.maxFiles with
  | zero =>
      obtain ⟨next, hremove, hnext⟩ := h.removeFile site (by decide) hcheck0 hactive
      have hremove' : disk.removeFile log.activePath = .ok next := by
        rw [activePath, hdirectory]
        exact hremove
      refine ⟨next, ?_, ?_⟩
      · rw [TraceLog.retire, if_pos hfiles, hremove']
      · rw [← Slots.retired_zero]
        exact hnext
  | succ steps =>
      rw [hfiles] at hsize hcheck
      have hshifted := h.shiftHistory site hdirectory hfiles hsize hcheck
      have hstays : (slots.vacate (steps + 1)).shifted steps 0 = some active := by
        rw [Slots.shifted, if_neg (by omega), if_neg (by omega), Slots.vacate, if_neg (by omega),
          hactive]
      obtain ⟨next, hrename, hnext⟩ := hshifted.rename site 0 1
        (by decide) (by decide) hcheck0 (hcheck 0 hsome 1 (by omega) (by omega)) hstays rfl
      have hrename' : (log.shiftHistory disk).rename log.activePath (log.rotatedPath 1) =
          .ok next := by
        rw [activePath, rotatedPath, hdirectory]
        exact hrename
      refine ⟨next, ?_, ?_⟩
      · rw [TraceLog.retire, if_neg (by omega)]
        simp only [hrename']
      · rw [← Slots.retired_succ]
        exact hnext

/-- Without an active file the others are moved up before the failure. -/
theorem Shelved.retire_missing (site : Site base directory top)
    (h : Shelved base disk top slots) (hdirectory : log.directory = directory)
    (hsize : log.maxFiles < UInt64.size) (hcheck : Rotatable directory log.maxFiles slots)
    (hgone : slots 0 = none) :
    ∃ cause next, log.retire disk = (.error cause, next) ∧
      Shelved base next top (slots.retired log.maxFiles) := by
  cases hfiles : log.maxFiles with
  | zero =>
      obtain ⟨cause, hfails⟩ := (h.leads site).removeFile_missing proper_activeName
        (h.find?_of_none 0 hgone)
      have hfails' : disk.removeFile log.activePath = .error cause := by
        rw [activePath, hdirectory]
        exact hfails
      refine ⟨cause, disk, ?_, ?_⟩
      · rw [TraceLog.retire, if_pos hfiles, hfails']
      · rw [← Slots.retired_zero, Slots.vacate_of_none hgone]
        exact h
  | succ steps =>
      rw [hfiles] at hsize hcheck
      have hshifted := h.shiftHistory site hdirectory hfiles hsize hcheck
      rw [Slots.shifted_of_none hgone] at hshifted
      obtain ⟨cause, hfails⟩ := (hshifted.leads site).rename_missing proper_activeName
        (hshifted.find?_of_none 0 rfl) (log.rotatedPath 1)
      have hfails' : (log.shiftHistory disk).rename log.activePath (log.rotatedPath 1) =
          .error cause := by
        rw [activePath, hdirectory]
        exact hfails
      refine ⟨cause, log.shiftHistory disk, ?_, hshifted⟩
      rw [TraceLog.retire, if_neg (by omega)]
      simp only [hfails']

/-! ## What a rotation leaves alone -/

theorem sameBytes_attempt {op : Disk → Except SystemError Disk}
    (hop : ∀ next, op disk = .ok next → disk.SameBytes next) :
    disk.SameBytes (attempt disk op) := by
  unfold attempt
  split
  · next hok => exact hop _ hok
  · exact .refl disk

theorem sameBytes_shiftHistory (log : TraceLog) (disk : Disk) :
    disk.SameBytes (log.shiftHistory disk) := by
  unfold shiftHistory
  dsimp only
  have hremoved : disk.SameBytes (attempt disk (·.removeFile (log.rotatedPath log.maxFiles))) :=
    sameBytes_attempt fun _ => Disk.sameBytes_removeFile
  refine hremoved.trans ?_
  generalize attempt disk _ = start
  generalize (List.range (log.maxFiles - 1)).reverse = numbers
  induction numbers generalizing start with
  | nil => exact .refl start
  | cons number rest ih =>
      rw [List.foldl_cons]
      exact (sameBytes_attempt fun _ => Disk.sameBytes_rename).trans (ih _)

theorem sameBytes_retire (log : TraceLog) (disk : Disk) : disk.SameBytes (log.retire disk).2 := by
  unfold retire
  split
  · split
    · next hok => exact Disk.sameBytes_removeFile hok
    · exact .refl disk
  · dsimp only
    split
    · next hok => exact (sameBytes_shiftHistory log disk).trans (Disk.sameBytes_rename hok)
    · exact sameBytes_shiftHistory log disk

/-! ## Opening the active file -/

theorem headerBytes_ne_nil : headerBytes ≠ [] := by decide

/-- A missing active file is made, and its header waits in the buffer. -/
theorem openActive_missing (hleads : disk.Leads directory top)
    (hcheck : (fileIn directory 0).check = .ok ())
    (hnone : disk.find? (fileAt top 0) = none) (hunused : disk.content disk.nextInode = []) :
    openActive disk directory =
      .ok (⟨.atEnd disk.nextInode, bufferSize, headerBytes⟩, headerBytes.length,
        (disk.create (fileAt top 0) .file).2) := by
  have hopen : disk.openFile (activeIn directory) .append =
      .ok (.atEnd disk.nextInode, (disk.create (fileAt top 0) .file).2) :=
    hleads.openFile_missing proper_activeName hcheck hnone .append
  have hempty : (disk.create (fileAt top 0) .file).2.size (.atEnd disk.nextInode) = 0 :=
    congrArg List.length hunused
  rw [openActive, hopen]
  show (if (disk.create (fileAt top 0) .file).2.size (.atEnd disk.nextInode) = 0 then _ else _) = _
  rw [if_pos hempty]

/-- The log of a directory whose active file was just made. -/
def begun (directory : Path) (maxSize maxFiles inode : Nat) : TraceLog where
  directory := directory
  maxSize := maxSize
  maxFiles := maxFiles
  out := ⟨.atEnd inode, bufferSize, headerBytes⟩
  size := headerBytes.length

theorem openIn_missing {start : Disk} (hmake : start.makeDirectories directory = (.ok (), disk))
    (hleads : disk.Leads directory top) (hcheck : (fileIn directory 0).check = .ok ())
    (hnone : disk.find? (fileAt top 0) = none) (hunused : disk.content disk.nextInode = [])
    (maxSize maxFiles : Nat) :
    openIn start directory maxSize maxFiles =
      (.ok (begun directory maxSize maxFiles disk.nextInode),
        (disk.create (fileAt top 0) .file).2) := by
  rw [openIn, hmake]
  dsimp only
  rw [openActive_missing hleads hcheck hnone hunused]
  rfl

theorem Shelved.openActive_new (site : Site base directory top) (h : Shelved base disk top slots)
    (hcheck : (fileIn directory 0).check = .ok ()) (hnone : slots 0 = none) :
    openActive disk directory =
        .ok (⟨.atEnd disk.nextInode, bufferSize, headerBytes⟩, headerBytes.length,
          (disk.create (fileAt top 0) .file).2) ∧
      Shelved base (disk.create (fileAt top 0) .file).2 top
        (slots.place 0 ⟨disk.nextInode, []⟩) :=
  ⟨openActive_missing (h.leads site) hcheck (h.find?_of_none 0 hnone) (h.unused _ (Nat.le_refl _)),
    h.create 0⟩

/-- An active file that is there is written on. -/
theorem Shelved.openActive_old (site : Site base directory top) (h : Shelved base disk top slots)
    (hcheck : (fileIn directory 0).check = .ok ()) {active : Stored}
    (hactive : slots 0 = some active) (hfilled : active.text ≠ []) :
    openActive disk directory =
      .ok (⟨.atEnd active.inode, bufferSize, []⟩, active.text.length, disk) := by
  have hopen : disk.openFile (activeIn directory) .append = .ok (.atEnd active.inode, disk) :=
    (h.leads site).openFile_file proper_activeName hcheck (h.find?_of_some 0 hactive)
  have hsize : disk.size (.atEnd active.inode) = active.text.length :=
    congrArg List.length (h.text 0 active hactive)
  rw [openActive, hopen]
  show (if disk.size (.atEnd active.inode) = 0 then _ else _) = _
  rw [if_neg, hsize]
  rw [hsize]
  exact fun hzero => hfilled (List.eq_nil_of_length_eq_zero hzero)

end DentryWatch.TraceLog
