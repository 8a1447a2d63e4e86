import DentryWatch.Proofs.TraceLog.Ledgers

/-!
# Logs on a shelf

An open log in a directory where all its files are ordinary files. Whichever pushes are
turned away, its calls keep it so, and change no file past the limit. A rotation fails
only for a push that is turned away; one that succeeds moves the files up to the limit by
one number, and begins a file that has only the header.
-/

namespace DentryWatch.TraceLog

variable {base disk after : Disk} {directory : Path} {top : Location} {slots : Slots}
  {log next : TraceLog} {active : Stored} {maxFiles : Nat} {refusals rest : Refusals}
  {answer : Except SystemError Unit}

/-- An open log on a shelf. Its open file is the active one. -/
structure Serving (base disk : Disk) (directory : Path) (top : Location) (log : TraceLog)
    (slots : Slots) (active : Stored) : Prop where
  shelved : Shelved base disk top slots
  slot : slots 0 = some active
  handle : log.out.handle = .atEnd active.inode
  directory : log.directory = directory

theorem Slots.place_zero_of_pos (slots : Slots) (stored : Stored) {number : Nat}
    (hpos : 0 < number) : slots.place 0 stored number = slots number := by
  rw [Slots.place, if_neg (Nat.ne_of_gt hpos)]

/-- The slots with each file up to the limit moved up by one, and no change past the limit. -/
structure Slots.Advanced (slots : Slots) (maxFiles : Nat) (slots' : Slots) : Prop where
  kept : ∀ number, 1 ≤ number → number ≤ maxFiles →
    (slots' number).map Stored.inode = (slots (number - 1)).map Stored.inode
  past : ∀ number, maxFiles < number → slots' number = slots number

/-- A rotation after the active file was written. -/
theorem Slots.advanced_retired (h : slots 0 = some active) (text : Bytes) (fresh : Stored)
    (maxFiles : Nat) :
    slots.Advanced maxFiles
      (((slots.place 0 ⟨active.inode, text⟩).retired maxFiles).place 0 fresh) := by
  refine ⟨fun number hone hkept => ?_, fun number hpast => ?_⟩
  · rw [Slots.place_zero_of_pos _ _ hone, Slots.retired, if_neg (by omega), if_pos hkept, Slots.place]
    split
    · next hzero =>
        rw [hzero, h]
        rfl
    · rfl
  · have hpos := Nat.zero_lt_of_lt hpast
    rw [Slots.place_zero_of_pos _ _ hpos, Slots.retired, if_neg (by omega), if_neg (by omega),
      Slots.place_zero_of_pos _ _ hpos]

/-- No change past the limit. -/
def Slots.SamePast (slots : Slots) (maxFiles : Nat) (slots' : Slots) : Prop :=
  ∀ number, maxFiles < number → slots' number = slots number

theorem Slots.SamePast.trans {slots' slots'' : Slots} (h : slots.SamePast maxFiles slots')
    (hmore : slots'.SamePast maxFiles slots'') : slots.SamePast maxFiles slots'' :=
  fun number hpast => (hmore number hpast).trans (h number hpast)

theorem Slots.samePast_place (slots : Slots) (maxFiles : Nat) (stored : Stored) :
    slots.SamePast maxFiles (slots.place 0 stored) :=
  fun _ hpast => slots.place_zero_of_pos stored (Nat.zero_lt_of_lt hpast)

/-! ## Rotations -/

theorem Serving.appends (h : Serving base disk directory top log slots active) :
    log.out.handle.Appends :=
  h.handle ▸ nofun

/-- Bytes that are pushed out go to the active file. -/
theorem Serving.moved (h : Serving base disk directory top log slots active) {bytes : Bytes}
    (hmoved : log.out.Moved disk bytes next.out after)
    (hdirectory : next.directory = log.directory) :
    ∃ text, Serving base after directory top next (slots.place 0 ⟨active.inode, text⟩)
      ⟨active.inode, text⟩ := by
  obtain ⟨pushed, hgrown, -⟩ := hmoved.grown
  rw [h.handle] at hgrown
  exact ⟨_, h.shelved.append h.slot hgrown.appended, rfl, hmoved.handle.trans h.handle,
    hdirectory.trans h.directory⟩

section Rotations

variable (h : Serving base disk directory top log slots active) (site : Site base directory top)
  (hsize : log.maxFiles < UInt64.size) (hreach : Reachable directory log.maxFiles)

include h site hsize hreach

/-- Once the buffer is pushed out nothing stops a rotation. The new file is one of its own. -/
theorem Serving.retire {out : BufferedFile} {flushed : Disk}
    (hflush : log.out.flushUnder refusals disk = ((.ok (), out, flushed), rest)) :
    ∃ retired slots',
      TraceLog.retire { log with out } flushed = (.ok (), retired) ∧
      openActive retired log.directory =
        .ok (⟨.atEnd retired.nextInode, bufferSize, headerBytes⟩, headerBytes.length,
          (retired.create (fileAt top 0) .file).2) ∧
      Shelved base (retired.create (fileAt top 0) .file).2 top slots' ∧
      slots' 0 = some ⟨retired.nextInode, []⟩ ∧ slots.Advanced log.maxFiles slots' ∧
      .atEnd retired.nextInode ≠ log.out.handle := by
  have hmoved := (BufferedFile.flushUnder_moved h.appends hflush).1
  obtain ⟨text, hflushed⟩ : ∃ text, Serving base flushed directory top { log with out }
      (slots.place 0 ⟨active.inode, text⟩) ⟨active.inode, text⟩ := h.moved hmoved rfl
  obtain ⟨retired, hretire, hretired⟩ :=
    hflushed.shelved.retire site hflushed.directory hsize (hreach.rotatable _) hflushed.slot
  obtain ⟨hopen, hnew⟩ := hretired.openActive_new site (hreach 0 (Nat.zero_le _)) rfl
  refine ⟨retired, _, hretire, ?_, hnew, rfl, slots.advanced_retired h.slot _ _ _, ?_⟩
  · rw [h.directory, hopen]
  · -- the number of the new file is one that no file had
    have hold := hflushed.shelved.numbered 0 _ hflushed.slot
    have hbytes := (sameBytes_retire { log with out } flushed).nextInode
    rw [hretire] at hbytes
    rw [h.handle, ne_eq, Handle.atEnd.injEq, hbytes]
    exact Nat.ne_of_gt hold

theorem Serving.turned (hrotates : Rotates log refusals disk (.ok ()) next after rest) :
    next.maxFiles = log.maxFiles ∧ next.stream after = headerBytes ∧
      next.out.handle ≠ log.out.handle ∧
      ∃ slots' active', Serving base after directory top next slots' active' ∧
        slots.Advanced log.maxFiles slots' := by
  cases hrotates with
  | turned flush retire opening =>
      obtain ⟨retired, slots', hretire, hopen, hnew, hslot, hmoved, hother⟩ :=
        h.retire site hsize hreach flush
      cases retire.symm.trans hretire
      cases opening.symm.trans hopen
      exact ⟨rfl, congrArg (· ++ headerBytes) (hnew.text 0 _ hslot), hother, slots', _,
        ⟨hnew, hslot, rfl, h.directory⟩, hmoved⟩

/-- A rotation that fails was refused its push, and has moved no file. -/
theorem Serving.failed {cause : SystemError}
    (hrotates : Rotates log refusals disk (.error cause) next after rest) :
    log.out.flushUnder refusals disk = ((.error cause, next.out, after), rest) ∧
      next.directory = log.directory ∧ next.maxFiles = log.maxFiles := by
  cases hrotates with
  | refused flush => exact ⟨flush, rfl, rfl⟩
  | stuck flush retire =>
      obtain ⟨retired, slots', hretire, -⟩ := h.retire site hsize hreach flush
      cases retire.symm.trans hretire
  | unopened flush retire opening =>
      obtain ⟨retired, slots', hretire, hopen, -⟩ := h.retire site hsize hreach flush
      cases retire.symm.trans hretire
      cases opening.symm.trans hopen

/-- Without refusals every rotation succeeds. -/
theorem Serving.turned_of_nil (hrotates : Rotates log [] disk answer next after rest) :
    answer = .ok () := by
  cases answer with
  | ok done => rfl
  | error cause =>
      have hfailed := (h.failed site hsize hreach hrotates).1
      obtain ⟨flushed, hflush, -⟩ := flush_of_atEnd h.handle disk
      rw [BufferedFile.flushUnder_nil, hflush] at hfailed
      cases hfailed

theorem Serving.rotate :
    ∃ next after slots' active', log.rotate disk = (.ok (), next, after) ∧
      Serving base after directory top next slots' active' ∧
      slots.Advanced log.maxFiles slots' := by
  rcases hrotate : log.rotate disk with ⟨answer, ⟨next, after⟩⟩
  have hrotates : Rotates log [] disk answer next after [] :=
    rotates_of_rotateUnder ((rotateUnder_nil log disk).trans (by rw [hrotate]))
  obtain rfl := h.turned_of_nil site hsize hreach hrotates
  obtain ⟨-, -, -, slots', active', hnext, hmoved⟩ := h.turned site hsize hreach hrotates
  exact ⟨next, after, slots', active', rfl, hnext, hmoved⟩

end Rotations

/-! ## Calls -/

/-- A log with the given limit that has been called since its files were on these slots. -/
structure Served (base : Disk) (directory : Path) (top : Location) (maxFiles : Nat)
    (slots : Slots) (log : TraceLog) (disk : Disk) : Prop where
  serving : ∃ slots' active, Serving base disk directory top log slots' active ∧
    slots.SamePast maxFiles slots'
  maxFiles : log.maxFiles = maxFiles

theorem Serving.served (h : Serving base disk directory top log slots active) :
    Served base directory top log.maxFiles slots log disk :=
  ⟨⟨slots, active, h, fun _ _ => rfl⟩, rfl⟩

theorem Served.appends (h : Served base directory top maxFiles slots log disk) :
    log.out.handle.Appends := by
  obtain ⟨slots', active, hserving, -⟩ := h.serving
  exact hserving.appends

theorem Served.moved (h : Served base directory top maxFiles slots log disk) {bytes : Bytes}
    (hmoved : log.out.Moved disk bytes next.out after) (hdirectory : next.directory = log.directory)
    (hfiles : next.maxFiles = log.maxFiles) :
    Served base directory top maxFiles slots next after := by
  obtain ⟨slots', active, hserving, hpast⟩ := h.serving
  obtain ⟨text, hnext⟩ := hserving.moved hmoved hdirectory
  exact ⟨⟨_, _, hnext, hpast.trans (slots'.samePast_place _ _)⟩, hfiles.trans h.maxFiles⟩

section Calls

variable (h : Served base directory top maxFiles slots log disk) (site : Site base directory top)
  (hsize : maxFiles < UInt64.size) (hreach : Reachable directory maxFiles)

include h site hsize hreach

theorem Served.rotate (hrotates : Rotates log refusals disk answer next after rest) :
    Served base directory top maxFiles slots next after ∧
      (answer = .ok () → next.stream after = headerBytes ∧ next.out.handle ≠ log.out.handle) := by
  obtain ⟨⟨slots', active, hserving, hpast⟩, rfl⟩ := h
  cases answer with
  | error cause =>
      obtain ⟨hflush, hdirectory, hfiles⟩ := hserving.failed site hsize hreach hrotates
      have hmoved := (BufferedFile.flushUnder_moved hserving.appends hflush).1
      obtain ⟨text, hnext⟩ := hserving.moved hmoved hdirectory
      refine ⟨⟨⟨_, _, hnext, hpast.trans (slots'.samePast_place _ _)⟩, hfiles⟩, fun hok => ?_⟩
      cases hok
  | ok done =>
      obtain ⟨hfiles, hstream, hother, slots'', active', hnext, hadvanced⟩ :=
        hserving.turned site hsize hreach hrotates
      exact ⟨⟨⟨slots'', active', hnext, hpast.trans hadvanced.past⟩, hfiles⟩,
        fun _ => ⟨hstream, hother⟩⟩

theorem Served.write {row : Bytes} {outcome : Outcome}
    (hwrites : Writes log refusals disk row answer next after rest outcome) :
    Served base directory top maxFiles slots next after ∧
      (outcome = .turned → next.stream after = headerBytes ∧ next.out.handle ≠ log.out.handle) := by
  cases hwrites with
  | refused write =>
      have hmoved := BufferedFile.writeUnder_moved h.appends write
      exact ⟨h.moved hmoved rfl rfl, nofun⟩
  | kept write =>
      have hmoved := BufferedFile.writeUnder_moved h.appends write
      exact ⟨h.moved hmoved rfl rfl, nofun⟩
  | unturned write rotate =>
      have hmoved := BufferedFile.writeUnder_moved h.appends write
      have hwritten : Served base directory top maxFiles slots (log.written _ row) _ :=
        h.moved hmoved rfl rfl
      exact ⟨(hwritten.rotate site hsize hreach rotate).1, nofun⟩
  | turned write rotate =>
      have hmoved := BufferedFile.writeUnder_moved h.appends write
      have hwritten : Served base directory top maxFiles slots (log.written _ row) _ :=
        h.moved hmoved rfl rfl
      obtain ⟨hnext, hnew⟩ := hwritten.rotate site hsize hreach rotate
      obtain ⟨hstream, hother⟩ := hnew rfl
      exact ⟨hnext, fun _ => ⟨hstream, hmoved.handle ▸ hother⟩⟩

theorem Served.run {step : LogStep}
    (hrun : step.runUnder ((log, disk), refusals) = (answer, ((next, after), rest))) :
    Served base directory top maxFiles slots next after := by
  cases step with
  | write seen record path =>
      have hwrites := writes_of_writeRecordUnder (writeRecordUnder_of_run hrun)
      exact (h.write site hsize hreach hwrites).1
  | flush =>
      have hflush := flushUnder_of_run hrun
      rcases hout : log.out.flushUnder refusals disk with ⟨⟨flushed, out, middle⟩, left⟩
      rw [flushUnder, hout] at hflush
      cases hflush
      exact h.moved (BufferedFile.flushUnder_moved h.appends hout).1 rfl rfl

end Calls

theorem Served.runAll (site : Site base directory top) (hsize : maxFiles < UInt64.size)
    (hreach : Reachable directory maxFiles)
    (h : Served base directory top maxFiles slots log disk) (steps : List LogStep)
    {answers : List (Except SystemError Unit)}
    (hrun : runAll LogStep.runUnder steps ((log, disk), refusals) =
      (answers, ((next, after), rest))) :
    Served base directory top maxFiles slots next after := by
  induction steps generalizing log disk refusals answers with
  | nil =>
      cases hrun
      exact h
  | cons step more ih =>
      rcases hstep : step.runUnder ((log, disk), refusals) with ⟨first, ⟨⟨fresh, middle⟩, left⟩⟩
      rcases hmore : DentryWatch.runAll LogStep.runUnder more ((fresh, middle), left) with
        ⟨others, ⟨⟨last, final⟩, unused⟩⟩
      rw [runAll_cons, hstep, hmore] at hrun
      cases hrun
      exact ih (h.run site hsize hreach hstep) hmore

/-- Without refusals every rotation that is due succeeds. -/
theorem Served.outcomeUnder_nil (site : Site base directory top) (hsize : maxFiles < UInt64.size)
    (hreach : Reachable directory maxFiles)
    (h : Served base directory top maxFiles slots log disk) (row : Bytes) :
    log.outcomeUnder [] disk row =
      if log.maxSize ≤ log.size + row.length then .turned else .kept := by
  obtain ⟨⟨slots', active, hserving, -⟩, rfl⟩ := h
  obtain ⟨pending, pushed, middle, hwrite, -⟩ :=
    BufferedFile.write_atEnd hserving.handle disk row
  have hout := BufferedFile.writeUnder_nil log.out disk row
  rw [hwrite] at hout
  obtain ⟨text, hwritten⟩ : ∃ text, Serving base middle directory top
      (log.written { log.out with pending } row) (slots'.place 0 ⟨active.inode, text⟩)
      ⟨active.inode, text⟩ :=
    hserving.moved (BufferedFile.writeUnder_moved hserving.appends hout) rfl
  rcases hrotate : (log.written { log.out with pending } row).rotateUnder [] middle with
    ⟨⟨rotated, fresh, last⟩, rest⟩
  have hturned := hwritten.turned_of_nil site hsize hreach (rotates_of_rotateUnder hrotate)
  rw [outcomeUnder, hout]
  dsimp only
  rw [hrotate, hturned]

/-! ## Opening -/

/-- An active file that is there is opened at its end, and the disk stays as it is. -/
theorem openActive_of_openFile {handle : Handle}
    (hopen : disk.openFile (activeIn directory) .append = .ok (handle, disk)) :
    ∃ out size, openActive disk directory = .ok (out, size, disk) ∧ out.handle = handle := by
  rw [openActive, hopen]
  show ∃ out size, (if disk.size handle = 0 then _ else _) = _ ∧ _
  split
  · exact ⟨_, _, rfl, rfl⟩
  · exact ⟨_, _, rfl, rfl⟩

/-- Opening a log makes the active file if it is missing, and changes no other. -/
theorem FilesOnly.openIn (hfiles : FilesOnly disk top) (hsound : disk.Sound)
    (hleads : disk.Leads directory top) (hcheck : (fileIn directory 0).check = .ok ())
    (maxSize maxFiles : Nat) :
    ∃ log opened slots active, openIn disk directory maxSize maxFiles = (.ok log, opened) ∧
      log.maxFiles = maxFiles ∧
      Serving (cleared disk top) opened directory top log slots active ∧
      ∀ number, 0 < number → slots number = slotsOf disk top number := by
  have hshelved := hfiles.shelved hsound
  have hmake := hleads.makeDirectories (Path.check_of_child proper_activeName hcheck)
  cases hslot : slotsOf disk top 0 with
  | none =>
      have hnone := (hfiles.slotsOf_eq_none_iff 0).1 hslot
      exact ⟨_, _, _, ⟨disk.nextInode, []⟩, openIn_missing hmake hleads hcheck hnone
        (hsound.unused _ (Nat.le_refl _)) maxSize maxFiles, rfl,
        ⟨hshelved.create 0, rfl, rfl, rfl⟩, fun _ => Slots.place_zero_of_pos _ _⟩
  | some active =>
      have hfind := hfiles.find?_of_slotsOf 0 hslot
      have hopen : disk.openFile (activeIn directory) .append = .ok (.atEnd active.inode, disk) :=
        hleads.openFile_file proper_activeName hcheck hfind
      obtain ⟨out, size, hactive, hhandle⟩ := openActive_of_openFile hopen
      refine ⟨⟨directory, maxSize, maxFiles, out, size, 0⟩, disk, slotsOf disk top, active, ?_, rfl,
        ⟨hshelved, hslot, hhandle, rfl⟩, fun _ _ => rfl⟩
      rw [TraceLog.openIn, hmake]
      dsimp only
      rw [hactive]

end DentryWatch.TraceLog
