import DentryWatch.Proofs.TraceLog.Serving

/-!
# Files past the limit

A rotation moves the files up to the last number that is kept. It does not look past
it: what an earlier log with a larger limit has left there stays as it is, whatever
is written, and no rotation brings the directory back to its limit.
-/

namespace DentryWatch.TraceLog

variable {base disk : Disk} {top : Location} {slots : Slots}

/-! ## The headline -/

/-- At the location is the same file with the same bytes, or none as before. -/
def SameFile (disk next : Disk) (location : Location) : Prop :=
  next.find? location = disk.find? location ∧
    ∀ inode, disk.find? location = some (.file inode) → next.content inode = disk.content inode

theorem Shelved.sameFile {next : Disk} {slots' : Slots} (h : Shelved base disk top slots)
    (hnext : Shelved base next top slots') {number : Nat} (hsame : slots' number = slots number) :
    SameFile disk next (fileAt top number) := by
  refine ⟨by rw [h.slot, hnext.slot, hsame], fun inode hfind => ?_⟩
  rw [h.slot, Option.map_eq_some_iff] at hfind
  obtain ⟨stored, hstored, hinode⟩ := hfind
  obtain rfl := Node.file.inj hinode
  rw [h.text number stored hstored, hnext.text number stored (hsame.trans hstored)]

/-- A rotation moves the files up to the limit. -/
theorem Slots.Advanced.find? {next : Disk} {slots' : Slots} {maxFiles : Nat}
    (hmoved : slots.Advanced maxFiles slots') (h : Shelved base disk top slots)
    (hnext : Shelved base next top slots') {number : Nat} (hone : 1 ≤ number)
    (hkept : number ≤ maxFiles) :
    next.find? (fileAt top number) = disk.find? (fileAt top (number - 1)) := by
  have hinode := congrArg (Option.map Node.file) (hmoved.kept number hone hkept)
  rw [Option.map_map, Option.map_map] at hinode
  rw [hnext.slot, h.slot]
  exact hinode

/--
In a directory with files of a log, of whatever numbers, a log is opened and written to.
Then a rotation succeeds and moves each file up to the limit by one number. But none of the
files past the limit is touched, by it or by any call before. So there is none after it only
if there was none when the log was opened.
-/
theorem rotation_keeps_files_past_limit (disk : Disk) (directory : Path) (top : Location)
    (maxSize maxFiles : Nat) (steps : List LogStep) (hsound : disk.Sound)
    (hleads : disk.Leads directory top) (hfiles : FilesOnly disk top)
    (hsize : maxFiles < UInt64.size) (hreach : Reachable directory maxFiles) :
    ∃ log opened log' before rotated next,
      openIn disk directory maxSize maxFiles = (.ok log, opened) ∧
      (runAll LogStep.run steps (log, opened)).2 = (log', before) ∧
      log'.rotate before = (.ok (), rotated, next) ∧
      (∀ number, 1 ≤ number → number ≤ maxFiles →
        next.find? (fileAt top number) = before.find? (fileAt top (number - 1))) ∧
      (∀ number, maxFiles < number → SameFile disk before (fileAt top number) ∧
        SameFile disk next (fileAt top number)) ∧
      ((∀ number, maxFiles < number → next.find? (fileAt top number) = none) ↔
        ∀ number, maxFiles < number → disk.find? (fileAt top number) = none) := by
  have site := hfiles.site hsound hleads
  have hstart := hfiles.shelved hsound
  obtain ⟨log, opened, slots, active, hopen, rfl, hlog, hold⟩ :=
    hfiles.openIn hsound hleads (hreach 0 (Nat.zero_le _)) maxSize maxFiles
  rcases hrun : runAll LogStep.run steps (log, opened) with ⟨answers, ⟨log', before⟩⟩
  have hserved := hlog.served.runAll site hsize hreach steps
    ((runAll_runUnder_nil steps (log, opened)).trans (by rw [hrun]))
  obtain ⟨⟨slots', active', hbefore, hpast⟩, hlimit⟩ := hserved
  rw [← hlimit] at hsize hreach
  obtain ⟨rotated, next, slots'', active'', hrotate, hnext, hmoved⟩ :=
    hbefore.rotate site hsize hreach
  rw [hlimit] at hmoved
  have hkept : ∀ number, log.maxFiles < number → slots' number = slotsOf disk top number :=
    fun number hlt => (hpast number hlt).trans (hold number (Nat.zero_lt_of_lt hlt))
  have hsame : ∀ number, log.maxFiles < number → SameFile disk next (fileAt top number) :=
    fun number hlt =>
      hstart.sameFile hnext.shelved ((hmoved.past number hlt).trans (hkept number hlt))
  refine ⟨log, opened, log', before, rotated, next, hopen, by rw [hrun], hrotate, ?_, ?_, ?_⟩
  · exact fun number => hmoved.find? hbefore.shelved hnext.shelved
  · exact fun number hlt =>
      ⟨hstart.sameFile hbefore.shelved (hkept number hlt), hsame number hlt⟩
  · constructor
    · exact fun hnone number hlt => (hsame number hlt).1 ▸ hnone number hlt
    · exact fun hnone number hlt => (hsame number hlt).1.trans (hnone number hlt)

/-! ## Two rotated files and a limit of one -/

theorem sound_withoutActive : withoutActive.Sound := shelved_withoutActive.sound site_empty

theorem leads_withoutActive : withoutActive.Leads [] [] := shelved_withoutActive.leads site_empty

theorem filesOnly_withoutActive : FilesOnly withoutActive [] := shelved_withoutActive.filesOnly

theorem reachable_one : Reachable [] 1 :=
  fun number hnumber => reachable_two number (Nat.le_succ_of_le hnumber)

theorem find?_withoutActive_two : withoutActive.find? (fileAt [] 2) = some (.file 1048577) :=
  shelved_withoutActive.find?_of_some 2 rfl

/-- A log with a limit of one leaves the second rotated file where it was. -/
theorem rotation_keeps_files_past_limit_two :
    withoutActive.Sound ∧ withoutActive.Leads [] [] ∧ FilesOnly withoutActive [] ∧
      1 < UInt64.size ∧ Reachable [] 1 ∧
      ∃ log opened log' before rotated next,
        openIn withoutActive [] 1000 1 = (.ok log, opened) ∧
        (runAll LogStep.run [.write ⟨0, 0⟩ {} "/a", .flush] (log, opened)).2 = (log', before) ∧
        log'.rotate before = (.ok (), rotated, next) ∧
        next.find? (fileAt [] 1) = before.find? (fileAt [] 0) ∧
        next.find? (fileAt [] 2) = some (.file 1048577) := by
  obtain ⟨log, opened, log', before, rotated, next, hopen, hrun, hrotate, hmoved, hpast, -⟩ :=
    rotation_keeps_files_past_limit withoutActive [] [] 1000 1 [.write ⟨0, 0⟩ {} "/a", .flush]
      sound_withoutActive leads_withoutActive filesOnly_withoutActive (by decide) reachable_one
  refine ⟨sound_withoutActive, leads_withoutActive, filesOnly_withoutActive, by decide,
    reachable_one, log, opened, log', before, rotated, next, hopen, hrun, hrotate,
    hmoved 1 (by decide) (by decide), ?_⟩
  rw [(hpast 2 (by decide)).2.1, find?_withoutActive_two]

/-- A rotation that succeeds does not delete the files past the limit. -/
theorem rotation_leaves_second_file :
    ¬ ∀ (disk : Disk) (directory : Path) (top : Location) (maxSize maxFiles : Nat)
      (steps : List LogStep) (log log' rotated : TraceLog) (opened before next : Disk),
      disk.Sound → disk.Leads directory top → FilesOnly disk top → maxFiles < UInt64.size →
      Reachable directory maxFiles →
      openIn disk directory maxSize maxFiles = (.ok log, opened) →
      (runAll LogStep.run steps (log, opened)).2 = (log', before) →
      log'.rotate before = (.ok (), rotated, next) →
      ∀ number, maxFiles < number → next.find? (fileAt top number) = none := by
  intro hdeletes
  have site := filesOnly_withoutActive.site sound_withoutActive leads_withoutActive
  have hstart := filesOnly_withoutActive.shelved sound_withoutActive
  obtain ⟨log, opened, slots, active, hopen, hlimit, hlog, hold⟩ :=
    filesOnly_withoutActive.openIn sound_withoutActive leads_withoutActive
      (reachable_one 0 (by decide)) 1000 1
  obtain ⟨rotated, next, slots', active', hrotate, hnext, hmoved⟩ :=
    hlog.rotate site (hlimit ▸ by decide) (hlimit ▸ reachable_one)
  have hgone := hdeletes withoutActive [] [] 1000 1 [] log log rotated opened opened next
    sound_withoutActive leads_withoutActive filesOnly_withoutActive (by decide) reachable_one hopen
    rfl hrotate 2 (by decide)
  have hkept : slots' 2 = slotsOf withoutActive [] 2 :=
    (hmoved.past 2 (hlimit ▸ by decide)).trans (hold 2 (by decide))
  rw [(hstart.sameFile hnext.shelved hkept).1, find?_withoutActive_two] at hgone
  cases hgone

end DentryWatch.TraceLog
