import DentryWatch.Proofs.Disk.Directories
import DentryWatch.Proofs.TraceLog.Lines
import DentryWatch.Proofs.TraceLog.Sessions

/-!
# A log keeps exactly its newest rows

Whatever sessions write, the rotated files are the newest volumes of their
journal under the numbers from one on, and the rows read back from the oldest
file to the active one are the last rows that were written.
-/

namespace DentryWatch.TraceLog

def rowsAt (disk : Disk) (path : Path) : List Bytes :=
  match disk.readBytes path with
  | .ok text => dataRows text
  | .error _ => []

/-- The rows read back from so many rotated files, the oldest first, and the active file. -/
def storedRows (disk : Disk) (directory : Path) (count : Nat) : List Bytes :=
  ((List.range count).reverse.flatMap fun i => rowsAt disk (rotatedIn directory (i + 1))) ++
    rowsAt disk (activeIn directory)

def Journal.kept (journal : Journal) (maxFiles : Nat) : Nat := min journal.volumes.length maxFiles

/-- The header is where a text begins and nowhere else. -/
def HasHeader (text : Bytes) : Prop :=
  (∃ rest, text = headerBytes ++ rest) ∧
    ∀ before after, text = before ++ headerBytes ++ after → before = []

/-- A directory keeps the newest volumes of a journal, and the active one. -/
structure KeepsNewest (journal : Journal) (maxFiles : Nat) (directory : Path) (top : Location)
    (disk : Disk) : Prop where
  present : ∀ number, disk.find? (top ++ [Path.ofText (rotatedName number)]) ≠ none ↔
    1 ≤ number ∧ number ≤ journal.kept maxFiles
  rotated : ∀ number volume, (journal.volumes.take maxFiles)[number]? = some volume →
    disk.readBytes (rotatedIn directory (number + 1)) = .ok (fileBytes volume.rows)
  active : disk.readBytes (activeIn directory) = .ok (fileBytes journal.active)
  header : ∀ number ≤ journal.kept maxFiles, ∃ text,
    disk.readBytes (fileIn directory number) = .ok text ∧ HasHeader text
  stored : storedRows disk directory (journal.kept maxFiles) =
    Journal.rowsOf (journal.volumes.take maxFiles) ++ journal.active

/-! ## Rows of a journal -/

theorem isRow_of_mem_rows {session : LogSession} {row : Bytes} (h : row ∈ session.rows) :
    IsRow row := by
  obtain ⟨step, -, hrow⟩ := List.mem_filterMap.1 h
  cases step with
  | write seen record path => exact ⟨seen, record, path, (Option.some.inj hrow).symm⟩
  | flush => cases hrow

theorem isRow_journalOf (sessions : List LogSession) :
    ∀ row ∈ (journalOf sessions).rows, IsRow row := by
  intro row hmem
  rw [rows_journalOf] at hmem
  obtain ⟨session, -, hmem⟩ := List.mem_flatMap.1 hmem
  exact isRow_of_mem_rows hmem

theorem Journal.mem_rows_of_volume {journal : Journal} {volume : Volume}
    (hvolume : volume ∈ journal.volumes) {row : Bytes} (hmem : row ∈ volume.rows) :
    row ∈ journal.rows :=
  List.mem_append_left _ (List.mem_flatMap.2 ⟨volume, List.mem_reverse.2 hvolume, hmem⟩)

theorem Journal.mem_rows_of_active {journal : Journal} {row : Bytes}
    (hmem : row ∈ journal.active) : row ∈ journal.rows :=
  List.mem_append_right _ hmem

theorem hasHeader_fileBytes {rows : List Bytes} (h : ∀ row ∈ rows, IsRow row) :
    HasHeader (fileBytes rows) :=
  ⟨⟨rows.flatten, rfl⟩, fun _ _ heq => header_once h heq⟩

/-! ## Reading the files -/

variable {base disk : Disk} {directory : Path} {top : Location} {maxFiles : Nat}
  {journal : Journal} {slots : Slots} {active : Stored}

theorem Resting.readBytes (site : Site base directory top)
    (h : Resting base disk top maxFiles journal slots active) (number : Nat) {stored : Stored}
    (hnumber : number < UInt64.size) (hcheck : (fileIn directory number).check = .ok ())
    (hsome : slots number = some stored) :
    disk.readBytes (fileIn directory number) = .ok stored.text := by
  rw [h.shelved.readBytes site number hnumber hcheck, Slots.read, hsome]

/-- There is a rotated file for each volume that is kept, and no other. -/
theorem Resting.find?_rotatedName (h : Resting base disk top maxFiles journal slots active)
    (number : Nat) :
    disk.find? (top ++ [Path.ofText (rotatedName (number + 1))]) = none ↔
      journal.kept maxFiles ≤ number := by
  have hfind : disk.find? (top ++ [Path.ofText (rotatedName (number + 1))]) =
      (slots (number + 1)).map fun stored => .file stored.inode :=
    h.shelved.slot (number + 1)
  have htext : slots (number + 1) = none ↔ (journal.volumes.take maxFiles)[number]? = none := by
    rw [← Option.map_eq_none_iff, h.older number, Option.map_eq_none_iff]
  rw [hfind, Option.map_eq_none_iff, htext, List.getElem?_eq_none_iff, List.length_take,
    Nat.min_comm]
  rfl

theorem Resting.find?_rotatedName_zero (h : Resting base disk top maxFiles journal slots active)
    (hfree : base.find? (top ++ [Path.ofText (rotatedName 0)]) = none) :
    disk.find? (top ++ [Path.ofText (rotatedName 0)]) = none := by
  rw [h.shelved.other _ (rotatedName_zero_ne top), hfree]

/-- A list read by position, from its end to its beginning. -/
theorem flatMap_range_reverse {α : Type} (volumes : List Volume) (f : Nat → List α)
    (g : Volume → List α)
    (h : ∀ number volume, volumes[number]? = some volume → f number = g volume) :
    (List.range volumes.length).reverse.flatMap f = volumes.reverse.flatMap g := by
  have hmap : (List.range volumes.length).map f = volumes.map g := by
    apply List.ext_getElem
    · rw [List.length_map, List.length_map, List.length_range]
    · intro number hleft hright
      rw [List.getElem_map, List.getElem_map, List.getElem_range]
      exact h number _ (List.getElem?_eq_getElem _)
  rw [List.flatMap_def, List.flatMap_def, List.map_reverse, List.map_reverse, hmap]

theorem Resting.keepsNewest (site : Site base directory top)
    (h : Resting base disk top maxFiles journal slots active) (hsize : maxFiles < UInt64.size)
    (hreach : Reachable directory (journal.kept maxFiles))
    (hfree : base.find? (top ++ [Path.ofText (rotatedName 0)]) = none)
    (hrows : ∀ row ∈ journal.rows, IsRow row) :
    KeepsNewest journal maxFiles directory top disk := by
  have hlength : (journal.volumes.take maxFiles).length = journal.kept maxFiles := by
    rw [List.length_take, Nat.min_comm]
    rfl
  have hrotated : ∀ number volume, (journal.volumes.take maxFiles)[number]? = some volume →
      disk.readBytes (rotatedIn directory (number + 1)) = .ok (fileBytes volume.rows) := by
    intro number volume hvolume
    have hlt := (List.getElem?_eq_some_iff.1 hvolume).1
    have hslot := h.older number
    rw [hvolume, Option.map_some, Option.map_eq_some_iff] at hslot
    obtain ⟨stored, hstored, htext⟩ := hslot
    rw [← htext, ← fileIn_succ]
    have hkept : journal.kept maxFiles ≤ maxFiles := Nat.min_le_right _ _
    exact h.readBytes site (number + 1) (by omega) (hreach _ (by omega)) hstored
  have hactive : disk.readBytes (activeIn directory) = .ok (fileBytes journal.active) := by
    rw [← h.text, ← fileIn_zero]
    exact h.readBytes site 0 (by decide) (hreach 0 (Nat.zero_le _)) h.slot
  have hvolume : ∀ volume ∈ journal.volumes, ∀ row ∈ volume.rows, IsRow row :=
    fun volume hmem row hrow => hrows row (Journal.mem_rows_of_volume hmem hrow)
  have hlast : ∀ row ∈ journal.active, IsRow row :=
    fun row hrow => hrows row (Journal.mem_rows_of_active hrow)
  refine ⟨?_, hrotated, hactive, ?_, ?_⟩
  · intro number
    cases number with
    | zero =>
        have hzero := h.find?_rotatedName_zero hfree
        exact ⟨fun hsome => absurd hzero hsome, fun hrange => absurd hrange.1 (by omega)⟩
    | succ number =>
        rw [ne_eq, h.find?_rotatedName]
        omega
  · intro number hnumber
    cases number with
    | zero => exact ⟨_, hactive, hasHeader_fileBytes hlast⟩
    | succ number =>
        have hlt : number < (journal.volumes.take maxFiles).length := by omega
        have hget := List.getElem?_eq_getElem hlt
        have hmem := List.mem_of_mem_take (List.getElem_mem hlt)
        exact ⟨_, hrotated number _ hget, hasHeader_fileBytes (hvolume _ hmem)⟩
  · have hread : ∀ number volume, (journal.volumes.take maxFiles)[number]? = some volume →
        rowsAt disk (rotatedIn directory (number + 1)) = volume.rows := by
      intro number volume hget
      have hmem := List.mem_of_mem_take (List.mem_of_getElem? hget)
      rw [rowsAt, hrotated number volume hget]
      exact dataRows_fileBytes (hvolume volume hmem)
    have hreadLast : rowsAt disk (activeIn directory) = journal.active := by
      rw [rowsAt, hactive]
      exact dataRows_fileBytes hlast
    rw [storedRows, hreadLast, ← hlength, flatMap_range_reverse _ _ _ hread, ← Journal.rowsOf]

/-- What is read back comes behind the rows of the volumes that are gone. -/
theorem KeepsNewest.rows_eq (h : KeepsNewest journal maxFiles directory top disk) :
    journal.rows = Journal.rowsOf (journal.volumes.drop maxFiles) ++
      storedRows disk directory (journal.kept maxFiles) := by
  rw [h.stored, ← List.append_assoc, ← Journal.rowsOf_append, List.take_append_drop]
  rfl

/-- Nothing but the files of the log is touched. -/
theorem Resting.find?_other (site : Site base directory top)
    (h : Resting base disk top maxFiles journal slots active) {location : Location}
    (hother : ∀ number ≤ journal.kept maxFiles, location ≠ fileAt top number) :
    disk.find? location = base.find? location := by
  by_cases hplace : ∃ number, location = fileAt top number
  · obtain ⟨number, rfl⟩ := hplace
    rw [site.free]
    cases number with
    | zero => exact absurd rfl (hother 0 (Nat.zero_le _))
    | succ number =>
        refine (h.find?_rotatedName number).2 (Nat.le_of_not_lt fun hlt => ?_)
        exact hother (number + 1) hlt rfl
  · exact h.shelved.other location (not_exists.1 hplace)

/-! ## The headline -/

/--
Sessions in a directory without files of a log all go well, as long as the paths of the
files they keep can be looked up. Afterwards the directory keeps the newest volumes of
their journal, and the rows read back are the last ones written: all of them while no
volume is gone, and those of the active file if none is kept. Every volume was closed by
the first row that brought it to the limit, and nothing else on the disk has changed.
-/
theorem runAll_keeps_newest {start made : Disk} {sessions : List LogSession}
    (hsound : start.Sound) (hmake : start.makeDirectories directory = (.ok (), made))
    (hleads : made.Leads directory top)
    (hactive : made.find? (top ++ [Path.ofText activeName]) = none)
    (hrotated : ∀ number, made.find? (top ++ [Path.ofText (rotatedName number)]) = none)
    (hsize : maxFiles < UInt64.size) (hsome : sessions ≠ [])
    (hreach : ∀ number ≤ (journalOf sessions).kept maxFiles,
      (fileIn directory number).check = .ok ()) :
    ∃ answers disk,
      runAll (LogSession.run directory maxFiles) sessions start = (answers, disk) ∧
      (∀ answer ∈ answers.flatten, answer = .ok ()) ∧
      KeepsNewest (journalOf sessions) maxFiles directory top disk ∧
      sessions.flatMap LogSession.rows =
        Journal.rowsOf ((journalOf sessions).volumes.drop maxFiles) ++
          storedRows disk directory ((journalOf sessions).kept maxFiles) ∧
      ((journalOf sessions).volumes.length ≤ maxFiles →
        storedRows disk directory ((journalOf sessions).kept maxFiles) =
          sessions.flatMap LogSession.rows) ∧
      (maxFiles = 0 → storedRows disk directory 0 = (journalOf sessions).active) ∧
      (∀ volume ∈ (journalOf sessions).volumes, volume.Due) ∧
      (∀ last ∈ sessions.getLast?, (journalOf sessions).since ≠ 0 →
        (fileBytes (journalOf sessions).active).length < last.maxSize) ∧
      ∀ location, (∀ number ≤ (journalOf sessions).kept maxFiles, location ≠ fileAt top number) →
        disk.find? location = made.find? location := by
  have site : Site made directory top := by
    refine ⟨(hsound.makeDirectories hmake).1, hleads, fun number => ?_⟩
    cases number with
    | zero => exact hactive
    | succ number => exact hrotated (number + 1)
  obtain ⟨answers, disk, slots, active, hrun, hok, hrest⟩ :=
    site.runAll hmake hsize hsome hreach
  have hkeeps := hrest.keepsNewest site hsize hreach (hrotated 0) (isRow_journalOf sessions)
  have hrows := hkeeps.rows_eq
  rw [rows_journalOf] at hrows
  refine ⟨answers, disk, hrun, hok, hkeeps, hrows, ?_, ?_, due_journalOf sessions,
    below_journalOf sessions, fun location hother => hrest.find?_other site hother⟩
  · intro hall
    rw [hrows, List.drop_eq_nil_of_le hall]
    rfl
  · intro hzero
    subst hzero
    have hnone : (journalOf sessions).kept 0 = 0 := Nat.min_zero _
    have hstored := hkeeps.stored
    rw [hnone, List.take_zero] at hstored
    exact hstored

/-- Three rotations with two files kept, and then a session whose limit is larger. -/
theorem runAll_keeps_newest_two :
    let row := LogStep.write ⟨0, 0⟩ {} "/a"
    let sessions : List LogSession := [⟨10, [row, .flush, row, row], true⟩, ⟨1000, [row], false⟩]
    (journalOf sessions).volumes.length = 3 ∧
      ∃ answers disk, runAll (LogSession.run [] 2) sessions {} = (answers, disk) ∧
        (∀ answer ∈ answers.flatten, answer = .ok ()) ∧
        KeepsNewest (journalOf sessions) 2 [] [] disk := by
  intro row sessions
  have hleads : ({} : Disk).Leads [] [] := by
    refine ⟨?_, 2, rfl⟩
    have hnames : Path.names [] = [[]] := rfl
    rw [hnames, Disk.follow, if_pos (by rfl), Disk.follow]
  have hreach : ∀ number ≤ (journalOf sessions).kept 2, (fileIn [] number).check = .ok () := by
    intro number hnumber
    have hle : (journalOf sessions).kept 2 ≤ 2 := Nat.min_le_right _ _
    have hcases : number = 0 ∨ number = 1 ∨ number = 2 := by omega
    rcases hcases with rfl | rfl | rfl <;> rfl
  have hfree : ∀ name : FileName, ({} : Disk).find? ([] ++ [name]) = none :=
    fun name => Disk.find?_empty (List.cons_ne_nil _ _)
  have hmake : ({} : Disk).makeDirectories [] = (.ok (), {}) := rfl
  obtain ⟨answers, disk, hrun, hok, hkeeps, -⟩ := runAll_keeps_newest Disk.sound_empty hmake hleads
    (hfree _) (fun _ => hfree _) (by decide) (List.cons_ne_nil _ _) hreach
  exact ⟨by decide +kernel, answers, disk, hrun, hok, hkeeps⟩

end DentryWatch.TraceLog
