import DentryWatch.Proofs.Disk.Opened
import DentryWatch.Proofs.TraceLog.Recording

/-!
# Directories with files of a log

Whatever else a directory holds, it is a shelf for a log as soon as under the
names of the log there are files only, each under one of them. There a rotation
of a log with an open file fails if and only if the active file is missing.
-/

namespace DentryWatch.TraceLog

/-- Under the names of a log there are files only, and none under two of them. -/
structure FilesOnly (disk : Disk) (top : Location) : Prop where
  file : ∀ number node, disk.find? (fileAt top number) = some node → ∃ inode, node = .file inode
  apart : ∀ i j inode, disk.find? (fileAt top i) = some (.file inode) →
    disk.find? (fileAt top j) = some (.file inode) → i = j

/-- The files under the names of a log. -/
def slotsOf (disk : Disk) (top : Location) : Slots := fun number =>
  match disk.find? (fileAt top number) with
  | some (.file inode) => some ⟨inode, disk.content inode⟩
  | _ => none

open Classical in
/-- Whether a location has no name of the log. -/
noncomputable def isOther (top location : Location) : Bool :=
  decide (∀ number, location ≠ fileAt top number)

noncomputable def cleared (disk : Disk) (top : Location) : Disk :=
  { disk with nodes := disk.nodes.filter fun entry => isOther top entry.1 }

variable {base disk next : Disk} {directory : Path} {top : Location} {slots : Slots}
  {log : TraceLog} {inode : Nat}

theorem find?_cleared (disk : Disk) (top location : Location) :
    (cleared disk top).find? location = if isOther top location then disk.find? location else none :=
  Disk.lookup_filter (isOther top) disk.nodes location

theorem find?_cleared_fileAt (disk : Disk) (top : Location) (number : Nat) :
    (cleared disk top).find? (fileAt top number) = none := by
  rw [find?_cleared, if_neg]
  simp [isOther]

theorem find?_cleared_other {location : Location}
    (hother : ∀ number, location ≠ fileAt top number) :
    (cleared disk top).find? location = disk.find? location := by
  rw [find?_cleared, if_pos]
  simpa [isOther] using hother

theorem find?_of_cleared {location : Location} {node : Node}
    (hfind : (cleared disk top).find? location = some node) :
    disk.find? location = some node := by
  by_cases hplace : ∃ number, location = fileAt top number
  · obtain ⟨number, rfl⟩ := hplace
    rw [find?_cleared_fileAt] at hfind
    cases hfind
  · rwa [find?_cleared_other (not_exists.1 hplace)] at hfind

namespace FilesOnly

theorem appended {bytes : Bytes} (h : FilesOnly disk top)
    (hgrown : disk.Appended inode bytes next) : FilesOnly next top := by
  refine ⟨?_, ?_⟩
  · intro number node hfind
    rw [hgrown.find?] at hfind
    exact h.file number node hfind
  · intro i j inode hi hj
    rw [hgrown.find?] at hi hj
    exact h.apart i j inode hi hj

theorem find?_eq (h : FilesOnly disk top) (number : Nat) :
    disk.find? (fileAt top number) =
      (slotsOf disk top number).map fun stored => .file stored.inode := by
  rw [slotsOf]
  cases hfind : disk.find? (fileAt top number) with
  | none => rfl
  | some node =>
      obtain ⟨inode, rfl⟩ := h.file number node hfind
      rfl

theorem slotsOf_eq_none_iff (h : FilesOnly disk top) (number : Nat) :
    slotsOf disk top number = none ↔ disk.find? (fileAt top number) = none := by
  rw [h.find?_eq, Option.map_eq_none_iff]

theorem find?_of_slotsOf (h : FilesOnly disk top) (number : Nat) {stored : Stored}
    (hstored : slotsOf disk top number = some stored) :
    disk.find? (fileAt top number) = some (.file stored.inode) := by
  rw [h.find?_eq, hstored]
  rfl

/-- A walk meets none of the files. -/
theorem includes (h : FilesOnly disk top) : (cleared disk top).Includes disk := by
  intro location node hfind hleads
  by_cases hplace : ∃ number, location = fileAt top number
  · obtain ⟨number, rfl⟩ := hplace
    obtain ⟨inode, rfl⟩ := h.file number node hfind
    cases hleads
  · rwa [find?_cleared_other (not_exists.1 hplace)]

theorem site (h : FilesOnly disk top) (hsound : disk.Sound) (hleads : disk.Leads directory top) :
    Site (cleared disk top) directory top := by
  refine ⟨⟨?_, ?_, ?_, hsound.unused⟩, hleads.mono h.includes, find?_cleared_fileAt disk top⟩
  · obtain ⟨inode, hroot⟩ := hsound.root
    exact ⟨inode, h.includes _ _ hroot rfl⟩
  · intro location name node hfind
    obtain ⟨inode, hdir⟩ := hsound.parents location name node (find?_of_cleared hfind)
    exact ⟨inode, h.includes _ _ hdir rfl⟩
  · intro location inode hfind
    exact hsound.numbered location inode (find?_of_cleared hfind)

theorem shelved (h : FilesOnly disk top) (hsound : disk.Sound) :
    Shelved (cleared disk top) disk top (slotsOf disk top) := by
  refine ⟨h.find?_eq, ?_, ?_, ?_, ?_, Nat.le_refl _, hsound.unused⟩
  · intro number stored hstored
    have hfind := h.find?_of_slotsOf number hstored
    rw [slotsOf, hfind] at hstored
    exact congrArg Stored.text (Option.some.inj hstored)
  · exact fun location hplace => (find?_cleared_other hplace).symm
  · intro i j stored stored' hi hj hsame
    have hfind := h.find?_of_slotsOf i hi
    rw [hsame] at hfind
    exact h.apart i j _ hfind (h.find?_of_slotsOf j hj)
  · exact fun number stored hstored =>
      hsound.numbered _ _ (h.find?_of_slotsOf number hstored)

end FilesOnly

theorem Shelved.filesOnly (h : Shelved base disk top slots) : FilesOnly disk top := by
  refine ⟨?_, ?_⟩
  · intro number node hfind
    rw [h.slot, Option.map_eq_some_iff] at hfind
    obtain ⟨stored, -, rfl⟩ := hfind
    exact ⟨stored.inode, rfl⟩
  · intro i j inode hi hj
    rw [h.slot, Option.map_eq_some_iff] at hi hj
    obtain ⟨stored, hstored, hfile⟩ := hi
    obtain ⟨stored', hstored', hfile'⟩ := hj
    exact h.apart i j stored stored' hstored hstored'
      (Node.file.inj (hfile.trans hfile'.symm))

/-- A file opened aside takes no slot. -/
theorem Shelved.opens {path : Path} {mode : OpenMode} {location : Location} {handle : Handle}
    (h : Shelved base disk top slots) (hsound : disk.Sound)
    (hopens : disk.Opens path mode location handle next)
    (haside : ∀ number, next.find? (fileAt top number) ≠ some handle.node) :
    Shelved (cleared next top) next top slots := by
  have hfind : ∀ number, next.find? (fileAt top number) = disk.find? (fileAt top number) := by
    intro number
    apply hopens.elsewhere
    rintro rfl
    exact haside number hopens.names.find?
  refine ⟨?_, ?_, ?_, h.apart, ?_, Nat.le_refl _, (hopens.sound hsound).unused⟩
  · intro number
    rw [hfind, h.slot]
  · intro number stored hstored
    have hstands := (hfind number).trans (h.find?_of_some number hstored)
    have hnot : handle.node ≠ .file stored.inode := by
      intro hsame
      rw [← hsame] at hstands
      exact haside number hstands
    rw [hopens.kept _ (.inl hnot), h.text number stored hstored]
  · exact fun location hplace => (find?_cleared_other hplace).symm
  · intro number stored hstored
    exact Nat.lt_of_lt_of_le (h.numbered number stored hstored) hopens.nextInode_le

/-- Directories and links stay where they are while the files of a log change. -/
theorem Shelved.includes_later {slots' : Slots} (h : Shelved base disk top slots)
    (hnext : Shelved base next top slots') : next.Includes disk := by
  intro location other hfind hleads
  by_cases hplace : ∃ number, location = fileAt top number
  · obtain ⟨number, rfl⟩ := hplace
    obtain ⟨inode, rfl⟩ := h.filesOnly.file number other hfind
    cases hleads
  · rw [hnext.other _ (not_exists.1 hplace), ← h.other _ (not_exists.1 hplace), hfind]

/-! ## Rotations in such a directory -/

theorem Reachable.rotatable {maxFiles : Nat} (hreach : Reachable directory maxFiles)
    (slots : Slots) : Rotatable directory maxFiles slots :=
  fun _ _ number _ hle => hreach number hle

def emptied (log : TraceLog) : TraceLog := { log with out := { log.out with pending := [] } }

theorem flush_of_atEnd (hhandle : log.out.handle = .atEnd inode) (disk : Disk) :
    ∃ next, log.out.flush disk = (.ok (), log.emptied.out, next) ∧
      disk.Appended inode log.out.pending next :=
  BufferedFile.flush_atEnd hhandle disk

theorem rotate_of_error {flushed retired : Disk} {cause : SystemError}
    (hflush : log.out.flush disk = (.ok (), log.emptied.out, flushed))
    (hretire : log.emptied.retire flushed = (.error cause, retired)) :
    log.rotate disk = (.error cause, log.emptied, retired) := by
  have hretire' : ({ log with out := log.emptied.out } : TraceLog).retire flushed =
      (.error cause, retired) := hretire
  rw [TraceLog.rotate_eq, hflush]
  dsimp only
  rw [hretire']
  rfl

/-- An open log in a directory with its files, none of which but the active one is open. -/
structure Placed (log : TraceLog) (disk : Disk) (top : Location) (inode : Nat) : Prop where
  sound : disk.Sound
  leads : disk.Leads log.directory top
  files : FilesOnly disk top
  reach : Reachable log.directory log.maxFiles
  size : log.maxFiles < UInt64.size
  handle : log.out.handle = .atEnd inode
  created : inode < disk.nextInode
  rotated : ∀ number, disk.find? (fileAt top (number + 1)) ≠ some (.file inode)

theorem Placed.rotate_fails_iff (h : Placed log disk top inode) :
    (∃ cause, (log.rotate disk).1 = .error cause) ↔ disk.find? (fileAt top 0) = none := by
  obtain ⟨flushed, hflush, hgrown⟩ := flush_of_atEnd h.handle disk
  have hfiles := h.files.appended hgrown
  have hsound := h.sound.touched (fun _ hnode => Node.file.inj hnode ▸ h.created) hgrown.touched
  have hleads : flushed.Leads log.directory top :=
    h.leads.mono fun location node hfind _ => by rw [hgrown.find?, hfind]
  have site := hfiles.site hsound hleads
  have hshelved := hfiles.shelved hsound
  have hdirectory : log.emptied.directory = log.directory := rfl
  rw [← hgrown.find?, ← hfiles.slotsOf_eq_none_iff]
  cases hslot : slotsOf flushed top 0 with
  | none =>
      obtain ⟨cause, retired, hretire, -⟩ :=
        hshelved.retire_missing site hdirectory h.size (h.reach.rotatable _) hslot
      exact iff_of_true ⟨cause, by rw [rotate_of_error hflush hretire]⟩ rfl
  | some active =>
      obtain ⟨retired, hretire, hretired⟩ :=
        hshelved.retire site hdirectory h.size (h.reach.rotatable _) hslot
      have hopen := (hretired.openActive_new site (h.reach 0 (Nat.zero_le _)) rfl).1
      refine iff_of_false ?_ (Option.some_ne_none _)
      rintro ⟨cause, hfails⟩
      rw [rotate_of_ok hflush hretire hopen] at hfails
      cases hfails

end DentryWatch.TraceLog
