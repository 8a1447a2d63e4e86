import DentryWatch.Proofs.Disk.Entries
import DentryWatch.Proofs.Disk.Outputs
import DentryWatch.Proofs.TraceLog.Names

/-!
# Shelves

The files of a log stand on numbered slots of its directory. Removing, moving,
making and writing them changes slots and nothing else on the disk.
-/

namespace DentryWatch.TraceLog

/-- A file of the log. -/
structure Stored where
  /-- The inode number of the file. -/
  inode : Nat
  /-- The bytes of the file. -/
  text : Bytes

abbrev Slots := Nat → Option Stored

namespace Slots

def vacate (slots : Slots) (number : Nat) : Slots :=
  fun other => if other = number then none else slots other

def move (slots : Slots) (source target : Nat) : Slots :=
  fun other =>
    if other = target then slots source
    else if other = source then none else slots other

def place (slots : Slots) (number : Nat) (stored : Stored) : Slots :=
  fun other => if other = number then some stored else slots other

/-- No slot has the file. -/
def Spares (slots : Slots) (inode : Nat) : Prop :=
  ∀ number stored, slots number = some stored → stored.inode ≠ inode

variable {slots : Slots} {number other source target : Nat} {file stored : Stored}

theorem of_vacate (h : slots.vacate number other = some file) : slots other = some file := by
  rw [vacate] at h
  split at h
  · cases h
  · exact h

theorem of_move (h : slots.move source target other = some file) :
    (other = target ∧ slots source = some file) ∨
      (other ≠ source ∧ other ≠ target ∧ slots other = some file) := by
  rw [move] at h
  split at h
  · next heq => exact .inl ⟨heq, h⟩
  next hother =>
    split at h
    · cases h
    · next hother' => exact .inr ⟨hother', hother, h⟩

theorem of_place (h : slots.place number stored other = some file) :
    (other = number ∧ file = stored) ∨ (other ≠ number ∧ slots other = some file) := by
  rw [place] at h
  split at h
  · next heq => exact .inl ⟨heq, (Option.some.inj h).symm⟩
  · next hother => exact .inr ⟨hother, h⟩

theorem vacate_of_none (h : slots number = none) : slots.vacate number = slots := by
  funext other
  rw [vacate]
  split
  · next heq => rw [heq, h]
  · rfl

theorem move_of_none (h : slots source = none) (hvacant : slots target = none) :
    slots.move source target = slots := by
  funext other
  rw [move]
  split
  · next heq => rw [h, heq, hvacant]
  split
  · next heq => rw [heq, h]
  · rfl

theorem Spares.place {inode : Nat} (h : slots.Spares inode) (hstored : stored.inode ≠ inode) :
    (slots.place number stored).Spares inode := by
  intro other file hfile
  rcases of_place hfile with ⟨-, rfl⟩ | ⟨-, hold⟩
  · exact hstored
  · exact h other file hold

end Slots

/-- A disk with a directory for a log that has no files yet. -/
structure Site (base : Disk) (directory : Path) (top : Location) : Prop where
  sound : base.Sound
  leads : base.Leads directory top
  free : ∀ number, base.find? (fileAt top number) = none

/-- A disk that is like the one before but for the files of the log. -/
structure Shelved (base disk : Disk) (top : Location) (slots : Slots) : Prop where
  slot : ∀ number,
    disk.find? (fileAt top number) = (slots number).map fun stored => .file stored.inode
  text : ∀ number stored, slots number = some stored → disk.content stored.inode = stored.text
  other : ∀ location, (∀ number, location ≠ fileAt top number) →
    disk.find? location = base.find? location
  apart : ∀ i j stored stored', slots i = some stored → slots j = some stored' →
    stored.inode = stored'.inode → i = j
  numbered : ∀ number stored, slots number = some stored → stored.inode < disk.nextInode
  nextInode_le : base.nextInode ≤ disk.nextInode
  unused : ∀ inode, disk.nextInode ≤ inode → disk.content inode = []

variable {base disk next : Disk} {directory : Path} {top : Location} {slots : Slots}

theorem Site.shelved (site : Site base directory top) : Shelved base base top fun _ => none := by
  refine ⟨site.free, ?_, fun _ _ => rfl, ?_, ?_, Nat.le_refl _, site.sound.unused⟩
  · intro number stored h
    cases h
  · intro i j stored stored' h
    cases h
  · intro number stored h
    cases h

section Places

variable (site : Site base directory top) (h : Shelved base disk top slots)

include site h

theorem Shelved.includes : disk.Includes base := by
  intro location node hfind hleads
  rw [h.other location, hfind]
  rintro number rfl
  rw [site.free number] at hfind
  cases hfind

theorem Shelved.leads : disk.Leads directory top := site.leads.mono (h.includes site)

theorem Shelved.sound : disk.Sound := by
  refine ⟨?_, ?_, ?_, h.unused⟩
  · obtain ⟨inode, hroot⟩ := site.sound.root
    exact ⟨inode, h.includes site _ _ hroot rfl⟩
  · intro location name node hfind
    by_cases hplace : ∃ number, location ++ [name] = fileAt top number
    · obtain ⟨number, hplace⟩ := hplace
      obtain rfl := List.append_inj_left' hplace rfl
      exact (h.leads site).stands
    · rw [h.other _ (not_exists.1 hplace)] at hfind
      obtain ⟨inode, hdir⟩ := site.sound.parents _ _ _ hfind
      exact ⟨inode, h.includes site _ _ hdir rfl⟩
  · intro location inode hfind
    by_cases hplace : ∃ number, location = fileAt top number
    · obtain ⟨number, rfl⟩ := hplace
      rw [h.slot, Option.map_eq_some_iff] at hfind
      obtain ⟨stored, hstored, hfile⟩ := hfind
      cases hfile
      exact h.numbered number stored hstored
    · rw [h.other _ (not_exists.1 hplace)] at hfind
      exact Nat.lt_of_lt_of_le (site.sound.numbered _ _ hfind) h.nextInode_le

end Places

theorem Shelved.find?_of_none (h : Shelved base disk top slots) (number : Nat)
    (hnone : slots number = none) : disk.find? (fileAt top number) = none := by
  rw [h.slot, hnone]
  rfl

theorem Shelved.find?_of_some (h : Shelved base disk top slots) (number : Nat)
    {stored : Stored} (hsome : slots number = some stored) :
    disk.find? (fileAt top number) = some (.file stored.inode) := by
  rw [h.slot, hsome]
  rfl

/-! ## Removing and moving files -/

theorem Shelved.erase (h : Shelved base disk top slots) (number : Nat) :
    Shelved base (disk.erase (fileAt top number)) top (slots.vacate number) := by
  refine ⟨?_, ?_, ?_, ?_, ?_, h.nextInode_le, h.unused⟩
  · intro other
    rw [Disk.find?_erase, Slots.vacate]
    by_cases hother : other = number
    · rw [if_pos (congrArg _ hother), if_pos hother]
      rfl
    · rw [if_neg fun heq => hother (fileAt_inj heq), if_neg hother, h.slot]
  · exact fun other stored hsome => h.text other stored (Slots.of_vacate hsome)
  · intro location hplace
    rw [Disk.find?_erase, if_neg (hplace number), h.other location hplace]
  · exact fun i j stored stored' hi hj =>
      h.apart i j _ _ (Slots.of_vacate hi) (Slots.of_vacate hj)
  · exact fun other stored hsome => h.numbered other stored (Slots.of_vacate hsome)

theorem Shelved.relocate (site : Site base directory top) (h : Shelved base disk top slots)
    {source target : Nat} {stored : Stored} (hsource : slots source = some stored)
    (hne : source ≠ target) :
    Shelved base (disk.relocate (fileAt top source) (fileAt top target)) top
      (slots.move source target) := by
  have hfind : ∀ location, (disk.relocate (fileAt top source) (fileAt top target)).find? location =
      if location = fileAt top target then some (.file stored.inode)
      else if location = fileAt top source then none else disk.find? location := by
    refine (h.sound site).find?_relocate (h.find?_of_some source hsource) ?_ ?_
    · intro inode hdir
      rw [h.slot, Option.map_eq_some_iff] at hdir
      obtain ⟨stored', -, hnode⟩ := hdir
      cases hnode
    · exact fun heq => hne (fileAt_inj heq)
  refine ⟨?_, ?_, ?_, ?_, ?_, h.nextInode_le, h.unused⟩
  · intro other
    rw [hfind, Slots.move]
    by_cases hother : other = target
    · rw [if_pos (congrArg _ hother), if_pos hother, hsource]
      rfl
    rw [if_neg fun heq => hother (fileAt_inj heq), if_neg hother]
    by_cases hother' : other = source
    · rw [if_pos (congrArg _ hother'), if_pos hother']
      rfl
    · rw [if_neg fun heq => hother' (fileAt_inj heq), if_neg hother', h.slot]
  · intro other stored' hsome
    rcases Slots.of_move hsome with ⟨-, hold⟩ | ⟨-, -, hold⟩
    · exact h.text source stored' hold
    · exact h.text other stored' hold
  · intro location hplace
    rw [hfind, if_neg (hplace target), if_neg (hplace source), h.other location hplace]
  · intro i j file file' hi hj hsame
    rcases Slots.of_move hi with ⟨hi', hold⟩ | ⟨hi', hi'', hold⟩
    · rcases Slots.of_move hj with ⟨hj', hold'⟩ | ⟨hj', hj'', hold'⟩
      · rw [hi', hj']
      · exact absurd (h.apart source j _ _ hold hold' hsame).symm hj'
    · rcases Slots.of_move hj with ⟨hj', hold'⟩ | ⟨hj', hj'', hold'⟩
      · exact absurd (h.apart i source _ _ hold hold' hsame) hi'
      · exact h.apart i j _ _ hold hold' hsame
  · intro other stored' hsome
    rcases Slots.of_move hsome with ⟨-, hold⟩ | ⟨-, -, hold⟩
    · exact h.numbered source stored' hold
    · exact h.numbered other stored' hold

section Operations

variable (site : Site base directory top) (h : Shelved base disk top slots)

include site h

theorem Shelved.removeFile {number : Nat} {stored : Stored} (hnumber : number < UInt64.size)
    (hcheck : (fileIn directory number).check = .ok ()) (hsome : slots number = some stored) :
    ∃ next, disk.removeFile (fileIn directory number) = .ok next ∧
      Shelved base next top (slots.vacate number) :=
  ⟨_, (h.leads site).removeFile_file (proper_fileName hnumber) hcheck
      (h.find?_of_some number hsome),
    h.erase number⟩

/-- Whether or not a file stands on a slot, there is none after an attempt to remove it. -/
theorem Shelved.attempt_removeFile {number : Nat} (hnumber : number < UInt64.size)
    (hcheck : slots number ≠ none → (fileIn directory number).check = .ok ()) :
    Shelved base (attempt disk (·.removeFile (fileIn directory number))) top
      (slots.vacate number) := by
  cases hslot : slots number with
  | none =>
      obtain ⟨cause, hfails⟩ := (h.leads site).removeFile_missing (proper_fileName hnumber)
        (h.find?_of_none number hslot)
      have hfails' : disk.removeFile (fileIn directory number) = .error cause := hfails
      rw [attempt, hfails', Slots.vacate_of_none hslot]
      exact h
  | some stored =>
      obtain ⟨next, hremove, hnext⟩ :=
        h.removeFile site hnumber (hcheck (by rw [hslot]; exact Option.some_ne_none _)) hslot
      rw [attempt, hremove]
      exact hnext

theorem Shelved.rename (source target : Nat) {stored : Stored} (hsource : source < UInt64.size)
    (htarget : target < UInt64.size) (hcheck : (fileIn directory source).check = .ok ())
    (hcheck' : (fileIn directory target).check = .ok ()) (hsome : slots source = some stored)
    (hvacant : slots target = none) :
    ∃ next, disk.rename (fileIn directory source) (fileIn directory target) = .ok next ∧
      Shelved base next top (slots.move source target) := by
  have hne : source ≠ target := by
    rintro rfl
    rw [hsome] at hvacant
    cases hvacant
  exact ⟨_, (h.leads site).rename_file (proper_fileName hsource) hcheck (h.find?_of_some source hsome)
      (proper_fileName htarget) hcheck' (h.find?_of_none target hvacant),
    h.relocate site hsome hne⟩

/-- A file on the first slot, if there is one, goes to the free second slot. -/
theorem Shelved.attempt_rename (source target : Nat) (hsource : source < UInt64.size)
    (htarget : target < UInt64.size) (hvacant : slots target = none)
    (hcheck : slots source ≠ none →
      (fileIn directory source).check = .ok () ∧ (fileIn directory target).check = .ok ()) :
    Shelved base (attempt disk (·.rename (fileIn directory source) (fileIn directory target))) top
      (slots.move source target) := by
  cases hslot : slots source with
  | none =>
      obtain ⟨cause, hfails⟩ := (h.leads site).rename_missing (proper_fileName hsource)
        (h.find?_of_none source hslot) (fileIn directory target)
      have hfails' : disk.rename (fileIn directory source) (fileIn directory target) =
          .error cause := hfails
      rw [attempt, hfails', Slots.move_of_none hslot hvacant]
      exact h
  | some stored =>
      obtain ⟨hcheck, hcheck'⟩ := hcheck (by rw [hslot]; exact Option.some_ne_none _)
      obtain ⟨next, hrename, hnext⟩ :=
        h.rename site source target hsource htarget hcheck hcheck' hslot hvacant
      rw [attempt, hrename]
      exact hnext

end Operations

/-! ## Making and writing files -/

theorem Shelved.create (h : Shelved base disk top slots) (number : Nat) :
    Shelved base (disk.create (fileAt top number) .file).2 top
      (slots.place number ⟨disk.nextInode, []⟩) := by
  have hfind : ∀ location, (disk.create (fileAt top number) .file).2.find? location =
      if location = fileAt top number then some (.file disk.nextInode) else disk.find? location :=
    fun location => disk.find?_create _ location _
  have hnew : disk.content disk.nextInode = [] := h.unused _ (Nat.le_refl _)
  refine ⟨?_, ?_, ?_, ?_, ?_, Nat.le_succ_of_le h.nextInode_le,
    fun inode hle => h.unused inode (Nat.le_of_succ_le hle)⟩
  · intro other
    rw [hfind, Slots.place]
    by_cases hother : other = number
    · rw [if_pos (congrArg _ hother), if_pos hother]
      rfl
    · rw [if_neg fun heq => hother (fileAt_inj heq), if_neg hother, h.slot]
  · intro other stored hsome
    rcases Slots.of_place hsome with ⟨-, rfl⟩ | ⟨-, hold⟩
    · exact hnew
    · exact h.text other stored hold
  · intro location hplace
    rw [hfind, if_neg (hplace number), h.other location hplace]
  · intro i j stored stored' hi hj hsame
    rcases Slots.of_place hi with ⟨hi', rfl⟩ | ⟨-, hold⟩
    · rcases Slots.of_place hj with ⟨hj', -⟩ | ⟨-, hold'⟩
      · rw [hi', hj']
      · exact absurd hsame (Nat.ne_of_gt (h.numbered j stored' hold'))
    · rcases Slots.of_place hj with ⟨hj', rfl⟩ | ⟨-, hold'⟩
      · exact absurd hsame (Nat.ne_of_lt (h.numbered i stored hold))
      · exact h.apart i j _ _ hold hold' hsame
  · intro other stored hsome
    rcases Slots.of_place hsome with ⟨-, rfl⟩ | ⟨-, hold⟩
    · exact Nat.lt_succ_self _
    · exact Nat.lt_succ_of_lt (h.numbered other stored hold)

theorem Shelved.append (h : Shelved base disk top slots) {number : Nat} {stored : Stored}
    (hsome : slots number = some stored) {bytes : Bytes}
    (hgrown : disk.Appended stored.inode bytes next) :
    Shelved base next top (slots.place number ⟨stored.inode, stored.text ++ bytes⟩) := by
  -- the file keeps its number and its inode
  have hold : ∀ other file,
      slots.place number ⟨stored.inode, stored.text ++ bytes⟩ other = some file →
        ∃ before, slots other = some before ∧ before.inode = file.inode := by
    intro other file hfile
    rcases Slots.of_place hfile with ⟨rfl, rfl⟩ | ⟨-, hbefore⟩
    · exact ⟨stored, hsome, rfl⟩
    · exact ⟨file, hbefore, rfl⟩
  refine ⟨?_, ?_, ?_, ?_, ?_, ?_, ?_⟩
  · intro other
    rw [hgrown.find?, h.slot, Slots.place]
    split
    · next heq =>
        rw [heq, hsome]
        rfl
    · rfl
  · intro other file hfile
    rcases Slots.of_place hfile with ⟨-, rfl⟩ | ⟨hother, hbefore⟩
    · rw [hgrown.grown, h.text number stored hsome]
    · have hne : file.inode ≠ stored.inode :=
        fun hsame => hother (h.apart other number _ _ hbefore hsome hsame)
      rw [hgrown.kept _ hne, h.text other file hbefore]
  · intro location hplace
    rw [hgrown.find?, h.other location hplace]
  · intro i j file file' hi hj hsame
    obtain ⟨before, hbefore, heq⟩ := hold i file hi
    obtain ⟨before', hbefore', heq'⟩ := hold j file' hj
    exact h.apart i j _ _ hbefore hbefore' (heq.trans (hsame.trans heq'.symm))
  · intro other file hfile
    obtain ⟨before, hbefore, heq⟩ := hold other file hfile
    rw [← heq, hgrown.nextInode]
    exact h.numbered other before hbefore
  · rw [hgrown.nextInode]
    exact h.nextInode_le
  · intro inode hle
    rw [hgrown.nextInode] at hle
    have hne : inode ≠ stored.inode :=
      Nat.ne_of_gt (Nat.lt_of_lt_of_le (h.numbered number stored hsome) hle)
    rw [hgrown.kept inode hne, h.unused inode hle]

/-- Writing a file that has no name of the log leaves the slots alone. -/
theorem Shelved.touched (h : Shelved base disk top slots) {node : Node}
    (hother : ∀ inode, node = .file inode → slots.Spares inode ∧ inode < disk.nextInode)
    (htouched : disk.Touched node next) : Shelved base next top slots := by
  refine ⟨?_, ?_, ?_, h.apart, ?_, ?_, ?_⟩
  · intro number
    rw [htouched.find?, h.slot]
  · intro number stored hsome
    rw [htouched.kept _ fun hnode => (hother _ hnode).1 number stored hsome rfl,
      h.text number stored hsome]
  · intro location hplace
    rw [htouched.find?, h.other location hplace]
  · intro number stored hsome
    rw [htouched.nextInode]
    exact h.numbered number stored hsome
  · rw [htouched.nextInode]
    exact h.nextInode_le
  · intro unused hle
    rw [htouched.nextInode] at hle
    rw [htouched.kept unused fun hnode => Nat.not_lt.2 hle (hother _ hnode).2, h.unused unused hle]

/-! ## Reading files -/

def Slots.read (slots : Slots) (number : Nat) : Except SystemError Bytes :=
  match slots number with
  | some stored => .ok stored.text
  | none => .error .noEntry

theorem Shelved.readBytes (site : Site base directory top) (h : Shelved base disk top slots)
    (number : Nat) (hnumber : number < UInt64.size)
    (hcheck : (fileIn directory number).check = .ok ()) :
    disk.readBytes (fileIn directory number) = slots.read number := by
  have hleads := h.leads site
  rw [Slots.read]
  cases hslot : slots number with
  | none =>
      exact hleads.readBytes_missing (proper_fileName hnumber) hcheck
        (h.find?_of_none number hslot)
  | some stored =>
      have hread := hleads.readBytes_file (proper_fileName hnumber) hcheck
        (h.find?_of_some number hslot)
      rw [h.text number stored hslot] at hread
      exact hread

end DentryWatch.TraceLog
