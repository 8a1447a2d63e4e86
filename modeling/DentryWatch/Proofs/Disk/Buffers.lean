import DentryWatch.Disk.Buffered
import DentryWatch.Proofs.Disk.Trees

/-!
# Buffered files

A buffer in front of a file that is written at its end only moves bytes from the
buffer to the end of the file. No such write fails, and no other file changes. A
buffer that waits in front of the full device changes nothing at all.
-/

namespace DentryWatch

namespace Disk

/-- The other disk has more bytes at the end of a file and is the same otherwise. -/
structure Appended (disk : Disk) (inode : Nat) (bytes : Bytes) (next : Disk) : Prop where
  nodes : next.nodes = disk.nodes
  nextInode : next.nextInode = disk.nextInode
  grown : next.content inode = disk.content inode ++ bytes
  kept : ∀ other, other ≠ inode → next.content other = disk.content other

variable {disk middle next : Disk} {inode : Nat} {bytes more : Bytes}

theorem Appended.refl (disk : Disk) (inode : Nat) : disk.Appended inode [] disk :=
  ⟨rfl, rfl, (List.append_nil _).symm, fun _ _ => rfl⟩

theorem Appended.trans (h : disk.Appended inode bytes middle)
    (hmore : middle.Appended inode more next) : disk.Appended inode (bytes ++ more) next := by
  refine ⟨hmore.nodes.trans h.nodes, hmore.nextInode.trans h.nextInode, ?_, ?_⟩
  · rw [hmore.grown, h.grown, List.append_assoc]
  · intro other hother
    rw [hmore.kept other hother, h.kept other hother]

theorem Appended.find? (h : disk.Appended inode bytes next) (location : Location) :
    next.find? location = disk.find? location := by
  rw [Disk.find?, h.nodes, Disk.find?]

/-- The other disk differs in the bytes of one file at most. -/
structure Touched (disk : Disk) (node : Node) (next : Disk) : Prop where
  nodes : next.nodes = disk.nodes
  nextInode : next.nextInode = disk.nextInode
  kept : ∀ inode, node ≠ .file inode → next.content inode = disk.content inode

variable {node : Node}

theorem Touched.refl (disk : Disk) (node : Node) : disk.Touched node disk :=
  ⟨rfl, rfl, fun _ _ => rfl⟩

theorem Touched.trans (h : disk.Touched node middle) (hmore : middle.Touched node next) :
    disk.Touched node next := by
  refine ⟨hmore.nodes.trans h.nodes, hmore.nextInode.trans h.nextInode, ?_⟩
  intro inode hother
  rw [hmore.kept inode hother, h.kept inode hother]

theorem Touched.find? (h : disk.Touched node next) (location : Location) :
    next.find? location = disk.find? location := by
  rw [Disk.find?, h.nodes, Disk.find?]

theorem Appended.touched (h : disk.Appended inode bytes next) :
    disk.Touched (.file inode) next := by
  refine ⟨h.nodes, h.nextInode, ?_⟩
  intro other hother
  apply h.kept
  rintro rfl
  exact hother rfl

/-- Writing a file keeps the disk a tree. -/
theorem Sound.touched (h : disk.Sound) (hcreated : ∀ inode, node = .file inode → inode < disk.nextInode)
    (htouched : disk.Touched node next) : next.Sound := by
  refine ⟨?_, ?_, ?_, ?_⟩
  · obtain ⟨root, hroot⟩ := h.root
    exact ⟨root, by rw [htouched.find?, hroot]⟩
  · intro location name other hfind
    rw [htouched.find?] at hfind
    obtain ⟨parent, hdir⟩ := h.parents location name other hfind
    exact ⟨parent, by rw [htouched.find?, hdir]⟩
  · intro location file hfind
    rw [htouched.find?] at hfind
    rw [htouched.nextInode]
    exact h.numbered location file hfind
  · intro unused hle
    rw [htouched.nextInode] at hle
    rw [htouched.kept unused fun hnode => Nat.not_lt.2 hle (hcreated _ hnode), h.unused unused hle]

theorem appended_extend (disk : Disk) (inode : Nat) (bytes : Bytes) :
    disk.Appended inode bytes (disk.extend inode bytes) := by
  refine ⟨rfl, rfl, ?_, ?_⟩
  · rw [extend, content_setContent, if_pos rfl]
  · intro other hother
    rw [extend, content_setContent, if_neg hother]

theorem write_atEnd (disk : Disk) (inode : Nat) (bytes : Bytes) :
    ∃ next, disk.write (.atEnd inode) bytes = .ok (.atEnd inode, next) ∧
      disk.Appended inode bytes next := by
  by_cases hempty : bytes = []
  · subst hempty
    exact ⟨disk, rfl, .refl disk inode⟩
  · refine ⟨_, ?_, appended_extend disk inode bytes⟩
    rw [write, if_neg (by simpa using hempty)]

end Disk

namespace BufferedFile

variable {file : BufferedFile} {disk : Disk} {inode : Nat}

theorem flush_atEnd (hhandle : file.handle = .atEnd inode) (disk : Disk) :
    ∃ next, file.flush disk = (.ok (), { file with pending := [] }, next) ∧
      disk.Appended inode file.pending next := by
  obtain ⟨next, hwrite, hnext⟩ := disk.write_atEnd inode file.pending
  refine ⟨next, ?_, hnext⟩
  rw [flush_eq, hhandle, hwrite]

theorem place_atEnd (hhandle : file.handle = .atEnd inode) (disk : Disk) (bytes : Bytes)
    (hroom : file.capacity ≤ bytes.length → file.pending = []) :
    ∃ pending pushed next,
      file.place disk bytes = (.ok (), { file with pending }, next) ∧
        disk.Appended inode pushed next ∧ pushed ++ pending = file.pending ++ bytes := by
  rw [place_eq]
  split
  · next hlarge =>
      obtain ⟨next, hwrite, hnext⟩ := disk.write_atEnd inode bytes
      refine ⟨file.pending, bytes, next, ?_, hnext, ?_⟩
      · rw [hhandle, hwrite]
      · rw [hroom hlarge, List.append_nil, List.nil_append]
  · exact ⟨file.pending ++ bytes, [], disk, rfl, .refl disk inode, List.nil_append _⟩

/-- A write moves bytes to the end of the file, in order, and never fails. -/
theorem write_atEnd (hhandle : file.handle = .atEnd inode) (disk : Disk) (bytes : Bytes) :
    ∃ pending pushed next,
      file.write disk bytes = (.ok (), { file with pending }, next) ∧
        disk.Appended inode pushed next ∧ pushed ++ pending = file.pending ++ bytes := by
  rw [write_eq]
  split
  · obtain ⟨middle, hflush, hmiddle⟩ := flush_atEnd hhandle disk
    have hhandle' : ({ file with pending := [] } : BufferedFile).handle = .atEnd inode := hhandle
    obtain ⟨pending, pushed, next, hplace, hnext, hsum⟩ :=
      place_atEnd hhandle' middle bytes fun _ => rfl
    refine ⟨pending, file.pending ++ pushed, next, ?_, hmiddle.trans hnext, ?_⟩
    · rw [hflush]
      exact hplace
    · rw [List.append_assoc, hsum, List.nil_append]
  · next hfits =>
      refine place_atEnd hhandle disk bytes fun hlarge => ?_
      have hlength : file.pending.length = 0 := by omega
      exact List.eq_nil_of_length_eq_zero hlength

/-! ## The full device -/

/-- A buffer that waits in front of the full device. -/
structure Stuck (file : BufferedFile) : Prop where
  handle : file.handle = .full
  pending : file.pending ≠ []

theorem stuck_of_flush {code : SystemError} (h : (file.flush disk).1 = .error code) :
    file.Stuck := by
  rw [flush_eq] at h
  unfold Disk.write at h
  split at h
  · next hwrite => cases h
  · next hwrite =>
      split at hwrite
      · cases hwrite
      · next hempty =>
          cases hhandle : file.handle with
          | full => exact ⟨hhandle, by simpa using hempty⟩
          | atEnd inode => simp [hhandle] at hwrite
          | fromPosition inode position => simp [hhandle] at hwrite

theorem Stuck.flush (h : file.Stuck) (disk : Disk) :
    file.flush disk = (.error .noSpace, file, disk) := by
  have hwrite : disk.write file.handle file.pending = .error .noSpace := by
    rw [h.handle]
    unfold Disk.write
    rw [if_neg (by simpa using h.pending)]
  rw [BufferedFile.flush_eq, hwrite]

theorem Stuck.place (h : file.Stuck) (disk : Disk) (bytes : Bytes) :
    ∃ answer next, file.place disk bytes = (answer, next, disk) ∧ next.Stuck := by
  rw [BufferedFile.place_eq]
  split
  · have hwrite : disk.write file.handle bytes = .ok (.full, disk) ∨
        disk.write file.handle bytes = .error .noSpace := by
      rw [h.handle]
      unfold Disk.write
      split
      · exact .inl rfl
      · exact .inr rfl
    rcases hwrite with hwrite | hwrite
    · rw [hwrite]
      exact ⟨_, _, rfl, rfl, h.pending⟩
    · rw [hwrite]
      exact ⟨_, _, rfl, h⟩
  · exact ⟨_, _, rfl, h.handle, by simp [h.pending]⟩

theorem Stuck.write (h : file.Stuck) (disk : Disk) (bytes : Bytes) :
    ∃ answer next, file.write disk bytes = (answer, next, disk) ∧ next.Stuck := by
  rw [BufferedFile.write_eq]
  split
  · rw [h.flush]
    exact ⟨_, _, rfl, h⟩
  · exact h.place disk bytes

end BufferedFile

end DentryWatch
