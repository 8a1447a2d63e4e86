import DentryWatch.Proofs.Disk.Children
import DentryWatch.Proofs.Disk.Trees

/-!
# Operations on the entries of a directory

What the operations on files do at the path of an entry: with a file there, and
with nothing there. An operation that needs a file fails without one, whether or
not the path can be followed. Removing and moving names leaves all bytes alone.
-/

namespace DentryWatch.Disk

variable {disk middle next : Disk} {path source target : Path} {top : Location}
  {name other : String} {inode : Nat}

/-- Where nothing stands, an operation that looks there finds nothing. -/
theorem Leads.missing {α : Type} (h : disk.Leads path top)
    (hname : FileName.Proper (Path.ofText name))
    (hnone : disk.find? (top ++ [Path.ofText name]) = none) (atEnd : PathEnd)
    {next : Location → Except SystemError α}
    (hnext : ∃ cause, next (top ++ [Path.ofText name]) = .error cause) :
    ∃ cause, (disk.locate (path.child name) atEnd >>= next) = .error cause := by
  cases hcheck : (path.child name).check with
  | error cause => exact ⟨cause, by rw [locate, hcheck]; rfl⟩
  | ok done =>
      have hlocate := h.locate_child hname hcheck atEnd
        (.inr fun target hlink => by rw [hnone] at hlink; cases hlink)
      rw [hlocate]
      exact hnext

theorem Leads.removeFile_missing (h : disk.Leads path top)
    (hname : FileName.Proper (Path.ofText name))
    (hnone : disk.find? (top ++ [Path.ofText name]) = none) :
    ∃ cause, disk.removeFile (path.child name) = .error cause := by
  refine h.missing hname hnone .kept ⟨.noEntry, ?_⟩
  rw [hnone]

theorem Leads.rename_missing (h : disk.Leads path top)
    (hname : FileName.Proper (Path.ofText name))
    (hnone : disk.find? (top ++ [Path.ofText name]) = none) (target : Path) :
    ∃ cause, disk.rename (path.child name) target = .error cause := by
  refine h.missing hname hnone .kept ?_
  cases disk.locate target .kept with
  | error cause => exact ⟨cause, rfl⟩
  | ok goal =>
      exact ⟨.noEntry, by rw [ok_bind, hnone]⟩

section Files

variable (h : disk.Leads path top) (hname : FileName.Proper (Path.ofText name))
  (hcheck : (path.child name).check = .ok ())
  (hfile : disk.find? (top ++ [Path.ofText name]) = some (.file inode))

include h hname hcheck hfile

theorem Leads.locate_file (atEnd : PathEnd) :
    disk.locate (path.child name) atEnd = .ok (top ++ [Path.ofText name]) :=
  h.locate_child hname hcheck atEnd (.inr fun target hlink => by rw [hfile] at hlink; cases hlink)

theorem Leads.removeFile_file :
    disk.removeFile (path.child name) = .ok (disk.erase (top ++ [Path.ofText name])) := by
  rw [removeFile, h.locate_file hname hcheck hfile, ok_bind, hfile]

theorem Leads.openFile_file :
    disk.openFile (path.child name) .append = .ok (.atEnd inode, disk) := by
  rw [openFile, h.locate_file hname hcheck hfile, ok_bind, hfile]
  rfl

theorem Leads.stat_file :
    disk.stat (path.child name) = .ok (top ++ [Path.ofText name], .file inode) := by
  rw [stat, h.locate_file hname hcheck hfile, ok_bind, hfile]

theorem Leads.readBytes_file : disk.readBytes (path.child name) = .ok (disk.content inode) := by
  rw [readBytes, h.stat_file hname hcheck hfile]
  rfl

theorem Leads.rename_file (hother : FileName.Proper (Path.ofText other))
    (hcheck' : (path.child other).check = .ok ())
    (hnone : disk.find? (top ++ [Path.ofText other]) = none) :
    disk.rename (path.child name) (path.child other) =
      .ok (disk.relocate (top ++ [Path.ofText name]) (top ++ [Path.ofText other])) := by
  have hgoal := h.locate_child hother hcheck' .kept (.inl rfl)
  have hne : top ++ [Path.ofText name] ≠ top ++ [Path.ofText other] := by
    intro heq
    rw [heq, hnone] at hfile
    cases hfile
  have hbelow : isBelow (top ++ [Path.ofText name]) (top ++ [Path.ofText other]) = false := by
    simp [isBelow]
  rw [rename, h.locate_file hname hcheck hfile, ok_bind, hgoal, ok_bind, hfile]
  simp only [if_neg hne, hbelow, hnone, Bool.false_eq_true, if_false]

end Files

theorem Leads.openFile_missing (h : disk.Leads path top)
    (hname : FileName.Proper (Path.ofText name)) (hcheck : (path.child name).check = .ok ())
    (hnone : disk.find? (top ++ [Path.ofText name]) = none) (mode : OpenMode) :
    disk.openFile (path.child name) mode =
      .ok (mode.handle disk.nextInode, (disk.create (top ++ [Path.ofText name]) .file).2) := by
  have hlocate := h.locate_child hname hcheck { follows := mode != .new, forFile := true }
    (.inr fun target hlink => by rw [hnone] at hlink; cases hlink)
  rw [openFile, hlocate, ok_bind, hnone]
  rfl

theorem Leads.readBytes_missing (h : disk.Leads path top)
    (hname : FileName.Proper (Path.ofText name)) (hcheck : (path.child name).check = .ok ())
    (hnone : disk.find? (top ++ [Path.ofText name]) = none) :
    disk.readBytes (path.child name) = .error .noEntry := by
  have hlocate := h.locate_child hname hcheck .followed
    (.inr fun target hlink => by rw [hnone] at hlink; cases hlink)
  rw [readBytes, stat, hlocate, ok_bind, hnone]
  rfl

/-- What stands at a path. A link there is not followed. -/
def nodeAt? (disk : Disk) (path : Path) : Option Node :=
  match disk.locate path .kept with
  | .ok location => disk.find? location
  | .error _ => none

section Entry

variable {node : Node} (h : disk.Leads path top) (hname : FileName.Proper (Path.ofText name))
  (hcheck : (path.child name).check = .ok ())

include h hname

/-- Nothing stands below what is missing. -/
theorem Leads.nodeAt?_below (hother : FileName.Proper (Path.ofText other))
    (hnone : disk.find? (top ++ [Path.ofText name]) = none) :
    disk.nodeAt? ((path.child name).child other) = none := by
  obtain ⟨left, hwalk⟩ := h.walks
  have hidle : ¬ Path.isIdle (Path.ofText name) = true := by
    simp [Path.isIdle, hname.ne_nil, hname.ne_dot]
  have hfollow : disk.follow .kept maxLinks [] ((path.child name).child other).names =
      .error .noEntry := by
    rw [Path.names_child _ hother, Path.bare_child path hname, List.append_assoc,
      hwalk.follow_append .kept (by simp) (by simp)]
    rw [List.singleton_append, follow, if_neg hidle, if_neg hname.ne_dots,
      if_neg (by simp [PathEnd.kept]), if_neg (Nat.not_lt.2 hname.length_le)]
    simp [hnone]
  rw [nodeAt?, locate]
  cases ((path.child name).child other).check with
  | error cause => rfl
  | ok done =>
      rw [ok_bind, hfollow]

include hcheck

theorem Leads.nodeAt?_child :
    disk.nodeAt? (path.child name) = disk.find? (top ++ [Path.ofText name]) := by
  rw [nodeAt?, h.locate_child hname hcheck .kept (.inl rfl)]

theorem Leads.makeDirectory_missing (hnone : disk.find? (top ++ [Path.ofText name]) = none) :
    disk.makeDirectory (path.child name) =
      .ok (disk.create (top ++ [Path.ofText name]) .directory).2 := by
  rw [makeDirectory, hcheck, ok_bind, Path.trimmed_child path hname,
    h.locate_child hname hcheck .kept (.inl rfl), ok_bind, hnone]

theorem Leads.makeDirectory_occupied (hnode : disk.find? (top ++ [Path.ofText name]) = some node) :
    disk.makeDirectory (path.child name) = .error .occupied := by
  rw [makeDirectory, hcheck, ok_bind, Path.trimmed_child path hname,
    h.locate_child hname hcheck .kept (.inl rfl), ok_bind, hnode]

theorem Leads.openFile_occupied (hnode : disk.find? (top ++ [Path.ofText name]) = some node) :
    disk.openFile (path.child name) .new = .error .occupied := by
  rw [openFile, h.locate_child hname hcheck _ (.inl rfl), ok_bind, hnode]
  rfl

theorem Leads.hardLink_missing {source : Path} {origin : Location}
    (hsource : disk.locate source .kept = .ok origin) (hstands : disk.find? origin = some node)
    (hplain : node.isDirectory = false) (hnone : disk.find? (top ++ [Path.ofText name]) = none) :
    disk.hardLink source (path.child name) = .ok (disk.put (top ++ [Path.ofText name]) node) := by
  rw [hardLink, hsource, ok_bind, hstands]
  dsimp only
  rw [h.locate_child hname hcheck .kept (.inl rfl), ok_bind, hnone]
  simp [hplain]

theorem Leads.hardLink_occupied {source : Path} {origin : Location} {taken : Node}
    (hsource : disk.locate source .kept = .ok origin) (hstands : disk.find? origin = some node)
    (htaken : disk.find? (top ++ [Path.ofText name]) = some taken) :
    disk.hardLink source (path.child name) = .error .occupied := by
  rw [hardLink, hsource, ok_bind, hstands]
  dsimp only
  rw [h.locate_child hname hcheck .kept (.inl rfl), ok_bind, htaken]

end Entry

/-! ## The bytes of the files -/

/-- The files have the same bytes, whatever their names are. -/
structure SameBytes (disk next : Disk) : Prop where
  contents : next.contents = disk.contents
  nextInode : next.nextInode = disk.nextInode

theorem SameBytes.refl (disk : Disk) : disk.SameBytes disk := ⟨rfl, rfl⟩

theorem SameBytes.trans (h : disk.SameBytes middle) (hmore : middle.SameBytes next) :
    disk.SameBytes next :=
  ⟨hmore.contents.trans h.contents, hmore.nextInode.trans h.nextInode⟩

theorem sameBytes_removeFile (h : disk.removeFile path = .ok next) : disk.SameBytes next := by
  unfold removeFile at h
  cases hlocate : disk.locate path .kept with
  | error cause =>
      rw [hlocate] at h
      cases h
  | ok location =>
      rw [hlocate, ok_bind] at h
      split at h
      · cases h
      · cases h
      · cases h
        exact ⟨rfl, rfl⟩

theorem sameBytes_rename (h : disk.rename source target = .ok next) : disk.SameBytes next := by
  unfold rename at h
  cases horigin : disk.locate source .kept with
  | error cause =>
      rw [horigin] at h
      cases h
  | ok origin =>
      cases hgoal : disk.locate target .kept with
      | error cause =>
          rw [horigin, hgoal] at h
          cases h
      | ok goal =>
          rw [horigin, hgoal, ok_bind, ok_bind] at h
          -- each branch fails, changes nothing or moves nodes
          repeat' split at h
          all_goals first | cases h; exact ⟨rfl, rfl⟩ | cases h

end DentryWatch.Disk
