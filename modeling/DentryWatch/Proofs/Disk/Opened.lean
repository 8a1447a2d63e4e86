import DentryWatch.Proofs.Disk.Directories
import DentryWatch.Proofs.Disk.Outputs

/-!
# What an opened path leads to

A path that was opened leads to the open file as long as its directories and
links stay and the file is not moved.
-/

namespace DentryWatch.Disk

/-- The path leads to what is no directory and no link. -/
structure Names (disk : Disk) (path : Path) (location : Location) (node : Node) : Prop where
  locate : disk.locate path .followed = .ok location
  find? : disk.find? location = some node
  plain : leadsOn node = false

variable {disk later next : Disk} {path : Path} {location : Location} {node : Node}

theorem follow_plain {atEnd : PathEnd} (links : Nat) (here : Location) (names : List FileName)
    (hfollow : disk.follow atEnd links here names = .ok location)
    (hincludes : later.Includes disk) (hfind : later.find? location = some node)
    (hplain : leadsOn node = false) : later.follow .followed links here names = .ok location := by
  match names with
  | [] =>
      rw [follow] at hfollow ⊢
      exact hfollow
  | name :: rest =>
      cases follows_of_follow hfollow with
      | idle hidle hrest =>
          have hlater := follow_plain links here rest hrest hincludes hfind hplain
          rw [follow, if_pos hidle, hlater]
      | up hup hrest =>
          have hlater := follow_plain links here.dropLast rest hrest hincludes hfind hplain
          rw [hup, follow, if_neg (by decide), if_pos rfl, hlater]
      | ends hidle hup hname hlast hhere hnot =>
          rw [hhere] at hfind
          rw [follow, if_neg (by simp [hidle]), if_neg hup, if_neg (by simp [PathEnd.followed]),
            if_neg (Nat.not_lt.2 hname), hlast, hhere]
          simp only [hfind]
          cases node <;> first | rfl | cases hplain
      | down hidle hup hname inode hdir hrest =>
          have hlater := follow_plain links _ rest hrest hincludes hfind hplain
          rw [follow, if_neg (by simp [hidle]), if_neg hup, if_neg (by simp [PathEnd.followed]),
            if_neg (Nat.not_lt.2 hname)]
          simp only [hincludes _ _ hdir rfl]
          exact hlater
      | link hidle hup hname target left hlink htarget hleft hrest =>
          subst hleft
          -- a link spends one of the allowed links, and puts its target before the rest
          have hlater := follow_plain left _ _ hrest hincludes hfind hplain
          rw [follow, if_neg (by simp [hidle]), if_neg hup, if_neg (by simp [PathEnd.followed]),
            if_neg (Nat.not_lt.2 hname)]
          simp only [hincludes _ _ hlink rfl, PathEnd.followed, Bool.not_true, Bool.and_false,
            Bool.false_eq_true, if_false]
          rw [if_neg (by simpa using htarget)]
          exact hlater
termination_by (links, names.length)

theorem names_of_locate {atEnd : PathEnd} (hlocate : disk.locate path atEnd = .ok location)
    (hincludes : later.Includes disk) (hfind : later.find? location = some node)
    (hplain : leadsOn node = false) : later.Names path location node := by
  refine ⟨?_, hfind, hplain⟩
  rw [Disk.locate] at hlocate ⊢
  cases hcheck : path.check with
  | error cause =>
      rw [hcheck] at hlocate
      cases hlocate
  | ok done =>
      rw [hcheck] at hlocate
      exact follow_plain maxLinks [] path.names hlocate hincludes hfind hplain

theorem Names.mono (h : disk.Names path location node) (hincludes : later.Includes disk)
    (hfind : later.find? location = some node) : later.Names path location node :=
  names_of_locate h.locate hincludes hfind h.plain

theorem includes_of_nodes (h : next.nodes = disk.nodes) : next.Includes disk := by
  intro location node hfind _
  rwa [find?, h]

theorem Names.of_nodes (h : disk.Names path location node) (hnodes : next.nodes = disk.nodes) :
    next.Names path location node := by
  refine h.mono (includes_of_nodes hnodes) ?_
  rw [Disk.find?, hnodes]
  exact h.find?

theorem Names.readBytes_file {inode : Nat} (h : disk.Names path location (.file inode)) :
    disk.readBytes path = .ok (disk.content inode) := by
  rw [readBytes, stat, h.locate, ok_bind, h.find?]
  rfl

theorem Names.readBytes_full (h : disk.Names path location .full) :
    disk.readBytes path = .ok [] := by
  rw [readBytes, stat, h.locate, ok_bind, h.find?]
  rfl

/-- What an output has taken is read back, but for what the full device lost. -/
theorem Names.readBytes_eq_iff {handle : Handle} {bytes : Bytes}
    (h : disk.Names path location handle.node)
    (hcontent : ∀ inode, handle.node = .file inode → disk.content inode = bytes) :
    disk.readBytes path = .ok bytes ↔ (handle = .full → bytes = []) := by
  by_cases hfull : handle = .full
  · subst hfull
    rw [h.readBytes_full, Except.ok.injEq, eq_comm]
    exact ⟨fun hnone _ => hnone, fun hnone => hnone rfl⟩
  · obtain ⟨inode, hinode⟩ := Handle.exists_inode hfull
    rw [hinode] at h
    rw [h.readBytes_file, hcontent inode hinode]
    exact ⟨fun _ hnot => absurd hnot hfull, fun _ => rfl⟩

/-! ## Opening -/

/-- What opening a path does to a disk. -/
structure Opens (disk : Disk) (path : Path) (mode : OpenMode) (location : Location)
    (handle : Handle) (next : Disk) : Prop where
  names : next.Names path location handle.node
  fresh : handle = .full ∨ ∃ inode, handle = mode.handle inode
  elsewhere : ∀ other, other ≠ location → next.find? other = disk.find? other
  stood : disk.find? location = some handle.node ∨
    disk.find? location = none ∧ handle.node = .file disk.nextInode ∧
      next.nextInode = disk.nextInode + 1
  kept : ∀ inode, handle.node ≠ .file inode ∨ mode = .append →
    next.content inode = disk.content inode
  emptied : mode = .truncate → disk.content disk.nextInode = [] →
    ∀ inode, handle.node = .file inode → next.content inode = []
  nextInode_le : disk.nextInode ≤ next.nextInode
  sound : disk.Sound → next.Sound

variable {mode : OpenMode} {handle : Handle}

theorem Opens.find?_of_some (h : disk.Opens path mode location handle next) {other : Location}
    (hfind : disk.find? other = some node) : next.find? other = some node := by
  by_cases hother : other = location
  · subst hother
    rcases h.stood with hsome | ⟨hnone, -⟩
    · rw [h.names.find?, ← hsome, hfind]
    · rw [hnone] at hfind
      cases hfind
  · rw [h.elsewhere other hother, hfind]

theorem Opens.includes (h : disk.Opens path mode location handle next) : next.Includes disk :=
  fun _ _ hfind _ => h.find?_of_some hfind

theorem Opens.keeps (h : disk.Opens path .append location handle next) :
    disk.Keeps next :=
  ⟨fun _ _ => h.find?_of_some, fun inode => h.kept inode (.inr rfl)⟩

theorem opens_create (hlocate : disk.locate path { follows := mode != .new, forFile := true } =
      .ok location) (hfind : disk.find? location = none) :
    disk.Opens path mode location (mode.handle disk.nextInode)
      (disk.create location .file).2 := by
  have hstands : (disk.create location .file).2.find? location =
      some (.file disk.nextInode) := by rw [find?_create, if_pos rfl]
  have helsewhere : ∀ other, other ≠ location →
      (disk.create location .file).2.find? other = disk.find? other :=
    fun other hother => by rw [find?_create, if_neg hother]
  refine ⟨?_, .inr ⟨_, rfl⟩, helsewhere, .inr ⟨hfind, mode.node_handle _, rfl⟩,
    fun _ _ => rfl, ?_, Nat.le_succ _, ?_⟩
  · rw [mode.node_handle]
    exact names_of_locate hlocate (keeps_create hfind .file).includes hstands rfl
  · intro _ hunused inode hnode
    rw [mode.node_handle, Node.file.injEq] at hnode
    rw [← hnode]
    exact hunused
  · intro hsound
    obtain ⟨root, hroot⟩ := hsound.root
    have hmissing := hsound.missing_of_follow maxLinks [] _ hroot (follow_of_locate hlocate) hfind
    exact (hsound.create .file (fun _ hnode => (Node.file.inj hnode).symm) hfind hmissing.parent).1

theorem opens_file {inode : Nat}
    (hlocate : disk.locate path { follows := mode != .new, forFile := true } = .ok location)
    (hfind : disk.find? location = some (.file inode)) :
    disk.Opens path mode location (mode.handle inode)
      (if mode = .truncate then disk.setContent inode [] else disk) := by
  have htouched : disk.Touched (.file inode)
      (if mode = .truncate then disk.setContent inode [] else disk) := by
    split
    · refine ⟨rfl, rfl, fun other hother => ?_⟩
      rw [content_setContent, if_neg]
      rintro rfl
      exact hother rfl
    · exact .refl disk _
  refine ⟨?_, .inr ⟨inode, rfl⟩, fun other _ => htouched.find? other,
    .inl (by rw [hfind, mode.node_handle]), ?_, ?_, Nat.le_of_eq htouched.nextInode.symm,
    fun hsound => hsound.touched ?_ htouched⟩
  · rw [mode.node_handle]
    exact names_of_locate hlocate (includes_of_nodes htouched.nodes) (by rw [htouched.find?, hfind]) rfl
  · rintro other (hother | rfl)
    · exact htouched.kept other (by rwa [mode.node_handle] at hother)
    · rfl
  · rintro rfl - other hother
    rw [OpenMode.node_handle, Node.file.injEq] at hother
    subst hother
    rw [if_pos rfl, content_setContent, if_pos rfl]
  · rintro other hother
    exact Node.file.inj hother ▸ hsound.numbered location inode hfind

theorem exists_opens (h : disk.openFile path mode = .ok (handle, next)) :
    ∃ location, disk.Opens path mode location handle next := by
  unfold openFile at h
  cases hlocate : disk.locate path { follows := mode != .new, forFile := true } with
  | error cause =>
      rw [hlocate] at h
      cases h
  | ok location =>
      rw [hlocate, ok_bind] at h
      refine ⟨location, ?_⟩
      cases hfind : disk.find? location with
      | none =>
          rw [hfind] at h
          cases h
          exact opens_create hlocate hfind
      | some node =>
          rw [hfind] at h
          dsimp only at h
          split at h
          · cases h
          cases node with
          | directory inode => cases h
          | link target => cases h
          | file inode =>
              cases h
              exact opens_file hlocate hfind
          | full =>
              cases h
              exact ⟨names_of_locate hlocate (fun _ _ hother _ => hother) hfind rfl, .inl rfl,
                fun _ _ => rfl, .inl hfind, fun _ _ => rfl, nofun, Nat.le_refl _, id⟩

end DentryWatch.Disk
