import DentryWatch.Proofs.Disk.Children
import DentryWatch.Proofs.Disk.Trees

/-!
# Making directories

A path that leads to nothing leads below a directory, and to whatever is made
there. So a disk stays a tree when directories are made, and the path that was
asked for leads to one.
-/

namespace DentryWatch.Disk

/-- A location at which a path leads to nothing. -/
structure Missing (disk : Disk) (links : Nat) (here : Location) (names : List FileName)
    (location : Location) : Prop where
  parent : ∃ parent name inode, location = parent ++ [name] ∧
    disk.find? parent = some (.directory inode)
  walks : ∀ disk' : Disk, disk'.Includes disk → ∀ inode,
    disk'.find? location = some (.directory inode) →
      ∃ left, disk'.Walks links here names left location

variable {disk disk' middle next : Disk} {location : Location} {path : Path}

theorem Sound.dropLast (h : disk.Sound) {here : Location} {inode : Nat}
    (hhere : disk.find? here = some (.directory inode)) :
    ∃ inode, disk.find? here.dropLast = some (.directory inode) := by
  rcases List.eq_nil_or_concat here with rfl | ⟨front, name, rfl⟩
  · exact h.root
  · rw [List.concat_eq_append] at hhere ⊢
    rw [List.dropLast_concat]
    exact h.parents front name _ hhere

/-- A path that leads to nothing goes as far as a directory. -/
theorem Sound.missing_of_follow (h : disk.Sound) {atEnd : PathEnd} {inode : Nat} (links : Nat)
    (here : Location) (names : List FileName)
    (hhere : disk.find? here = some (.directory inode))
    (hfollow : disk.follow atEnd links here names = .ok location)
    (hnone : disk.find? location = none) : disk.Missing links here names location := by
  match names with
  | [] =>
      rw [follow, Except.ok.injEq] at hfollow
      rw [← hfollow, hhere] at hnone
      cases hnone
  | name :: rest =>
      cases follows_of_follow hfollow with
      | idle hidle hrest =>
          have hmissing := h.missing_of_follow links here rest hhere hrest hnone
          refine ⟨hmissing.parent, fun disk' hmore inode hmade => ?_⟩
          obtain ⟨left, hwalk⟩ := hmissing.walks disk' hmore inode hmade
          exact ⟨left, .idle hidle hwalk⟩
      | up hup hrest =>
          obtain ⟨inode', habove⟩ := h.dropLast hhere
          have hmissing := h.missing_of_follow links here.dropLast rest habove hrest hnone
          refine ⟨hmissing.parent, fun disk' hmore inode hmade => ?_⟩
          obtain ⟨left, hwalk⟩ := hmissing.walks disk' hmore inode hmade
          exact ⟨left, hup ▸ .up hwalk⟩
      | ends hidle hup hname hlast hlocation hnot =>
          subst hlast hlocation
          refine ⟨⟨here, name, inode, rfl, hhere⟩, fun disk' _ inode hmade => ?_⟩
          exact ⟨links, .down hidle hup hname hmade (.done _ _)⟩
      | down hidle hup hname inode' hfind hrest =>
          have hmissing := h.missing_of_follow links _ rest hfind hrest hnone
          refine ⟨hmissing.parent, fun disk' hmore inode hmade => ?_⟩
          obtain ⟨left, hwalk⟩ := hmissing.walks disk' hmore inode hmade
          exact ⟨left, .down hidle hup hname (hmore _ _ hfind rfl) hwalk⟩
      | link hidle hup hname target fewer hfind htarget hleft hrest =>
          subst hleft
          have hstart : ∃ inode, disk.find?
              (if target.head? = some Path.slash then [] else here) =
                some (.directory inode) := by
            split
            · exact h.root
            · exact ⟨inode, hhere⟩
          obtain ⟨inode', hstart⟩ := hstart
          have hmissing := h.missing_of_follow fewer _ _ hstart hrest hnone
          refine ⟨hmissing.parent, fun disk' hmore inode hmade => ?_⟩
          obtain ⟨left, hwalk⟩ := hmissing.walks disk' hmore inode hmade
          exact ⟨left, .link hidle hup hname (hmore _ _ hfind rfl) htarget hwalk⟩
termination_by (links, names.length)

/-! ## One directory -/

/-- A node made where nothing stood keeps the disk a tree. -/
theorem Sound.create (h : disk.Sound) (made : Nat → Node)
    (hmade : ∀ inode, made disk.nextInode = .file inode → inode = disk.nextInode)
    (hnone : disk.find? location = none)
    (hparent : ∃ parent name inode, location = parent ++ [name] ∧
      disk.find? parent = some (.directory inode)) :
    (disk.create location made).2.Sound ∧
      (disk.create location made).2.Includes disk ∧
      (disk.create location made).2.find? location =
        some (made disk.nextInode) := by
  -- the next inode number is handed out before the node is put
  have hraised : ({ disk with nextInode := disk.nextInode + 1 } : Disk).Sound :=
    h.of_find? (fun _ => rfl) (fun _ => rfl) (Nat.le_succ _)
  have hput := hraised.put hnone hparent fun inode hnode =>
    Nat.lt_succ_of_le (Nat.le_of_eq (hmade inode hnode))
  exact ⟨hput, (keeps_create hnone made).includes, by rw [find?_create, if_pos rfl]⟩

/-- Making a directory succeeds only where nothing stands. -/
theorem makeDirectory_ok (h : disk.makeDirectory path = .ok disk') :
    ∃ location, disk.locate path.trimmed .kept = .ok location ∧ disk.find? location = none ∧
      (disk.create location .directory).2 = disk' := by
  rw [Disk.makeDirectory] at h
  cases hcheck : path.check with
  | error cause =>
      rw [hcheck] at h
      cases h
  | ok done =>
      cases hlocate : disk.locate path.trimmed .kept with
      | error cause =>
          rw [hcheck, hlocate] at h
          cases h
      | ok location =>
          rw [hcheck, hlocate, ok_bind, ok_bind] at h
          cases hfind : disk.find? location with
          | some node =>
              rw [hfind] at h
              cases h
          | none =>
              rw [hfind, Except.ok.injEq] at h
              exact ⟨location, rfl, hfind, h⟩

theorem Sound.makeDirectory (h : disk.Sound) (hmake : disk.makeDirectory path = .ok disk') :
    disk'.Sound ∧ ∃ top, disk'.Leads path top := by
  obtain ⟨inode, hroot⟩ := h.root
  obtain ⟨location, hlocate, hnone, rfl⟩ := makeDirectory_ok hmake
  have hmissing := h.missing_of_follow maxLinks [] _ hroot (follow_of_locate hlocate) hnone
  obtain ⟨hsound, hmore, hstands⟩ := h.create .directory nofun hnone hmissing.parent
  obtain ⟨left, hwalk⟩ := hmissing.walks _ hmore _ hstands
  exact ⟨hsound, location, (hwalk.bare.names path.bare_trimmed.symm).follow_eq, _, hstands⟩

/-! ## Directories with their parents -/

theorem leads_of_isDirectory (h : disk.isDirectory path = true) : ∃ top, disk.Leads path top := by
  rw [Disk.isDirectory, stat] at h
  cases hlocate : disk.locate path .followed with
  | error cause =>
      rw [hlocate] at h
      cases h
  | ok location =>
      rw [hlocate, ok_bind] at h
      cases hfind : disk.find? location with
      | none =>
          rw [hfind] at h
          cases h
      | some node =>
          rw [hfind] at h
          cases node with
          | directory inode => exact ⟨location, follow_of_locate hlocate, inode, hfind⟩
          | file inode => cases h
          | link target => cases h
          | full => cases h

theorem Sound.ensureDirectory (h : disk.Sound) (path : Path) :
    (disk.ensureDirectory path).2.Sound ∧
      ((disk.ensureDirectory path).1 = .ok () →
        ∃ top, (disk.ensureDirectory path).2.Leads path top) := by
  rw [Disk.ensureDirectory]
  cases hmake : disk.makeDirectory path with
  | ok made =>
      obtain ⟨hsound, hleads⟩ := h.makeDirectory hmake
      exact ⟨hsound, fun _ => hleads⟩
  | error cause =>
      refine ⟨h, fun hok => ?_⟩
      by_cases hdir : disk.isDirectory path = true
      · exact leads_of_isDirectory hdir
      · dsimp only at hok
        rw [if_neg hdir] at hok
        cases hok

theorem Sound.makeDirectoriesWithin (steps : Nat) (h : disk.Sound) (path : Path) :
    (makeDirectoriesWithin steps path disk).2.Sound ∧
      ((makeDirectoriesWithin steps path disk).1 = .ok () →
        ∃ top, (makeDirectoriesWithin steps path disk).2.Leads path top) := by
  induction steps generalizing disk path with
  | zero => exact ⟨h, fun hok => by cases hok⟩
  | succ steps ih =>
      have hensured := h.ensureDirectory path
      rw [Disk.makeDirectoriesWithin]
      split
      · next first hfirst =>
          rw [hfirst] at hensured
          cases path.parent? with
          | none => exact ⟨hensured.1, fun hok => by cases hok⟩
          | some parent =>
              have habove := ih hensured.1 parent
              dsimp only
              rcases hrest : Disk.makeDirectoriesWithin steps parent first with ⟨_ | done, made⟩
              · rw [hrest] at habove
                exact ⟨habove.1, fun hok => by cases hok⟩
              · rw [hrest] at habove
                exact habove.1.ensureDirectory path
      · exact hensured

/-- A disk stays a tree when directories are made, and the path leads to one. -/
theorem Sound.makeDirectories (h : disk.Sound)
    (hmake : disk.makeDirectories path = (.ok (), disk')) :
    disk'.Sound ∧ ∃ top, disk'.Leads path top := by
  rw [Disk.makeDirectories] at hmake
  split at hmake
  · next hempty =>
      obtain rfl := List.isEmpty_iff.1 hempty
      obtain ⟨-, rfl⟩ := Prod.mk.inj hmake
      exact ⟨h, [], leads_root rfl h.root⟩
  · have hwithin := h.makeDirectoriesWithin (path.length + 1) path
    rw [hmake] at hwithin
    exact ⟨hwithin.1, hwithin.2 rfl⟩

/-! ## What making directories adds -/

/-- Nothing but directories is new. -/
structure GainsDirectories (disk next : Disk) : Prop where
  keeps : disk.Keeps next
  gained : ∀ location node, disk.find? location = none → next.find? location = some node →
    node.isDirectory = true

theorem GainsDirectories.refl (disk : Disk) : disk.GainsDirectories disk := by
  refine ⟨.refl disk, fun location node hnone hsome => ?_⟩
  simp [hnone] at hsome

theorem GainsDirectories.trans (h : disk.GainsDirectories middle)
    (hmore : middle.GainsDirectories next) : disk.GainsDirectories next := by
  refine ⟨h.keeps.trans hmore.keeps, fun location node hnone hsome => ?_⟩
  cases hmiddle : middle.find? location with
  | none => exact hmore.gained location node hmiddle hsome
  | some between =>
      have hkept := hmore.keeps.find? location between hmiddle
      obtain rfl : node = between := by simpa [hkept, eq_comm] using hsome
      exact h.gained location node hnone hmiddle

theorem gainsDirectories_makeDirectory (h : disk.makeDirectory path = .ok next) :
    disk.GainsDirectories next := by
  obtain ⟨location, -, hnone, rfl⟩ := makeDirectory_ok h
  refine ⟨keeps_create hnone _, fun other node hfree hmade => ?_⟩
  rw [find?_create] at hmade
  split at hmade
  · cases hmade
    rfl
  · simp [hfree] at hmade

theorem gainsDirectories_ensureDirectory (disk : Disk) (path : Path) :
    disk.GainsDirectories (disk.ensureDirectory path).2 := by
  rw [ensureDirectory]
  cases hmake : disk.makeDirectory path with
  | ok made => exact gainsDirectories_makeDirectory hmake
  | error cause => exact .refl disk

theorem gainsDirectories_makeDirectoriesWithin (steps : Nat) (path : Path) (disk : Disk) :
    disk.GainsDirectories (makeDirectoriesWithin steps path disk).2 := by
  induction steps generalizing path disk with
  | zero => exact .refl disk
  | succ steps ih =>
      have hfirst := gainsDirectories_ensureDirectory disk path
      rw [makeDirectoriesWithin]
      split
      · next first hensure =>
          rw [hensure] at hfirst
          cases path.parent? with
          | none => exact hfirst
          | some parent =>
              have habove := ih parent first
              dsimp only
              rcases hrest : makeDirectoriesWithin steps parent first with ⟨_ | done, made⟩
              · rw [hrest] at habove
                exact hfirst.trans habove
              · rw [hrest] at habove
                exact (hfirst.trans habove).trans (gainsDirectories_ensureDirectory made path)
      · exact hfirst

theorem gainsDirectories_makeDirectories (disk : Disk) (path : Path) :
    disk.GainsDirectories (disk.makeDirectories path).2 := by
  rw [makeDirectories]
  split
  · exact .refl disk
  · exact gainsDirectories_makeDirectoriesWithin _ _ _

/-- Directories were only made at a path that can be followed. -/
theorem check_of_makeDirectories (h : (disk.makeDirectories path).1 = .ok ()) (hne : path ≠ []) :
    path.check = .ok () := by
  cases hcheck : path.check with
  | ok done => rfl
  | error cause =>
      have hmake : disk.makeDirectory path = .error cause := by
        rw [makeDirectory, hcheck]
        rfl
      have hstat : disk.isDirectory path = false := by
        rw [isDirectory, stat, locate, hcheck]
        rfl
      have hcause : cause ≠ .noEntry := by
        rintro rfl
        rw [Path.check] at hcheck
        split at hcheck
        · cases hcheck
        · simp [hne] at hcheck
          split at hcheck <;> cases hcheck
      rw [makeDirectories, if_neg (by simp [hne]), makeDirectoriesWithin, ensureDirectory, hmake] at h
      simp only [hstat, Bool.false_eq_true, if_false] at h
      split at h
      · next heq =>
          cases heq
          exact absurd rfl hcause
      · cases h

end DentryWatch.Disk
