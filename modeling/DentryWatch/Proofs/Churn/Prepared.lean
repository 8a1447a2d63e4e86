import DentryWatch.Proofs.Churn.Trees

/-!
# Preparing a churn

A churn that was prepared has a base and a first directory to work in, and in
positive mode something to link that is no directory. Preparing it takes nothing
away, and what is new are directories and that one file.
-/

namespace DentryWatch.Churn

open Disk

variable {before made opened start : Disk} {base : Path} {mode : ChurnMode} {perDir : Nat}
  {churn : Churn}

/-- The parts of a preparation that succeeded. -/
structure Prepares (before : Disk) (base : Path) (mode : ChurnMode) (made opened start : Disk) :
    Prop where
  base_made : before.makeDirectories base = (.ok (), made)
  source_opened : mode = .positive ∧
      (∃ handle, made.openFile (base.child ".src") .append = .ok (handle, opened)) ∨
    mode = .negative ∧ opened = made
  first_made : opened.makeDirectories (dirPath base 0) = (.ok (), start)

theorem prepares_of_ok (hpos : 0 < perDir) (h : prepare before base mode perDir = (.ok churn, start)) :
    churn = { base, mode, perDir } ∧ ∃ made opened, Prepares before base mode made opened start := by
  have hperDir : max perDir 1 = perDir := Nat.max_eq_left hpos
  rw [prepare, hperDir] at h
  rcases hmade : before.makeDirectories base with ⟨_ | done, made⟩
  · simp [hmade] at h
  rw [hmade] at h
  dsimp only at h
  -- the rest of the preparation once the shared file is there
  have hrest : ∀ opened : Disk,
      ((opened.makeDirectories (dirPath base 0)).1.map (fun _ => ({ base, mode, perDir } : Churn)),
        (opened.makeDirectories (dirPath base 0)).2) = (.ok churn, start) →
      churn = { base, mode, perDir } ∧
        opened.makeDirectories (dirPath base 0) = (.ok (), start) := by
    intro opened heq
    rcases hfirst : opened.makeDirectories (dirPath base 0) with ⟨_ | done, last⟩
    · simp [hfirst, Except.map] at heq
    · simp only [hfirst, Except.map, Prod.mk.injEq, Except.ok.injEq] at heq
      exact ⟨heq.1.symm, by rw [heq.2]⟩
  cases mode with
  | positive =>
      cases hopen : made.openFile (base.child ".src") .append with
      | error cause =>
          rw [sourcePath, hopen] at h
          simp [Except.map] at h
      | ok both =>
          rw [sourcePath, hopen] at h
          obtain ⟨hchurn, hfirst⟩ := hrest both.2 h
          exact ⟨hchurn, made, both.2, hmade, .inl ⟨rfl, both.1, hopen⟩, hfirst⟩
  | negative =>
      obtain ⟨hchurn, hfirst⟩ := hrest made h
      exact ⟨hchurn, made, made, hmade, .inr ⟨rfl, rfl⟩, hfirst⟩

/-- What is linked is what stands at the name, be it a link, and no directory. -/
theorem exists_source {top : Location} {handle : Handle} (hleads : made.Leads base top)
    (hcheck : (base.child ".src").check = .ok ())
    (h : made.openFile (base.child ".src") .append = .ok (handle, opened)) :
    ∃ node, opened.find? (top ++ [Path.ofText ".src"]) = some node ∧ node.isDirectory = false := by
  obtain ⟨location, hopens⟩ := exists_opens h
  cases hfind : made.find? (top ++ [Path.ofText ".src"]) with
  | none =>
      rw [hleads.openFile_missing proper_source hcheck hfind] at h
      cases h
      exact ⟨.file made.nextInode, by rw [find?_create, if_pos rfl], rfl⟩
  | some node =>
      refine ⟨node, hopens.find?_of_some hfind, ?_⟩
      cases node with
      | directory inode =>
          have hlocate := hleads.locate_child proper_source hcheck
            { follows := true, forFile := true } (.inr (by simp [hfind]))
          have hopen : made.openFile (base.child ".src") .append = .error .isDirectory := by
            rw [openFile]
            refine (congrArg (· >>= _) hlocate).trans ?_
            rw [ok_bind, hfind]
            rfl
          rw [hopen] at h
          cases h
      | file inode => rfl
      | link target => rfl
      | full => rfl

namespace Prepares

variable (h : Prepares before base mode made opened start)

include h

theorem opened_keeps : made.Keeps opened := by
  rcases h.source_opened with ⟨-, handle, hopen⟩ | ⟨-, rfl⟩
  · obtain ⟨location, hopens⟩ := exists_opens hopen
    exact hopens.keeps
  · exact .refl _

theorem opened_sound (hmade : made.Sound) : opened.Sound := by
  rcases h.source_opened with ⟨-, handle, hopen⟩ | ⟨-, rfl⟩
  · obtain ⟨location, hopens⟩ := exists_opens hopen
    exact hopens.sound hmade
  · exact hmade

theorem made_gains : before.GainsDirectories made := by
  have hgains := gainsDirectories_makeDirectories before base
  rwa [h.base_made] at hgains

theorem start_gains : opened.GainsDirectories start := by
  have hgains := gainsDirectories_makeDirectories opened (dirPath base 0)
  rwa [h.first_made] at hgains

theorem keeps : before.Keeps start :=
  (h.made_gains.keeps.trans h.opened_keeps).trans h.start_gains.keeps

/-- What is new are directories and, in positive mode, the file that is shared. -/
theorem gained {location : Location} {node : Node} (hnone : before.find? location = none)
    (hfind : start.find? location = some node) : node.isDirectory = true ∨
      mode = .positive ∧ start.stat (base.child ".src") = .ok (location, node) := by
  cases hopened : opened.find? location with
  | none => exact .inl (h.start_gains.gained location node hopened hfind)
  | some there =>
      obtain rfl : there = node :=
        Option.some.inj ((h.start_gains.keeps.find? location there hopened).symm.trans hfind)
      cases hmade : made.find? location with
      | some there' =>
          obtain rfl : there' = there :=
            Option.some.inj ((h.opened_keeps.find? location there' hmade).symm.trans hopened)
          exact .inl (h.made_gains.gained location there' hnone hmade)
      | none =>
          rcases h.source_opened with ⟨hmode, handle, hopen⟩ | ⟨-, rfl⟩
          · obtain ⟨goal, hopens⟩ := exists_opens hopen
            have hgoal : location = goal := by
              by_contra hne
              simp [hopens.elsewhere location hne, hmade] at hopened
            subst hgoal
            have hnames := hopens.names.mono h.start_gains.keeps.includes
              (h.start_gains.keeps.find? _ _ hopens.names.find?)
            refine .inr ⟨hmode, ?_⟩
            rw [stat, hnames.locate, ok_bind, hfind]
          · simp [hmade] at hopened

theorem nul_not_mem : 0 ∉ base := by
  have hproper := proper_dir_label (n := 0) (by decide)
  have hmade : (opened.makeDirectories (dirPath base 0)).1 = .ok () := by rw [h.first_made]
  have hcheck := check_of_makeDirectories hmade (Path.child_ne_nil base hproper)
  obtain ⟨tail, htail⟩ := Path.child_eq_append base hproper
  have hnul := nul_not_mem_of_check hcheck
  rw [dirPath, htail] at hnul
  exact fun hmem => hnul (List.mem_append_left _ hmem)

theorem exists_site (hsound : before.Sound) (hroom : base.length + 44 < Path.maxLength)
    (hpos : 0 < perDir) (hle : perDir ≤ UInt64.size) :
    ∃ site : Site, site.base = base ∧ site.mode = mode ∧ site.perDir = perDir ∧
      site.start = start := by
  have fits : Fits base := ⟨h.nul_not_mem, hroom⟩
  obtain ⟨hmade, top, hleads⟩ := hsound.makeDirectories h.base_made
  obtain ⟨hstart, hfirst⟩ := (h.opened_sound hmade).makeDirectories h.first_made
  have hbase := hleads.mono (h.opened_keeps.trans h.start_gains.keeps).includes
  have hsource : ∃ source : Node, source.isDirectory = false ∧
      (mode = .positive → start.find? (top ++ [Path.ofText ".src"]) = some source) := by
    rcases h.source_opened with ⟨-, handle, hopen⟩ | ⟨hmode, -⟩
    · obtain ⟨source, hstands, hplain⟩ := exists_source hleads fits.check_source hopen
      exact ⟨source, hplain, fun _ => h.start_gains.keeps.find? _ _ hstands⟩
    · exact ⟨.full, rfl, by simp [hmode]⟩
  obtain ⟨source, hplain, hstands⟩ := hsource
  exact ⟨⟨base, mode, perDir, start, top, source, fits, hpos, hle, hstart, hbase, hfirst, hstands,
    hplain⟩, rfl, rfl, rfl, rfl⟩

end Prepares

end DentryWatch.Churn
