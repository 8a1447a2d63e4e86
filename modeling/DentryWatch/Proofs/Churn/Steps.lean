import DentryWatch.Proofs.Churn.Trees

/-!
# Steps of a churn

Going on to the next directory makes it, enters one that stands, or is blocked by
what is no directory. A name is then counted exactly when nothing stands there.
In a directory that was made nothing stands at the next names, so skipped names
are only met where something stood from the start.
-/

namespace DentryWatch.Churn

open Disk

/-- The churn at the first name of the next directory. -/
def turned (churn : Churn) : Churn :=
  { churn with dirIndex := churn.dirIndex + 1, fileIndex := 0 }

theorem advance_full {churn : Churn} (hfull : churn.perDir ≤ churn.fileIndex) (disk : Disk) :
    churn.advance disk =
      match disk.makeDirectory (dirPath churn.base (churn.dirIndex + 1)) with
      | .ok disk => (.ok (), churn.turned, disk)
      | .error code =>
          if code = .occupied && disk.isDirectory (dirPath churn.base (churn.dirIndex + 1)) then
            (.ok (), churn.turned, disk)
          else (.error code, churn.turned, disk) := by
  rw [advance, if_neg (Nat.not_lt.2 hfull)]
  rfl

theorem countP_range_succ (p : Nat → Bool) (n : Nat) :
    (List.range (n + 1)).countP p = (List.range n).countP p + if p n then 1 else 0 := by
  rw [List.range_succ, List.countP_append, List.countP_singleton]

namespace Site

variable (site : Site)

/-- The churn in a directory, after so many names there. -/
def churn (i j total : Nat) : Churn where
  base := site.base
  mode := site.mode
  perDir := site.perDir
  dirIndex := i
  fileIndex := j
  total := total

def fileAt (here : Location) (j : Nat) : Location := here ++ [Path.ofText (label 'f' j)]

/-- The state after `j` names in the `i`-th directory. -/
structure Stage (counted : Nat → Bool) (i j : Nat) (churn : Churn) (disk : Disk) : Prop where
  grown : site.Grown counted (i * site.perDir + j) i disk
  churn_eq : churn = site.churn i j ((List.range (i * site.perDir + j)).countP counted)
  le_perDir : j ≤ site.perDir
  fresh : site.start.find? (site.dirAt i) = none →
    ∀ n, j ≤ n → disk.find? (fileAt (site.dirAt i) n) = none
  spent : i * site.perDir + j ≤
    churn.total + site.perDir * (List.range i).countP site.stood + if site.stood i then j else 0

variable {site} {counted : Nat → Bool} {i j k : Nat} {churn : Churn} {disk next : Disk}

theorem stage_start : site.Stage counted 0 0 (site.churn 0 0 0) site.start where
  grown := by simpa using grown_start
  churn_eq := by simp
  le_perDir := Nat.zero_le _
  fresh hnone := absurd hnone site.stood_first
  spent := by simp

/-! ## Going on -/

/-- What going on before the `k`-th name can do. -/
inductive Advances (site : Site) (counted : Nat → Bool) (k : Nat) (churn : Churn) (disk : Disk) :
    Prop where
  | ready (i j : Nat) (ready : Churn) (next : Disk) (index : i * site.perDir + j = k)
      (hj : j < site.perDir) (hadvance : churn.advance disk = (.ok (), ready, next))
      (hstage : site.Stage counted i j ready next)
      (hnode : next.nodeAt? (site.name k) = disk.nodeAt? (site.name k))
  | blocked (i : Nat) (index : (i + 1) * site.perDir = k)
      (hadvance : churn.advance disk = (.error .occupied, churn.turned, disk))
      (hstands : disk.nodeAt? (dirPath site.base (i + 1)) ≠ none)
      (hnot : disk.isDirectory (dirPath site.base (i + 1)) = false)

namespace Stage

theorem name_eq (hj : j < site.perDir) :
    site.name (i * site.perDir + j) = (dirPath site.base i).child (label 'f' j) :=
  namePath_eq site.base hj

/-- The last name of a directory was tried, and the next one was entered. -/
theorem turn (h : site.Stage counted i site.perDir churn disk)
    (hgrown : site.Grown counted (i * site.perDir + site.perDir) (i + 1) next)
    (hfresh : site.start.find? (site.dirAt (i + 1)) = none →
      ∀ n, next.find? (fileAt (site.dirAt (i + 1)) n) = none) :
    site.Stage counted (i + 1) 0 churn.turned next := by
  have hindex : (i + 1) * site.perDir + 0 = i * site.perDir + site.perDir := by
    rw [Nat.add_zero, Nat.succ_mul]
  refine ⟨by rwa [hindex], ?_, Nat.zero_le _, fun hnone n _ => hfresh hnone n, ?_⟩
  · rw [h.churn_eq, hindex]
    rfl
  · have hspent := h.spent
    rw [turned, hindex, countP_range_succ]
    cases hstood : site.stood i <;> simp [hstood, Nat.mul_add] at hspent ⊢ <;> omega

/-- The next directory is made, and the next name is not there before or after. -/
theorem advance_missing (h : site.Stage counted i site.perDir churn disk)
    (hi : i + 1 < UInt64.size) (hnone : disk.find? (site.dirAt (i + 1)) = none) :
    site.Advances counted ((i + 1) * site.perDir) churn disk := by
  have hproper := proper_dir_label hi
  have hmake : disk.makeDirectory (dirPath site.base (i + 1)) =
      .ok (disk.create (site.dirAt (i + 1)) .directory).2 :=
    h.grown.leads_base.makeDirectory_missing hproper (site.fits.check_dir hi) hnone
  have hfull : churn.perDir ≤ churn.fileIndex := by simp [h.churn_eq, Site.churn]
  have hdir : dirPath churn.base (churn.dirIndex + 1) = dirPath site.base (i + 1) := by
    simp [h.churn_eq, Site.churn]
  have hgrown := h.grown.make hi hnone
  have hbelow : ∀ n, (disk.create (site.dirAt (i + 1)) .directory).2.find?
      (fileAt (site.dirAt (i + 1)) n) = none := by
    intro n
    rw [find?_create, if_neg (by simp [fileAt])]
    exact h.grown.sound.find?_below (by simp) (by simp [hnone])
  have hname : site.name ((i + 1) * site.perDir) =
      (dirPath site.base (i + 1)).child (label 'f' 0) := by
    simpa using name_eq (i := i + 1) (j := 0) site.perDir_pos
  refine .ready (i + 1) 0 churn.turned _ rfl site.perDir_pos ?_ (h.turn hgrown fun _ => hbelow) ?_
  · rw [advance_full hfull, hdir, hmake]
  · have hleads := hgrown.leads_dirAt (h.grown.keeps.none_of_none hnone) (Nat.le_refl _)
    have hfile := proper_file_label (n := 0) (by decide)
    have hmissing : disk.nodeAt? ((dirPath site.base (i + 1)).child (label 'f' 0)) = none :=
      h.grown.leads_base.nodeAt?_below hproper hfile hnone
    rw [hname, hmissing, hleads.nodeAt?_child hfile (site.fits.check_file hi (by decide))]
    exact hbelow 0

/-- What stands in the place of the next directory is entered, or no directory. -/
theorem advance_standing (h : site.Stage counted i site.perDir churn disk)
    (hi : i + 1 < UInt64.size) {node : Node} (hfind : disk.find? (site.dirAt (i + 1)) = some node) :
    site.Advances counted ((i + 1) * site.perDir) churn disk := by
  have hproper := proper_dir_label hi
  have hcheck := site.fits.check_dir hi
  have hmake := h.grown.leads_base.makeDirectory_occupied hproper hcheck hfind
  have hfull : churn.perDir ≤ churn.fileIndex := by simp [h.churn_eq, Site.churn]
  have hdir : dirPath churn.base (churn.dirIndex + 1) = dirPath site.base (i + 1) := by
    simp [h.churn_eq, Site.churn]
  have hadvance := advance_full hfull disk
  rw [hdir, dirPath, hmake, ← dirPath] at hadvance
  cases hstands : disk.isDirectory (dirPath site.base (i + 1)) with
  | true =>
      have hstood : site.start.find? (site.dirAt (i + 1)) ≠ none := by
        intro hnone
        simp [h.grown.find?_dirAt hnone (Nat.lt_succ_self i)] at hfind
      have hgrown := h.grown.enter hi hstood (leads_of_isDirectory hstands)
      simp only [hstands, decide_true, Bool.and_self, if_true] at hadvance
      exact .ready (i + 1) 0 churn.turned disk rfl site.perDir_pos hadvance
        (h.turn hgrown fun hnone => absurd hnone hstood) rfl
  | false =>
      simp only [hstands, Bool.and_false, Bool.false_eq_true, if_false] at hadvance
      refine .blocked i rfl hadvance ?_ hstands
      rw [dirPath, h.grown.leads_base.nodeAt?_child hproper hcheck]
      exact Option.ne_none_iff_exists'.2 ⟨node, hfind⟩

theorem advance (h : site.Stage counted i j churn disk)
    (hword : i * site.perDir + j < UInt64.size * site.perDir) :
    site.Advances counted (i * site.perDir + j) churn disk := by
  by_cases hj : j < site.perDir
  · refine .ready i j churn disk rfl hj ?_ h rfl
    rw [Churn.advance, if_pos]
    simpa [h.churn_eq, Site.churn] using hj
  · obtain rfl : j = site.perDir := Nat.le_antisymm h.le_perDir (Nat.le_of_not_lt hj)
    rw [← Nat.succ_mul] at hword ⊢
    have hi : i + 1 < UInt64.size := Nat.lt_of_mul_lt_mul_right hword
    cases hfind : disk.find? (site.dirAt (i + 1)) with
    | none => exact h.advance_missing hi hfind
    | some node => exact h.advance_standing hi hfind

end Stage

/-! ## Trying a name -/

variable (site) in
/-- What an entry that was made leaves in its place. -/
def placed (disk : Disk) (goal : Location) : Disk :=
  match site.mode with
  | .positive => disk.put goal site.source
  | .negative => (disk.create goal .file).2.erase goal

theorem find?_placed_of_ne {goal location : Location} (hne : location ≠ goal) :
    (site.placed disk goal).find? location = disk.find? location := by
  rw [placed]
  cases site.mode with
  | positive =>
      dsimp only
      rw [find?_put, if_neg hne]
  | negative =>
      dsimp only
      rw [find?_erase, if_neg hne, find?_create, if_neg hne]

theorem find?_placed_negative {goal : Location} (hmode : site.mode = .negative)
    (hnone : disk.find? goal = none) (location : Location) :
    (site.placed disk goal).find? location = disk.find? location := by
  by_cases hgoal : location = goal
  · rw [placed, hmode, hgoal, hnone]
    dsimp only
    rw [find?_erase, if_pos rfl]
  · exact find?_placed_of_ne hgoal

namespace Stage

theorem leads_current (h : site.Stage counted i j churn disk) :
    ∃ here, disk.Leads (dirPath site.base i) here := h.grown.leads i (Nat.le_refl i)

theorem nextPath_eq (h : site.Stage counted i j churn disk) (hj : j < site.perDir) :
    churn.nextPath = site.name (i * site.perDir + j) := by
  rw [name_eq hj, h.churn_eq]
  rfl

variable {here : Location}

theorem nodeAt?_name (h : site.Stage counted i j churn disk) (hj : j < site.perDir)
    (hhere : disk.Leads (dirPath site.base i) here) :
    disk.nodeAt? (site.name (i * site.perDir + j)) = disk.find? (fileAt here j) := by
  have hword : j < UInt64.size := Nat.lt_of_lt_of_le hj site.perDir_le
  rw [name_eq hj]
  exact hhere.nodeAt?_child (proper_file_label hword) (site.fits.check_file h.grown.word hword)

theorem locate_source (h : site.Stage counted i j churn disk) :
    disk.locate (site.base.child ".src") .kept = .ok (site.top ++ [Path.ofText ".src"]) :=
  h.grown.leads_base.locate_child proper_source site.fits.check_source .kept (.inl rfl)

theorem place_occupied (h : site.Stage counted i j churn disk) (hj : j < site.perDir)
    (hhere : disk.Leads (dirPath site.base i) here) {node : Node}
    (hnode : disk.find? (fileAt here j) = some node) :
    churn.place disk (site.name (i * site.perDir + j)) = .error .occupied := by
  have hword : j < UInt64.size := Nat.lt_of_lt_of_le hj site.perDir_le
  have hproper := proper_file_label hword
  have hcheck := site.fits.check_file h.grown.word hword
  rw [h.churn_eq, name_eq hj, place, Site.churn]
  cases hmode : site.mode with
  | positive =>
      have hsource := h.grown.keeps.find? _ _ (site.source_stands hmode)
      exact hhere.hardLink_occupied hproper hcheck h.locate_source hsource hnode
  | negative =>
      dsimp only
      rw [hhere.openFile_occupied hproper hcheck hnode]
      rfl

theorem place_vacant (h : site.Stage counted i j churn disk) (hj : j < site.perDir)
    (hhere : disk.Leads (dirPath site.base i) here)
    (hnone : disk.find? (fileAt here j) = none) :
    churn.place disk (site.name (i * site.perDir + j)) =
      .ok (site.placed disk (fileAt here j)) := by
  have hword : j < UInt64.size := Nat.lt_of_lt_of_le hj site.perDir_le
  have hproper := proper_file_label hword
  have hcheck := site.fits.check_file h.grown.word hword
  rw [h.churn_eq, name_eq hj, place, Site.churn, placed]
  cases hmode : site.mode with
  | positive =>
      have hsource := h.grown.keeps.find? _ _ (site.source_stands hmode)
      exact hhere.hardLink_missing hproper hcheck h.locate_source hsource site.source_plain hnone
  | negative =>
      have hmade : (disk.create (fileAt here j) .file).2.find? (fileAt here j) =
          some (.file disk.nextInode) := by rw [find?_create, if_pos rfl]
      have hcreated := hhere.mono (keeps_create hnone .file).includes
      dsimp only
      rw [hhere.openFile_missing hproper hcheck hnone, ok_bind]
      exact hcreated.removeFile_file hproper hcheck hmade

/-- The stage after one more name. -/
theorem succ (h : site.Stage counted i j churn disk) (hj : j < site.perDir)
    (hgrown : site.Grown counted (i * site.perDir + j + 1) i next)
    (hfresh : site.start.find? (site.dirAt i) = none →
      counted (i * site.perDir + j) = true ∧
        ∀ n, j < n → next.find? (fileAt (site.dirAt i) n) = none) :
    site.Stage counted i (j + 1)
      { churn with
        fileIndex := churn.fileIndex + 1
        total := churn.total + if counted (i * site.perDir + j) then 1 else 0 } next where
  grown := hgrown
  churn_eq := by
    rw [h.churn_eq, ← Nat.add_assoc, countP_range_succ]
    rfl
  le_perDir := hj
  fresh hnone := (hfresh hnone).2
  spent := by
    have hspent := h.spent
    cases hstood : site.stood i with
    | true =>
        simp only [hstood, if_true] at hspent ⊢
        omega
    | false =>
        have hcounted := (hfresh (by simpa [stood] using hstood)).1
        simp only [hstood, hcounted, Bool.false_eq_true, if_false, if_true] at hspent ⊢
        omega

/-- A directory that was made is where its path leads. -/
theorem here_eq (h : site.Stage counted i j churn disk)
    (hhere : disk.Leads (dirPath site.base i) here)
    (hnone : site.start.find? (site.dirAt i) = none) : here = site.dirAt i :=
  hhere.unique (h.grown.leads_dirAt hnone (Nat.le_refl i))

theorem grown_placed (h : site.Stage counted i j churn disk) (hj : j < site.perDir)
    (hhere : disk.Leads (dirPath site.base i) here)
    (hnone : disk.find? (fileAt here j) = none)
    (hcounted : counted (i * site.perDir + j) = true) :
    site.Grown counted (i * site.perDir + j + 1) i (site.placed disk (fileAt here j)) := by
  have hwithin : i * site.perDir + j < (i + 1) * site.perDir := by
    rw [Nat.succ_mul]
    omega
  cases hmode : site.mode with
  | positive =>
      rw [placed, hmode]
      apply h.grown.link hwithin hmode hcounted (by rwa [index_div hj]) _ hnone
      rw [index_mod hj, fileAt]
  | negative =>
      have hfind := find?_placed_negative hmode hnone
      have hcontent : ∀ inode, (site.placed disk (fileAt here j)).content inode =
          disk.content inode := by
        intro inode
        rw [placed, hmode]
        rfl
      apply h.grown.skip hwithin (by simp [hmode]) _ hfind hcontent
      apply h.grown.sound.of_find? hfind hcontent
      rw [placed, hmode]
      exact Nat.le_succ _

theorem counts (h : site.Stage counted i j churn disk) (hj : j < site.perDir)
    (hhere : disk.Leads (dirPath site.base i) here)
    (hnone : disk.find? (fileAt here j) = none)
    (hcounted : counted (i * site.perDir + j) = true) :
    site.Stage counted i (j + 1)
      { churn with fileIndex := churn.fileIndex + 1, total := churn.total + 1 }
      (site.placed disk (fileAt here j)) := by
  have hsucc := h.succ hj (h.grown_placed hj hhere hnone hcounted) fun hfree => ⟨hcounted, ?_⟩
  · simpa [hcounted] using hsucc
  · intro n hn
    rw [find?_placed_of_ne]
    · exact h.fresh hfree n (Nat.le_of_lt hn)
    · rw [h.here_eq hhere hfree]
      intro heq
      have := file_label_inj (List.singleton_inj.1 (List.append_cancel_left heq))
      omega

theorem skips (h : site.Stage counted i j churn disk) (hj : j < site.perDir)
    (hhere : disk.Leads (dirPath site.base i) here) {node : Node}
    (hnode : disk.find? (fileAt here j) = some node)
    (hcounted : counted (i * site.perDir + j) = false) :
    site.Stage counted i (j + 1) { churn with fileIndex := churn.fileIndex + 1 } disk := by
  have hwithin : i * site.perDir + j < (i + 1) * site.perDir := by
    rw [Nat.succ_mul]
    omega
  have hgrown := h.grown.skip hwithin (fun _ => hcounted) h.grown.sound (fun _ => rfl) fun _ => rfl
  have hsucc := h.succ hj hgrown fun hfree => by
    have hnone := h.fresh hfree j (Nat.le_refl j)
    rw [← h.here_eq hhere hfree, hnode] at hnone
    cases hnone
  simpa [hcounted] using hsucc

end Stage

/-! ## Steps -/

/-- What the step for the `k`-th name can do. -/
inductive Steps (site : Site) (counted : Nat → Bool) (k : Nat) (churn : Churn) (disk : Disk) :
    Prop where
  | tried (i j : Nat) (index : i * site.perDir + j = k) (hj : j < site.perDir)
      (hpath : ∃ ready next, churn.advance disk = (.ok (), ready, next) ∧
        ready.nextPath = site.name k)
      (hanswer : (churn.step disk).1 = .ok (counted k))
      (hstage : site.Stage counted i (j + 1) (churn.step disk).2.1 (churn.step disk).2.2)
  | blocked (i : Nat) (index : (i + 1) * site.perDir = k)
      (hstep : churn.step disk = (.error .occupied, churn.turned, disk))
      (hstands : disk.nodeAt? (dirPath site.base (i + 1)) ≠ none)
      (hnot : disk.isDirectory (dirPath site.base (i + 1)) = false)

/-- A name is counted when nothing stands there. -/
theorem Stage.step (h : site.Stage counted i j churn disk)
    (hword : i * site.perDir + j < UInt64.size * site.perDir) (hk : i * site.perDir + j = k)
    (hcounted : counted k = (disk.nodeAt? (site.name k)).isNone) :
    site.Steps counted k churn disk := by
  have hadvances := h.advance hword
  rw [hk] at hadvances
  cases hadvances with
  | blocked i index hadvance hstands hnot =>
      refine .blocked i index ?_ hstands hnot
      rw [Churn.step, hadvance]
  | ready i j ready next index hj hadvance hstage hnode =>
      obtain ⟨here, hhere⟩ := hstage.leads_current
      have hpath := hstage.nextPath_eq hj
      have hfind := hstage.nodeAt?_name hj hhere
      rw [index] at hpath hfind
      rw [← hnode, hfind] at hcounted
      cases hstands : next.find? (fileAt here j) with
      | none =>
          have hplace := hstage.place_vacant hj hhere hstands
          have hstep : churn.step disk =
              (.ok true, { ready with
                fileIndex := ready.fileIndex + 1
                total := ready.total + 1 }, site.placed next (fileAt here j)) := by
            rw [Churn.step, hadvance]
            dsimp only
            rw [hpath, ← index, hplace]
          simp only [hstands, Option.isNone_none] at hcounted
          have hnext := hstage.counts hj hhere hstands (index.symm ▸ hcounted)
          refine .tried i j index hj ⟨ready, next, hadvance, hpath⟩ ?_ ?_
          · rw [hstep, hcounted]
          · rwa [hstep]
      | some node =>
          have hplace := hstage.place_occupied hj hhere hstands
          have hstep : churn.step disk =
              (.ok false, { ready with fileIndex := ready.fileIndex + 1 }, next) := by
            rw [Churn.step, hadvance]
            dsimp only
            rw [hpath, ← index, hplace]
          simp only [hstands, Option.isNone_some] at hcounted
          have hnext := hstage.skips hj hhere hstands (index.symm ▸ hcounted)
          refine .tried i j index hj ⟨ready, next, hadvance, hpath⟩ ?_ ?_
          · rw [hstep, hcounted]
          · rwa [hstep]

end Site

end DentryWatch.Churn
