import DentryWatch.Proofs.Churn.Prepared
import DentryWatch.Proofs.Churn.Steps
import DentryWatch.Proofs.Churn.Windows
import Mathlib

/-!
# Drives

A drive tries name after name until enough are made or a directory is blocked.
Only finitely many directories stand from the start, and in all others every name
is counted, so it ends. What it leaves is told by the names it counted, and none
of it depends on the rate.
-/

namespace DentryWatch.Churn

open Disk

/-- The churn and the disk after so many steps. -/
def after (churn : Churn) (start : Disk) : Nat → Churn × Disk
  | 0 => (churn, start)
  | k + 1 => ((after churn start k).1.step (after churn start k).2).2

section

variable (churn : Churn) (start : Disk)

theorem after_succ (k : Nat) :
    churn.after start (k + 1) = ((churn.after start k).1.step (churn.after start k).2).2 := rfl

/-- Whether nothing stands at a name when its turn comes. -/
def counts (k : Nat) : Bool :=
  ((churn.after start k).2.nodeAt? (namePath churn.base churn.perDir k)).isNone

/-- A step tries the name with its number, and makes an entry unless something stands there. -/
structure Tries (k : Nat) : Prop where
  path : ∃ ready next,
    (churn.after start k).1.advance (churn.after start k).2 = (.ok (), ready, next) ∧
      ready.nextPath = namePath churn.base churn.perDir k
  answer : ((churn.after start k).1.step (churn.after start k).2).1 = .ok (churn.counts start k)

/-- How a drive ends after so many names. -/
inductive Ends (max n : Nat) : Except ChurnFailure Unit → Churn → Prop where
  /-- Enough entries are made. -/
  | filled (htotal : (churn.after start n).1.total = max) :
      Ends max n (.ok ()) (churn.after start n).1
  /-- What stands in the place of the next directory is none. -/
  | blocked (i : Nat) (index : (i + 1) * churn.perDir = n)
      (hless : (churn.after start n).1.total < max)
      (hstands : (churn.after start n).2.nodeAt? (dirPath churn.base (i + 1)) ≠ none)
      (hnot : (churn.after start n).2.isDirectory (dirPath churn.base (i + 1)) = false) :
      Ends max n (.error ⟨(churn.after start n).1.total, .occupied⟩) (churn.after start n).1.turned

/-- What so many names add to a tree. -/
structure Gains (n : Nat) (final : Disk) : Prop where
  keeps : start.Keeps final
  /-- The new directories are those that were reached. -/
  dirs : ∀ location, start.find? location = none →
    ((∃ inode, final.find? location = some (.directory inode)) ↔
      ∃ k < n, final.locate (dirPath churn.base (k / churn.perDir)) .kept = .ok location)
  /-- The other new nodes are links of the shared file at the counted names. -/
  links : ∀ location node, start.find? location = none → node.isDirectory = false →
    (final.find? location = some node ↔
      churn.mode = .positive ∧ start.nodeAt? churn.sourcePath = some node ∧
        ∃ k < n, churn.counts start k = true ∧
          final.locate (namePath churn.base churn.perDir k) .kept = .ok location)
  /-- Each counted name is new, and at a place of its own. -/
  apart : churn.mode = .positive → ∀ k < n, churn.counts start k = true →
    ∃ location, start.find? location = none ∧
      final.locate (namePath churn.base churn.perDir k) .kept = .ok location ∧
      ∀ l < n, churn.counts start l = true →
        final.locate (namePath churn.base churn.perDir l) .kept = .ok location → l = k

end

section

variable {max names : Nat} {made : Bool} {churn churn' : Churn} {disk disk' : Disk}

theorem driveWithin_tried (hstep : (churn.step disk).1 = .ok made) :
    driveWithin max (names + 1) churn disk =
      if 0 < max && max ≤ (churn.step disk).2.1.total then (.ok (), (churn.step disk).2)
      else driveWithin max names (churn.step disk).2.1 (churn.step disk).2.2 := by
  rw [driveWithin]
  rcases hboth : churn.step disk with ⟨outcome, state⟩
  obtain rfl : outcome = .ok made := by rwa [hboth] at hstep
  rfl

theorem driveWithin_blocked (hstep : churn.step disk = (.error .occupied, churn', disk')) :
    driveWithin max (names + 1) churn disk =
      (.error ⟨churn'.total, .occupied⟩, churn', disk') := by
  rw [driveWithin, hstep]

end

namespace Site

variable (site : Site)

def prepared : Churn := site.churn 0 0 0

/-- So many names were tried. -/
def Reached (k : Nat) : Prop :=
  ∃ i j, i * site.perDir + j = k ∧ (0 < k → 0 < j) ∧
    site.Stage (site.prepared.counts site.start) i j
      (site.prepared.after site.start k).1 (site.prepared.after site.start k).2

/-! ## The end -/

theorem countP_stood_le (n : Nat) :
    (List.range n).countP site.stood ≤ site.start.nodes.length := by
  have hsub : ((List.range n).filter site.stood).map site.dirAt ⊆ site.start.nodes.map Prod.fst := by
    intro location hmem
    obtain ⟨i, hi, rfl⟩ := List.mem_map.1 hmem
    obtain ⟨node, hnode⟩ := Option.isSome_iff_exists.1 (List.mem_filter.1 hi).2
    obtain ⟨before, later, hsplit, -⟩ := List.lookup_eq_some_iff.1 hnode
    simp [hsplit]
  have hnodup : (((List.range n).filter site.stood).map site.dirAt).Nodup :=
    List.Nodup.map (fun _ _ => site.dirAt_inj) (List.nodup_range.filter _)
  have hle := (List.subperm_of_subset hnodup hsub).length_le
  simpa [List.countP_eq_length_filter] using hle

variable {site} {i j k n max : Nat} {counted : Nat → Bool} {churn : Churn} {disk : Disk}

/-- Not more names are skipped than fit in the directories that stood from the start. -/
theorem Stage.index_le (h : site.Stage counted i j churn disk) :
    i * site.perDir + j ≤ churn.total + site.perDir * site.start.nodes.length := by
  have hspent := h.spent
  have hle := Nat.mul_le_mul_left site.perDir (site.countP_stood_le (i + 1))
  rw [countP_range_succ, Nat.mul_add] at hle
  have hj := h.le_perDir
  cases hstood : site.stood i <;> simp [hstood] at hspent hle <;> omega

theorem reached_zero : site.Reached 0 :=
  ⟨0, 0, by simp, by simp, stage_start⟩

theorem Reached.index_le (h : site.Reached k) :
    k ≤ (site.prepared.after site.start k).1.total + site.perDir * site.start.nodes.length := by
  obtain ⟨i, j, index, -, hstage⟩ := h
  exact index ▸ hstage.index_le

theorem Reached.total_eq (h : site.Reached k) :
    (site.prepared.after site.start k).1.total =
      (List.range k).countP (site.prepared.counts site.start) := by
  obtain ⟨i, j, index, -, hstage⟩ := h
  rw [hstage.churn_eq, index]
  rfl

/-- From a stage that was reached a drive of so many names ends after `n` names in all. -/
structure Drives (site : Site) (max names k n : Nat) (outcome : Except ChurnFailure Unit)
    (last : Churn) : Prop where
  le : k ≤ n
  result : driveWithin max names (site.prepared.after site.start k).1
    (site.prepared.after site.start k).2 = (outcome, last, (site.prepared.after site.start n).2)
  ends : site.prepared.Ends site.start max n outcome last
  reached : site.Reached n
  pos : 0 < n
  tries : ∀ l, k ≤ l → l < n → site.Reached l ∧
    site.prepared.Tries site.start l ∧ (site.prepared.after site.start l).1.total < max

section

variable {names : Nat} (h : site.Reached k)
  (hless : (site.prepared.after site.start k).1.total < max)

include h hless

theorem drives_blocked (index : (i + 1) * site.perDir = k)
    (hstep : (site.prepared.after site.start k).1.step (site.prepared.after site.start k).2 =
      (.error .occupied, (site.prepared.after site.start k).1.turned,
        (site.prepared.after site.start k).2))
    (hstands : (site.prepared.after site.start k).2.nodeAt? (dirPath site.base (i + 1)) ≠ none)
    (hnot : (site.prepared.after site.start k).2.isDirectory (dirPath site.base (i + 1)) = false) :
    site.Drives max (names + 1) k k
      (.error ⟨(site.prepared.after site.start k).1.total, .occupied⟩)
      (site.prepared.after site.start k).1.turned where
  le := Nat.le_refl k
  result := driveWithin_blocked hstep
  ends := .blocked i index hless hstands hnot
  reached := h
  pos := index ▸ Nat.mul_pos (Nat.succ_pos i) site.perDir_pos
  tries l hl hlast := by omega

variable (htries : site.prepared.Tries site.start k)

include htries

theorem drives_filled (hnext : site.Reached (k + 1)) (hmax : 0 < max)
    (hfull : max ≤ (site.prepared.after site.start (k + 1)).1.total) :
    site.Drives max (names + 1) k (k + 1) (.ok ()) (site.prepared.after site.start (k + 1)).1 where
  le := Nat.le_succ k
  result := by
    rw [driveWithin_tried htries.answer, ← after_succ, if_pos (by simp [hmax, hfull])]
  ends := by
    -- a step makes one entry at most, so there are not more than enough
    have htotal := hnext.total_eq
    rw [countP_range_succ, ← h.total_eq] at htotal
    apply Ends.filled
    split at htotal <;> omega
  reached := hnext
  pos := Nat.succ_pos k
  tries l hl hlast := by
    obtain rfl : l = k := by omega
    exact ⟨h, htries, hless⟩

theorem Drives.cons {outcome : Except ChurnFailure Unit} {last : Churn}
    (hroom : (site.prepared.after site.start (k + 1)).1.total < max)
    (hrest : site.Drives max names (k + 1) n outcome last) :
    site.Drives max (names + 1) k n outcome last where
  le := Nat.le_of_succ_le hrest.le
  result := by
    rw [driveWithin_tried htries.answer, ← after_succ, if_neg (by simp [hroom])]
    exact hrest.result
  ends := hrest.ends
  reached := hrest.reached
  pos := hrest.pos
  tries l hl hlast := by
    rcases Nat.eq_or_lt_of_le hl with rfl | hl
    · exact ⟨h, htries, hless⟩
    · exact hrest.tries l hl hlast

end

/-- The names that are left are enough, as only so many are skipped. -/
theorem Reached.exists_drives (hmax : 0 < max)
    (hwords : max + site.perDir * site.start.nodes.length ≤ UInt64.size * site.perDir)
    (names : Nat) (h : site.Reached k) (hless : (site.prepared.after site.start k).1.total < max)
    (hnames : max + site.perDir * site.start.nodes.length ≤ k + names) :
    ∃ n outcome last, site.Drives max names k n outcome last := by
  -- the bound on the index is carried along: with no name left it would leave no entry to make
  have hle := h.index_le
  induction names generalizing k with
  | zero => omega
  | succ names ih =>
      obtain ⟨i, j, index, hpos, hstage⟩ := h
      cases hstage.step (by omega) index rfl with
      | blocked i' index' hstep hstands hnot =>
          exact ⟨k, _, _, drives_blocked ⟨i, j, index, hpos, hstage⟩ hless index' hstep hstands hnot⟩
      | tried i' j' index' hj hpath hanswer hstage' =>
          have hreached : site.Reached k := ⟨i, j, index, hpos, hstage⟩
          have htries : site.prepared.Tries site.start k := ⟨hpath, hanswer⟩
          have hnext : site.Reached (k + 1) := ⟨i', j' + 1, by omega, by omega, hstage'⟩
          by_cases hfull : max ≤ (site.prepared.after site.start (k + 1)).1.total
          · exact ⟨k + 1, _, _, drives_filled hreached hless htries hnext hmax hfull⟩
          · have hroom := Nat.lt_of_not_le hfull
            obtain ⟨n, outcome, last, hrest⟩ := ih hnext hroom (by omega) hnext.index_le
            exact ⟨n, outcome, last, hrest.cons hreached hless htries hroom⟩

/-! ## What is left -/

theorem Grown.locate_dir (h : site.Grown counted k i disk) (hn : n ≤ i) :
    disk.locate (dirPath site.base n) .kept = .ok (site.dirAt n) := by
  have hword : n < UInt64.size := Nat.lt_of_le_of_lt hn h.word
  exact h.leads_base.locate_child (proper_dir_label hword) (site.fits.check_dir hword) .kept
    (.inl rfl)

theorem nodeAt?_source (hmode : site.mode = .positive) :
    site.start.nodeAt? site.prepared.sourcePath = some site.source := by
  have hnode := site.leads.nodeAt?_child proper_source site.fits.check_source
  rw [site.source_stands hmode] at hnode
  exact hnode

theorem Reached.gains (h : site.Reached n) (hpos : 0 < n) :
    site.prepared.Gains site.start n (site.prepared.after site.start n).2 := by
  obtain ⟨i, j, index, hj, hstage⟩ := h
  have hgrown := hstage.grown
  rw [index] at hgrown
  have hlast := hj hpos
  refine ⟨hgrown.keeps, ?_, ?_, ?_⟩
  · intro location hnone
    rw [hgrown.dirs location hnone]
    constructor
    · -- a directory is reached with the first of its names
      rintro ⟨m, hm, rfl⟩
      have hle := Nat.mul_le_mul_right site.perDir hm
      refine ⟨m * site.perDir, by omega, ?_⟩
      have hdiv : m * site.perDir / site.prepared.perDir = m := Nat.mul_div_cancel m site.perDir_pos
      rw [hdiv]
      exact hgrown.locate_dir hm
    · rintro ⟨k, hk, hlocate⟩
      have hle := hgrown.div_le hk
      exact ⟨_, hle, Except.ok.inj (hlocate.symm.trans (hgrown.locate_dir hle))⟩
  · intro location node hnone hplain
    rw [hgrown.links location node hnone hplain]
    refine and_congr_right fun hmode => and_congr_left fun _ => ?_
    rw [nodeAt?_source hmode, Option.some.injEq, eq_comm]
  · intro hmode k hk hcounted
    obtain ⟨here, -, hlocate⟩ := hgrown.exists_locate hk
    refine ⟨_, hgrown.vacant hmode k hk hcounted _ hlocate, hlocate, ?_⟩
    intro l hl hcl hsame
    exact hgrown.apart hmode l hl k hk hcl hcounted (hsame.trans hlocate.symm)

end Site

/--
A prepared churn ends at every rate with the same result: with enough entries, or
at a directory that is blocked. What it adds is what it counts, and nothing that
stood is changed. No limit is met: paths below the base stay short enough, and
64-bit numbers are enough for all directories that can be needed.
-/
theorem driveAt_makes_what_it_counts {before start : Disk} {base : Path} {mode : ChurnMode}
    {perDir max : UInt64} {churn : Churn} (hsound : before.Sound) (hperDir : 0 < perDir)
    (hmax : 0 < max) (hprepare : prepare before base mode perDir.toNat = (.ok churn, start))
    (hpaths : base.length + 44 < Path.maxLength)
    (hnumbers : max.toNat + perDir.toNat * start.nodes.length ≤
      UInt64.size * perDir.toNat) :
    churn = { base, mode, perDir := perDir.toNat } ∧ before.Keeps start ∧
      (∀ location node, before.find? location = none → start.find? location = some node →
        node.isDirectory = true ∨
          mode = .positive ∧ start.stat churn.sourcePath = .ok (location, node)) ∧
      ∃ n outcome last,
        (∀ rate, churn.driveAt start rate max.toNat true =
          (outcome, last, (churn.after start n).2)) ∧
        churn.Ends start max.toNat n outcome last ∧
        (∀ k < n, churn.Tries start k ∧ (churn.after start k).1.total < max.toNat) ∧
        (∀ k ≤ n, (churn.after start k).1.total = (List.range k).countP (churn.counts start)) ∧
        churn.Gains start n (churn.after start n).2 := by
  have hpos : 0 < perDir.toNat := UInt64.lt_iff_toNat_lt.1 hperDir
  have hmax' : 0 < max.toNat := UInt64.lt_iff_toNat_lt.1 hmax
  obtain ⟨rfl, made, opened, hprepares⟩ := prepares_of_ok hpos hprepare
  refine ⟨rfl, hprepares.keeps, fun location node => hprepares.gained, ?_⟩
  obtain ⟨site, rfl, rfl, hsite, rfl⟩ :=
    hprepares.exists_site hsound hpaths hpos (Nat.le_of_lt perDir.toNat_lt)
  rw [← hsite] at hnumbers ⊢
  have hnames : max.toNat + site.perDir * site.start.nodes.length ≤ 0 + site.prepared.namesLeft := by
    rw [Nat.zero_add]
    exact hnumbers
  obtain ⟨n, outcome, last, hdrives⟩ :=
    Site.reached_zero.exists_drives hmax' hnumbers site.prepared.namesLeft hmax' hnames
  refine ⟨n, outcome, last, fun rate => ?_, hdrives.ends,
    fun k hk => (hdrives.tries k (Nat.zero_le k) hk).2, fun k hk => ?_,
    hdrives.reached.gains hdrives.pos⟩
  · rw [driveAt_eq_drive, drive, if_pos rfl]
    exact hdrives.result
  · rcases Nat.lt_or_eq_of_le hk with hk | rfl
    · exact (hdrives.tries k (Nat.zero_le k) hk).1.total_eq
    · exact hdrives.reached.total_eq

/-- A file in the place of the second directory blocks the drive at every rate. -/
theorem driveAt_makes_what_it_counts_blocked :
    let before : Disk := (({} : Disk).create [[0x64, 0x31]] .file).2
    let start : Disk := (before.create [[0x64, 0x30]] .directory).2
    let churn : Churn := { base := [0x2F], mode := .negative, perDir := 2 }
    prepare before [0x2F] .negative 2 = (.ok churn, start) ∧
      ∀ rate, (churn.driveAt start rate 10 true).1 = .error ⟨2, .occupied⟩ := by
  intro before start churn
  have hprepare : prepare before [0x2F] .negative 2 = (.ok churn, start) := by cbv
  have hsound : before.Sound :=
    (sound_empty.create .file (fun _ h => (Node.file.inj h).symm) rfl ⟨[], _, 2, rfl, rfl⟩).1
  have hperDir : (0 : UInt64) < 2 := by decide
  have hmax : (0 : UInt64) < 10 := by decide
  obtain ⟨-, -, -, n, outcome, last, hdrive, hends, htries, htotal, -⟩ :=
    driveAt_makes_what_it_counts hsound hperDir hmax hprepare (by decide) (by decide)
  have hstep : ((churn.after start 2).1.step (churn.after start 2).2).1 = .error .occupied := by cbv
  have hmade : (churn.after start 2).1.total = 2 := by cbv
  have hn : n ≤ 2 := by
    by_contra hmore
    simpa [hstep] using (htries 2 (by omega)).1.answer
  refine ⟨hprepare, fun rate => (congrArg Prod.fst (hdrive rate)).trans ?_⟩
  cases hends with
  | filled hfilled =>
      have hfew := List.countP_le_length (p := churn.counts start) (l := List.range n)
      rw [← htotal n (Nat.le_refl n), hfilled, List.length_range] at hfew
      have hten : (10 : UInt64).toNat ≤ n := hfew
      simp at hten
      omega
  | blocked i index =>
      have hperDir : churn.perDir = 2 := rfl
      obtain rfl : n = 2 := by
        rw [hperDir] at index
        omega
      rw [hmade]

end DentryWatch.Churn
