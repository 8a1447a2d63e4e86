import DentryWatch.Proofs.Churn.Names
import DentryWatch.Proofs.Disk.Entries
import DentryWatch.Proofs.Disk.Opened

/-!
# What a churn adds to a tree

The directories a churn makes stand right below its base, and the links it makes
in the directories it tried names in. A link is only made where nothing stood, so
no two of the counted names are one.
-/

namespace DentryWatch.Churn

open Disk

/-- A disk on which a churn was prepared. -/
structure Site where
  base : Path
  mode : ChurnMode
  perDir : Nat
  /-- The disk before the first name is tried. -/
  start : Disk
  /-- Where the base is. -/
  top : Location
  /-- What is linked in positive mode. -/
  source : Node
  fits : Fits base
  perDir_pos : 0 < perDir
  perDir_le : perDir ≤ UInt64.size
  sound : start.Sound
  leads : start.Leads base top
  leads_first : ∃ here, start.Leads (dirPath base 0) here
  source_stands : mode = .positive → start.find? (top ++ [Path.ofText ".src"]) = some source
  source_plain : source.isDirectory = false

namespace Site

variable (site : Site)

def name (k : Nat) : Path := namePath site.base site.perDir k

def dirAt (n : Nat) : Location := site.top ++ [Path.ofText (label 'd' n)]

/-- Whether something stood in the place of a directory from the start. -/
def stood (n : Nat) : Bool := (site.start.find? (site.dirAt n)).isSome

theorem dirAt_inj {n m : Nat} (h : site.dirAt n = site.dirAt m) : n = m :=
  dir_label_inj (List.singleton_inj.1 (List.append_cancel_left h))

theorem dirAt_ne (n m : Nat) (here : Location) :
    site.dirAt n ≠ here ++ [Path.ofText (label 'f' m)] := by
  intro h
  exact dir_label_ne_file_label n m (List.singleton_inj.1 (List.append_inj_right' h rfl))

/-- A name is tried in the directory that its path begins with. -/
theorem locate_name {l : Nat} {disk : Disk} {here : Location} (hl : l / site.perDir < UInt64.size)
    (hhere : disk.Leads (dirPath site.base (l / site.perDir)) here) :
    disk.locate (site.name l) .kept =
      .ok (here ++ [Path.ofText (label 'f' (l % site.perDir))]) := by
  have hmod : l % site.perDir < UInt64.size :=
    Nat.lt_of_lt_of_le (Nat.mod_lt l site.perDir_pos) site.perDir_le
  exact hhere.locate_child (proper_file_label hmod) (site.fits.check_file hl hmod) .kept (.inl rfl)

/-- The disk after so many names, with directories up to a number. -/
structure Grown (counted : Nat → Bool) (k i : Nat) (disk : Disk) : Prop where
  word : i < UInt64.size
  within : k ≤ (i + 1) * site.perDir
  sound : disk.Sound
  keeps : site.start.Keeps disk
  leads : ∀ n ≤ i, ∃ here, disk.Leads (dirPath site.base n) here
  dirs : ∀ location, site.start.find? location = none →
    ((∃ inode, disk.find? location = some (.directory inode)) ↔ ∃ n ≤ i, location = site.dirAt n)
  links : ∀ location node, site.start.find? location = none → node.isDirectory = false →
    (disk.find? location = some node ↔ site.mode = .positive ∧ node = site.source ∧
      ∃ l < k, counted l = true ∧ disk.locate (site.name l) .kept = .ok location)
  vacant : site.mode = .positive → ∀ l < k, counted l = true → ∀ location,
    disk.locate (site.name l) .kept = .ok location → site.start.find? location = none
  apart : site.mode = .positive → ∀ l < k, ∀ m < k, counted l = true → counted m = true →
    disk.locate (site.name l) .kept = disk.locate (site.name m) .kept → l = m

theorem stood_first : site.start.find? (site.dirAt 0) ≠ none := by
  obtain ⟨here, hfirst⟩ := site.leads_first
  exact site.leads.find?_ne_none (proper_dir_label (by decide)) (site.fits.check_dir (by decide))
    hfirst

variable {site} {counted : Nat → Bool} {k i l n : Nat} {disk next : Disk} {here : Location}

theorem grown_start : site.Grown counted 0 0 site.start where
  word := by decide
  within := Nat.zero_le _
  sound := site.sound
  keeps := .refl _
  leads n hn := by
    obtain rfl := Nat.le_zero.1 hn
    exact site.leads_first
  dirs location hnone := by
    refine ⟨fun ⟨inode, hdir⟩ => by simp [hnone] at hdir, ?_⟩
    rintro ⟨n, hn, rfl⟩
    obtain rfl := Nat.le_zero.1 hn
    exact absurd hnone site.stood_first
  links location node hnone hplain := by simp [hnone]
  vacant := by simp
  apart := by simp

namespace Grown

section

variable (h : site.Grown counted k i disk)

include h

theorem leads_base : disk.Leads site.base site.top := site.leads.mono h.keeps.includes

/-- A name that was tried is in a directory that was reached. -/
theorem div_le (hl : l < k) : l / site.perDir ≤ i := by
  have hwithin := h.within
  exact Nat.le_of_lt_succ ((Nat.div_lt_iff_lt_mul site.perDir_pos).2 (Nat.lt_of_lt_of_le hl hwithin))

theorem exists_locate (hl : l < k) :
    ∃ here, disk.Leads (dirPath site.base (l / site.perDir)) here ∧
      disk.locate (site.name l) .kept =
        .ok (here ++ [Path.ofText (label 'f' (l % site.perDir))]) := by
  obtain ⟨here, hhere⟩ := h.leads _ (h.div_le hl)
  exact ⟨here, hhere, site.locate_name (Nat.lt_of_le_of_lt (h.div_le hl) h.word) hhere⟩

/-- A name keeps its place. -/
theorem locate_name_of_keeps (hkeeps : disk.Keeps next) (hl : l < k) :
    next.locate (site.name l) .kept = disk.locate (site.name l) .kept := by
  obtain ⟨here, hhere, hlocate⟩ := h.exists_locate hl
  rw [hlocate]
  exact site.locate_name (Nat.lt_of_le_of_lt (h.div_le hl) h.word) (hhere.mono hkeeps.includes)

theorem exists_name_iff (hkeeps : disk.Keeps next) (location : Location) :
    (∃ l < k, counted l = true ∧ next.locate (site.name l) .kept = .ok location) ↔
      ∃ l < k, counted l = true ∧ disk.locate (site.name l) .kept = .ok location :=
  exists_congr fun _ => and_congr_right fun hl => by rw [h.locate_name_of_keeps hkeeps hl]

theorem vacant_of_keeps (hkeeps : disk.Keeps next) (hmode : site.mode = .positive) :
    ∀ l < k, counted l = true → ∀ location, next.locate (site.name l) .kept = .ok location →
      site.start.find? location = none := by
  intro l hl hcl location hlocate
  rw [h.locate_name_of_keeps hkeeps hl] at hlocate
  exact h.vacant hmode l hl hcl location hlocate

theorem apart_of_keeps (hkeeps : disk.Keeps next) (hmode : site.mode = .positive) :
    ∀ l < k, ∀ m < k, counted l = true → counted m = true →
      next.locate (site.name l) .kept = next.locate (site.name m) .kept → l = m := by
  intro l hl m hm hcl hcm heq
  rw [h.locate_name_of_keeps hkeeps hl, h.locate_name_of_keeps hkeeps hm] at heq
  exact h.apart hmode l hl m hm hcl hcm heq

/-- Where nothing stood from the start, there is no directory before it is reached. -/
theorem find?_dirAt (hnone : site.start.find? (site.dirAt n) = none) (hn : i < n) :
    disk.find? (site.dirAt n) = none := by
  cases hfind : disk.find? (site.dirAt n) with
  | none => rfl
  | some node =>
      cases hplain : node.isDirectory with
      | true =>
          cases node <;> simp [Node.isDirectory] at hplain
          obtain ⟨m, hm, heq⟩ := (h.dirs _ hnone).1 ⟨_, hfind⟩
          have := site.dirAt_inj heq
          omega
      | false =>
          obtain ⟨-, -, l, hl, -, hlocate⟩ := (h.links _ node hnone hplain).1 hfind
          obtain ⟨here, -, hname⟩ := h.exists_locate hl
          rw [hname] at hlocate
          exact absurd (Except.ok.inj hlocate).symm (site.dirAt_ne n _ here)

/-- A directory that was made stands right below the base. -/
theorem leads_dirAt (hnone : site.start.find? (site.dirAt n) = none) (hn : n ≤ i) :
    disk.Leads (dirPath site.base n) (site.dirAt n) := by
  obtain ⟨inode, hdir⟩ := (h.dirs _ hnone).2 ⟨n, hn, rfl⟩
  exact h.leads_base.child (proper_dir_label (Nat.lt_of_le_of_lt hn h.word)) hdir

end

/-! ## Steps -/

/-- A directory that stood from the start is entered. -/
theorem enter (h : site.Grown counted k i disk) (hword : i + 1 < UInt64.size)
    (hstood : site.start.find? (site.dirAt (i + 1)) ≠ none)
    (hhere : ∃ here, disk.Leads (dirPath site.base (i + 1)) here) :
    site.Grown counted k (i + 1) disk where
  word := hword
  within := Nat.le_trans h.within (Nat.mul_le_mul_right _ (Nat.le_succ _))
  sound := h.sound
  keeps := h.keeps
  leads n hn := by
    rcases Nat.le_succ_iff.1 hn with hn | rfl
    · exact h.leads n hn
    · exact hhere
  dirs location hnone := by
    rw [h.dirs location hnone]
    constructor
    · rintro ⟨n, hn, hlocation⟩
      exact ⟨n, Nat.le_succ_of_le hn, hlocation⟩
    · rintro ⟨n, hn, rfl⟩
      rcases Nat.le_succ_iff.1 hn with hn | rfl
      · exact ⟨n, hn, rfl⟩
      · exact absurd hnone hstood
  links := h.links
  vacant := h.vacant
  apart := h.apart

/-- A directory is made where nothing stood. -/
theorem make (h : site.Grown counted k i disk) (hword : i + 1 < UInt64.size)
    (hnone : disk.find? (site.dirAt (i + 1)) = none) :
    site.Grown counted k (i + 1) (disk.create (site.dirAt (i + 1)) .directory).2 := by
  have hkeeps := keeps_create hnone .directory
  obtain ⟨inode, hbase⟩ := h.leads_base.stands
  obtain ⟨hsound, -, hmade⟩ := h.sound.create .directory nofun hnone ⟨_, _, inode, rfl, hbase⟩
  have hproper := proper_dir_label hword
  refine ⟨hword, ?_, hsound, h.keeps.trans hkeeps, ?_, ?_, ?_, h.vacant_of_keeps hkeeps,
    h.apart_of_keeps hkeeps⟩
  · exact Nat.le_trans h.within (Nat.mul_le_mul_right _ (Nat.le_succ _))
  · intro n hn
    rcases Nat.le_succ_iff.1 hn with hn | rfl
    · obtain ⟨here, hhere⟩ := h.leads n hn
      exact ⟨here, hhere.mono hkeeps.includes⟩
    · exact ⟨_, (h.leads_base.mono hkeeps.includes).child hproper hmade⟩
  · intro location hfree
    rw [find?_create]
    split
    · next heq => simpa using ⟨i + 1, Nat.le_refl _, heq⟩
    · next hne =>
        rw [h.dirs location hfree]
        constructor
        · rintro ⟨n, hn, hlocation⟩
          exact ⟨n, Nat.le_succ_of_le hn, hlocation⟩
        · rintro ⟨n, hn, rfl⟩
          rcases Nat.le_succ_iff.1 hn with hn | rfl
          · exact ⟨n, hn, rfl⟩
          · exact absurd rfl hne
  · intro location node hfree hplain
    rw [h.exists_name_iff hkeeps, ← h.links location node hfree hplain, find?_create]
    split
    · next heq =>
        subst heq
        simp only [hnone, reduceCtorEq, iff_false, Option.some.injEq]
        rintro rfl
        simp [Node.isDirectory] at hplain
    · rfl

/-- A name that is not counted leaves the tree alone. -/
theorem skip (h : site.Grown counted k i disk) (hwithin : k < (i + 1) * site.perDir)
    (hskip : site.mode = .positive → counted k = false)
    (hsound : next.Sound) (hfind : ∀ location, next.find? location = disk.find? location)
    (hcontent : ∀ inode, next.content inode = disk.content inode) :
    site.Grown counted (k + 1) i next := by
  have hkeeps : disk.Keeps next := ⟨fun location node => by simp [hfind], hcontent⟩
  have hlast : site.mode = .positive → ∀ l < k + 1, counted l = true → l < k := by
    intro hmode l hl hcl
    rcases Nat.lt_succ_iff_lt_or_eq.1 hl with hl | rfl
    · exact hl
    · simp [hskip hmode] at hcl
  refine ⟨h.word, hwithin, hsound, h.keeps.trans hkeeps, ?_, ?_, ?_, ?_, ?_⟩
  · intro n hn
    obtain ⟨here, hhere⟩ := h.leads n hn
    exact ⟨here, hhere.mono hkeeps.includes⟩
  · intro location hnone
    simpa [hfind] using h.dirs location hnone
  · intro location node hnone hplain
    rw [hfind, h.links location node hnone hplain]
    refine and_congr_right fun hmode => and_congr_right fun _ => ?_
    rw [Nat.exists_lt_succ_right, or_iff_left (by simp [hskip hmode]), h.exists_name_iff hkeeps]
  · intro hmode l hl hcl
    exact h.vacant_of_keeps hkeeps hmode l (hlast hmode l hl hcl) hcl
  · intro hmode l hl m hm hcl hcm
    exact h.apart_of_keeps hkeeps hmode l (hlast hmode l hl hcl) m (hlast hmode m hm hcm) hcl hcm

/-- A counted name is one more link, and new. -/
theorem link (h : site.Grown counted k i disk) (hwithin : k < (i + 1) * site.perDir)
    (hmode : site.mode = .positive) (hcounted : counted k = true)
    (hhere : disk.Leads (dirPath site.base (k / site.perDir)) here) {goal : Location}
    (hgoal : goal = here ++ [Path.ofText (label 'f' (k % site.perDir))])
    (hnone : disk.find? goal = none) :
    site.Grown counted (k + 1) i (disk.put goal site.source) := by
  have hkeeps := keeps_put hnone site.source
  have hdiv : k / site.perDir < UInt64.size :=
    Nat.lt_of_le_of_lt (Nat.le_of_lt_succ ((Nat.div_lt_iff_lt_mul site.perDir_pos).2 hwithin)) h.word
  have hname := site.locate_name hdiv (hhere.mono hkeeps.includes)
  rw [← hgoal] at hname
  refine ⟨h.word, hwithin, ?_, h.keeps.trans hkeeps, ?_, ?_, ?_, ?_, ?_⟩
  · obtain ⟨inode, hdir⟩ := hhere.stands
    refine h.sound.put hnone ⟨_, _, inode, hgoal, hdir⟩ fun file hfile => ?_
    have hstands := h.keeps.find? _ _ (site.source_stands hmode)
    exact h.sound.numbered _ file (hfile ▸ hstands)
  · intro n hn
    obtain ⟨here, hhere⟩ := h.leads n hn
    exact ⟨here, hhere.mono hkeeps.includes⟩
  · intro location hfree
    rw [← h.dirs location hfree, find?_put]
    split
    · next heq =>
        subst heq
        have hplain := site.source_plain
        simp only [hnone, reduceCtorEq, exists_false, iff_false, Option.some.injEq]
        rintro ⟨inode, hsource⟩
        simp [hsource, Node.isDirectory] at hplain
    · rfl
  · intro location node hfree hplain
    rw [find?_put, Nat.exists_lt_succ_right, h.exists_name_iff hkeeps, hname]
    split
    · next heq =>
        simp only [heq, hmode, hcounted, true_and, and_true, or_true, Option.some.injEq]
        exact eq_comm
    · next hne =>
        have hother : ¬ (counted k = true ∧ (Except.ok goal : Except SystemError Location) =
            .ok location) := fun hboth => hne (Except.ok.inj hboth.2).symm
        rw [or_iff_left hother, h.links location node hfree hplain]
  · intro _ l hl hcl location hlocate
    rcases Nat.lt_succ_iff_lt_or_eq.1 hl with hl | rfl
    · exact h.vacant_of_keeps hkeeps hmode l hl hcl location hlocate
    · rw [hname, Except.ok.injEq] at hlocate
      exact h.keeps.none_of_none (hlocate ▸ hnone)
  · -- a name counted before stands, so the new one is none of them
    have hnew : ∀ l < k, counted l = true →
        (disk.put goal site.source).locate (site.name l) .kept ≠ .ok goal := by
      intro l hl hcl hlocate
      have hfree := h.vacant_of_keeps hkeeps hmode l hl hcl goal hlocate
      rw [h.locate_name_of_keeps hkeeps hl] at hlocate
      have hstands := (h.links goal _ hfree site.source_plain).2 ⟨hmode, rfl, l, hl, hcl, hlocate⟩
      simp [hnone] at hstands
    intro _ l hl m hm hcl hcm heq
    rcases Nat.lt_succ_iff_lt_or_eq.1 hl with hl | rfl <;>
      rcases Nat.lt_succ_iff_lt_or_eq.1 hm with hm | rfl
    · exact h.apart_of_keeps hkeeps hmode l hl m hm hcl hcm heq
    · exact absurd (heq.trans hname) (hnew l hl hcl)
    · exact absurd (heq.symm.trans hname) (hnew m hm hcm)
    · rfl

end Grown

end Site

end DentryWatch.Churn
