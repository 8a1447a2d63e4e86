import DentryWatch.Cgroup.Resolver
import DentryWatch.Proofs.Cgroup.Unified
import DentryWatch.Proofs.Disk.Children
import DentryWatch.Proofs.Text.Decoding
import DentryWatch.Proofs.Text.Utf8

/-!
# Directories of control groups

The path of a listed group below the root of the hierarchy goes on after the
root with names that lead further down. So no listing makes a look-up leave the
root: what is found depends on nothing of the disk outside.
-/

namespace DentryWatch

/-- A name that leads one step down. -/
structure FileName.Descends (name : FileName) : Prop where
  ne_nil : name ≠ []
  ne_dot : name ≠ [0x2E]
  ne_dots : name ≠ [0x2E, 0x2E]
  slash : Path.slash ∉ name

namespace Path

/-- After those of a root a path has only names that lead further down, by its text alone. -/
def Within (root path : Path) : Prop :=
  ∃ below : List FileName, path.parts = (root.parts.1, root.parts.2 ++ below) ∧
    ∀ name ∈ below, FileName.Descends name

theorem head?_join (root : Path) {tail : Path} (h : tail.head? ≠ some slash) :
    (root.join tail).head? = some slash ↔ root.head? = some slash := by
  rw [join, if_neg h]
  cases root with
  | nil => simpa using h
  | cons byte root => split <;> simp

theorem parts_of_bare_nil {path : Path} (h : path.bare = []) :
    path.parts = (decide (path.head? = some slash), []) := by
  rw [bare] at h
  simp only [parts, h]

theorem parts_of_bare_cons {path : Path} {first : FileName} {rest : List FileName}
    (h : path.bare = first :: rest) :
    path.parts = (decide (path.head? = some slash),
      (if decide (path.head? = some slash) && first = [0x2E] then [] else [first]) ++
        rest.filter (· ≠ [0x2E])) := by
  rw [bare] at h
  simp only [parts, h]

/-- Joining a relative path adds its names to the parts. -/
theorem parts_join (root : Path) {tail : Path} (h : tail.head? ≠ some slash)
    (hdot : [0x2E] ∉ tail.bare) :
    (root.join tail).parts = (root.parts.1, root.parts.2 ++ tail.bare) := by
  have hkept : ∀ names : List FileName, [0x2E] ∉ names → names.filter (· ≠ [0x2E]) = names := by
    intro names hnames
    refine List.filter_eq_self.2 fun name hmem => decide_eq_true fun heq => hnames ?_
    exact heq ▸ hmem
  have hbare := root.bare_join h
  cases hroot : root.bare with
  | cons first rest =>
      rw [hroot, List.cons_append] at hbare
      rw [parts_of_bare_cons hroot, parts_of_bare_cons hbare, List.filter_append, hkept _ hdot]
      simp only [root.head?_join h, List.append_assoc]
  | nil =>
      rw [hroot, List.nil_append] at hbare
      rw [parts_of_bare_nil hroot]
      cases htail : tail.bare with
      | nil =>
          rw [htail] at hbare
          rw [parts_of_bare_nil hbare]
          simp only [root.head?_join h, List.append_nil]
      | cons first rest =>
          rw [htail] at hbare hdot
          rw [List.mem_cons, not_or] at hdot
          have hfirst : first ≠ [0x2E] := Ne.symm hdot.1
          rw [parts_of_bare_cons hbare, hkept rest hdot.2]
          simp [root.head?_join h, hfirst]

end Path

/-- Two disks show the same inode numbers inside a directory. -/
def Disk.SameInside (disk other : Disk) (root : Path) : Prop :=
  ∀ target, root.Within target → disk.inodeOf target = other.inodeOf target

namespace Cgroup

variable {parts : List (List Char)}

/-! ## Names of cleaned paths -/

theorem Proper.descends {part : List Char} (h : Proper part) :
    FileName.Descends (Utf8.encodeChars part) :=
  ⟨fun heq => h.ne_nil (Utf8.encodeChars_inj heq), fun heq => h.ne_dot (Utf8.encodeChars_inj heq),
    fun heq => h.ne_dots (Utf8.encodeChars_inj heq),
    fun hmem => h.slash ((Utf8.mem_encodeChars_iff (show '/'.toNat < 0x80 by decide)).1 hmem)⟩

theorem bare_intercalate (h : ∀ part ∈ parts, Proper part) :
    Path.bare (Utf8.encodeChars (['/'].intercalate parts)) = parts.map Utf8.encodeChars := by
  induction parts with
  | nil => rfl
  | cons part rest ih =>
      have hname := (h part List.mem_cons_self).descends
      have hpart := Path.bare_of_slash_not_mem hname.ne_nil hname.slash
      cases rest with
      | nil => rw [List.intercalate_singleton, hpart, List.map_singleton]
      | cons next rest =>
          rw [List.intercalate_cons_cons, List.append_assoc, Utf8.encodeChars_append, List.map_cons,
            ← ih fun part hmem => h part (List.mem_cons_of_mem _ hmem)]
          exact (Path.bare_append_slash _ _).trans (congrArg (· ++ _) hpart)

/-- Below the root of the hierarchy an absolute path goes on relatively. -/
theorem dropWhile_absolute (h : ∀ part ∈ parts, Proper part) :
    (absolute parts).dropWhile (· = '/') = ['/'].intercalate parts := by
  rw [absolute, List.dropWhile_cons_of_pos (by decide)]
  cases parts with
  | nil => rfl
  | cons part rest =>
      have hpart := h part List.mem_cons_self
      obtain ⟨c, more, rfl⟩ := List.exists_cons_of_ne_nil hpart.ne_nil
      have hc : c ≠ '/' := fun heq => hpart.slash (heq ▸ List.mem_cons_self)
      cases rest <;> simp [hc, List.intercalate_cons_cons]

theorem head?_intercalate_ne_slash (h : ∀ part ∈ parts, Proper part) :
    (Utf8.encodeChars (['/'].intercalate parts)).head? ≠ some Path.slash := by
  cases parts with
  | nil => exact fun hnone => by cases hnone
  | cons part rest =>
      have hname := (h part List.mem_cons_self).descends
      have hfront : ∃ tail, ['/'].intercalate (part :: rest) = part ++ tail := by
        cases rest with
        | nil => exact ⟨[], by simp⟩
        | cons next rest => exact ⟨_, by rw [List.intercalate_cons_cons, List.append_assoc]⟩
      obtain ⟨tail, htail⟩ := hfront
      rw [htail, Utf8.encodeChars_append, List.head?_append_of_ne_nil _ hname.ne_nil]
      exact fun hhead => hname.slash (List.mem_of_head? hhead)

/-! ## Look-ups -/

/-- The place of a control-group path under the root of the hierarchy. -/
def place (cgroupRoot : Path) (path : List Char) : Path :=
  cgroupRoot.join (Utf8.encodeChars (path.dropWhile (· = '/')))

/-- The group is the inode number at one place. -/
theorem inode_eq (disk : Disk) (cgroupRoot : Path) (path : List Char) :
    inode disk cgroupRoot path =
      match disk.inodeOf (place cgroupRoot path) with
      | .ok inode => .ok (UInt64.ofNat inode)
      | .error code => .error (.system code) := rfl

theorem within_place (cgroupRoot : Path) (h : ∀ part ∈ parts, Proper part) :
    cgroupRoot.Within (place cgroupRoot (absolute parts)) := by
  have hbare := bare_intercalate h
  have hnames : ∀ name ∈ parts.map Utf8.encodeChars, FileName.Descends name := by
    intro name hname
    obtain ⟨part, hpart, rfl⟩ := List.mem_map.1 hname
    exact (h part hpart).descends
  refine ⟨parts.map Utf8.encodeChars, ?_, hnames⟩
  rw [place, dropWhile_absolute h, Path.parts_join _ (head?_intercalate_ne_slash h), hbare]
  rw [hbare]
  exact fun hdot => (hnames _ hdot).ne_dot rfl

/-- Whatever a process lists, its group is looked for inside the root. -/
theorem within_of_unifiedPath? {text path : List Char} (h : unifiedPath? text = some path)
    (cgroupRoot : Path) : cgroupRoot.Within (place cgroupRoot path) := by
  obtain ⟨parts, rfl, hparts, -⟩ := exists_parts_of_unifiedPath? h
  exact within_place cgroupRoot hparts

/-! ## What is looked up -/

section Agreement

variable {disk other : Disk} {procRoot cgroupRoot : Path}

theorem inode_congr {text path : List Char} (h : unifiedPath? text = some path)
    (hinside : disk.SameInside other cgroupRoot) :
    inode disk cgroupRoot path = inode other cgroupRoot path := by
  rw [inode_eq, inode_eq, hinside _ (within_of_unifiedPath? h cgroupRoot)]

theorem currentGroup_congr
    (htext : disk.readText (procRoot.child "self/cgroup") =
      other.readText (procRoot.child "self/cgroup"))
    (hinside : disk.SameInside other cgroupRoot) :
    currentGroup disk procRoot cgroupRoot = currentGroup other procRoot cgroupRoot := by
  simp only [currentGroup, htext]
  split
  · rfl
  next contents _ =>
    split
    · rfl
    next path hpath => exact inode_congr hpath hinside

end Agreement

end Cgroup

namespace Resolver

variable {disk other : Disk} {resolver : Resolver}

theorem podOfProcess?_congr {name : FileName}
    (htext : disk.readText ((resolver.procRoot.join name).child "cgroup") =
      other.readText ((resolver.procRoot.join name).child "cgroup"))
    (hinside : disk.SameInside other resolver.cgroupRoot) :
    resolver.podOfProcess? disk name = resolver.podOfProcess? other name := by
  simp only [podOfProcess?, htext]
  cases (other.readText ((resolver.procRoot.join name).child "cgroup")).toOption with
  | none => rfl
  | some contents =>
      cases hpath : Cgroup.unifiedPath? contents.toList with
      | none => simp [hpath]
      | some path => simp [hpath, Cgroup.inode_congr hpath hinside]

theorem refresh_congr (hlist : disk.list resolver.procRoot = other.list resolver.procRoot)
    (htexts : ∀ name, disk.readText ((resolver.procRoot.join name).child "cgroup") =
      other.readText ((resolver.procRoot.join name).child "cgroup"))
    (hinside : disk.SameInside other resolver.cgroupRoot) :
    resolver.refresh disk = resolver.refresh other := by
  have hpods : resolver.podOfProcess? disk = resolver.podOfProcess? other :=
    funext fun name => podOfProcess?_congr (htexts name) hinside
  simp only [refresh, hlist, hpods]

end Resolver

namespace Cgroup

/-! ## Listed paths -/

/-- What holds of a path that a process lists. -/
structure Normal (text path : List Char) : Prop where
  /-- The first line with the mark decides, by the components that are left of it. -/
  source : ∃ earlier raw later,
    Text.lines text = earlier ++ ("0::".toList ++ raw) :: later ∧
      (∀ line ∈ earlier, ¬ "0::".toList <+: line) ∧ Restores (cleanParts raw) path
  rooted : path.head? = some '/'
  components : path = ['/'] ∨ ∀ part ∈ (path.splitOn '/').tail, Proper part
  /-- Listed again it is the same. -/
  fixed : unifiedPath? ("0::".toList ++ path) = some path
  /-- Its group is the inode number of a place inside the root. -/
  inside : ∀ cgroupRoot, cgroupRoot.Within (place cgroupRoot path) ∧
    ∀ disk, inode disk cgroupRoot path =
      match disk.inodeOf (place cgroupRoot path) with
      | .ok inode => .ok (UInt64.ofNat inode)
      | .error code => .error (.system code)

theorem normal_of_unifiedPath? {text path : List Char} (h : unifiedPath? text = some path) :
    Normal text path := by
  obtain ⟨earlier, raw, later, hlines, hearlier, hraw⟩ := unifiedPath?_eq_some_iff.1 h
  obtain ⟨parts, hpath, hparts, -⟩ := exists_parts_of_unifiedPath? h
  have hrestores : Restores (cleanParts raw) path :=
    hraw ▸ restores fun part hmem => (mem_cleanParts hmem).1
  refine ⟨⟨earlier, raw, later, hlines, hearlier, hrestores⟩, ?_, ?_, unifiedPath?_fixed h,
    fun cgroupRoot => ⟨within_of_unifiedPath? h cgroupRoot, fun disk => inode_eq ..⟩⟩
  · rw [hpath]
    rfl
  · rw [hpath]
    by_cases hempty : parts = []
    · exact .inl (congrArg absolute hempty)
    · rw [splitOn_absolute hempty fun part hmem => (hparts part hmem).slash]
      exact .inr hparts

/--
Every listed path is normal, detours in front of an absolute one change nothing,
and what is found for the calling process, or for all of them, depends on the
listings and on what stands inside the root.
-/
theorem listed_paths_confined :
    (∀ text path, unifiedPath? text = some path → Normal text path) ∧
      (∀ (pieces : List (List Char)) (before after : List Char),
        (∀ piece ∈ pieces, piece ∈ detours) →
        (before = [] ∨ before.getLast? = some '\n') →
        unifiedPath? (before ++ ("0::".toList ++ (pieces.flatten ++ '/' :: after))) =
          unifiedPath? (before ++ ("0::".toList ++ '/' :: after))) ∧
      (∀ (disk other : Disk) (procRoot cgroupRoot : Path),
        disk.readText (procRoot.child "self/cgroup") =
          other.readText (procRoot.child "self/cgroup") →
        disk.SameInside other cgroupRoot →
        currentGroup disk procRoot cgroupRoot = currentGroup other procRoot cgroupRoot) ∧
      ∀ (disk other : Disk) (resolver : Resolver),
        disk.list resolver.procRoot = other.list resolver.procRoot →
        (∀ name, disk.readText ((resolver.procRoot.join name).child "cgroup") =
          other.readText ((resolver.procRoot.join name).child "cgroup")) →
        disk.SameInside other resolver.cgroupRoot →
        resolver.refresh disk = resolver.refresh other :=
  ⟨fun _ _ h => normal_of_unifiedPath? h,
    fun _ _ after hpieces hbefore => unifiedPath?_detours hpieces hbefore after,
    fun _ _ _ _ htext hinside => currentGroup_congr htext hinside,
    fun _ _ _ hlist htexts hinside => Resolver.refresh_congr hlist htexts hinside⟩

/-- A pod seen from inside a namespace, after a line of another hierarchy. -/
theorem listed_paths_confined_pod :
    unifiedPath? "4:cpu:/a\n0::/../../burstable/pod7/c\n0::/b\n".toList =
        some "/kubepods/burstable/pod7/c".toList ∧
      Normal "4:cpu:/a\n0::/../../burstable/pod7/c\n0::/b\n".toList
        "/kubepods/burstable/pod7/c".toList :=
  ⟨by decide +kernel, listed_paths_confined.1 _ _ (by decide +kernel)⟩

end Cgroup

end DentryWatch
