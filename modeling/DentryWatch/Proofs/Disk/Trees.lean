import DentryWatch.Disk.Files
import DentryWatch.Proofs.Disk.Walks
import DentryWatch.Proofs.Text.Splitting
import Mathlib.Data.List.Basic

/-!
# Disks that are trees

Every node stands in a directory, the inode numbers of files were handed out, and
no bytes are kept under a number that was not. Moving a file then changes two
locations and nothing else.
-/

namespace DentryWatch.Disk

/-- What every file system keeps. -/
structure Sound (disk : Disk) : Prop where
  root : ∃ inode, disk.find? [] = some (.directory inode)
  parents : ∀ location name node, disk.find? (location ++ [name]) = some node →
    ∃ inode, disk.find? location = some (.directory inode)
  numbered : ∀ location inode, disk.find? location = some (.file inode) → inode < disk.nextInode
  unused : ∀ inode, disk.nextInode ≤ inode → disk.content inode = []

theorem find?_empty {location : Location} (h : location ≠ []) :
    ({} : Disk).find? location = none := by
  rw [find?, List.lookup_cons, beq_false_of_ne h]
  rfl

/-- A disk with nothing but its root is a tree. -/
theorem sound_empty : ({} : Disk).Sound := by
  refine ⟨⟨2, rfl⟩, ?_, ?_, fun _ _ => rfl⟩
  · intro location name node hfind
    rw [find?_empty (by simp)] at hfind
    cases hfind
  · intro location inode hfind
    by_cases hroot : location = []
    · rw [hroot] at hfind
      cases hfind
    · rw [find?_empty hroot] at hfind
      cases hfind

variable {disk middle next : Disk} {location origin goal : Location} {node : Node}

/-- Nothing stands below what is no directory. -/
theorem Sound.find?_below (h : disk.Sound) {tail : Location} (htail : tail ≠ [])
    (hnot : ∀ inode, disk.find? location ≠ some (.directory inode)) :
    disk.find? (location ++ tail) = none := by
  induction tail generalizing location with
  | nil => exact absurd rfl htail
  | cons name rest ih =>
      have hnone : disk.find? (location ++ [name]) = none := by
        cases hfind : disk.find? (location ++ [name]) with
        | none => rfl
        | some node =>
            obtain ⟨inode, hdir⟩ := h.parents _ _ _ hfind
            exact absurd hdir (hnot inode)
      by_cases hrest : rest = []
      · rw [hrest]
        exact hnone
      · have happ : location ++ name :: rest = location ++ [name] ++ rest := by simp
        rw [happ]
        refine ih hrest fun inode hdir => ?_
        rw [hnone] at hdir
        cases hdir

/-! ## What stays -/

/-- What stood on the disk still stands there, with the same bytes. -/
structure Keeps (disk next : Disk) : Prop where
  find? : ∀ location node, disk.find? location = some node → next.find? location = some node
  content : ∀ inode, next.content inode = disk.content inode

theorem Keeps.refl (disk : Disk) : disk.Keeps disk := ⟨fun _ _ => id, fun _ => rfl⟩

theorem Keeps.trans (h : disk.Keeps middle) (hmore : middle.Keeps next) : disk.Keeps next :=
  ⟨fun location node hfind => hmore.find? location node (h.find? location node hfind),
    fun inode => (hmore.content inode).trans (h.content inode)⟩

theorem Keeps.includes (h : disk.Keeps next) : next.Includes disk :=
  fun location node hfind _ => h.find? location node hfind

theorem Keeps.none_of_none (h : disk.Keeps next) (hnone : next.find? location = none) :
    disk.find? location = none := by
  cases hfind : disk.find? location with
  | none => rfl
  | some node => simp [h.find? location node hfind] at hnone

theorem keeps_put (hnone : disk.find? location = none) (node : Node) :
    disk.Keeps (disk.put location node) := by
  refine ⟨fun other kept hfind => ?_, fun _ => rfl⟩
  have hne : other ≠ location := by
    rintro rfl
    simp [hnone] at hfind
  rw [find?_put, if_neg hne, hfind]

theorem keeps_create (hnone : disk.find? location = none) (made : Nat → Node) :
    disk.Keeps (disk.create location made).2 := by
  have hput := keeps_put hnone (made disk.nextInode)
  exact ⟨hput.find?, hput.content⟩

theorem Sound.put (h : disk.Sound) (hnone : disk.find? location = none)
    (hparent : ∃ parent name inode, location = parent ++ [name] ∧
      disk.find? parent = some (.directory inode))
    (hnode : ∀ inode, node = .file inode → inode < disk.nextInode) :
    (disk.put location node).Sound := by
  have hkeeps := keeps_put hnone node
  refine ⟨?_, ?_, ?_, fun inode hle => h.unused inode hle⟩
  · obtain ⟨inode, hroot⟩ := h.root
    exact ⟨inode, hkeeps.find? _ _ hroot⟩
  · intro above name kept hfind
    rw [find?_put] at hfind
    split at hfind
    · next heq =>
        obtain ⟨parent, last, inode, hlocation, hdir⟩ := hparent
        rw [hlocation] at heq
        obtain rfl := List.append_inj_left' heq rfl
        exact ⟨inode, hkeeps.find? _ _ hdir⟩
    · obtain ⟨inode, hdir⟩ := h.parents above name kept hfind
      exact ⟨inode, hkeeps.find? _ _ hdir⟩
  · intro other inode hfind
    rw [find?_put] at hfind
    split at hfind
    · exact hnode inode (Option.some.inj hfind)
    · exact h.numbered other inode hfind

/-- A disk on which the same nodes stand is a tree, too. -/
theorem Sound.of_find? (h : disk.Sound) (hfind : ∀ location, next.find? location = disk.find? location)
    (hcontent : ∀ inode, next.content inode = disk.content inode)
    (hle : disk.nextInode ≤ next.nextInode) : next.Sound where
  root := by simpa [hfind] using h.root
  parents location name node hnode := by
    simpa [hfind] using h.parents location name node (hfind _ ▸ hnode)
  numbered location inode hfile :=
    Nat.lt_of_lt_of_le (h.numbered location inode (hfind _ ▸ hfile)) hle
  unused inode hunused := (hcontent inode).trans (h.unused inode (Nat.le_trans hle hunused))

/-! ## Moving a file -/

/-- Looking up in a list of nodes of which those below one location moved below another. -/
theorem lookup_relocated (nodes : List (Location × Node))
    (hgoal : ∀ entry ∈ nodes, ¬ goal <+: entry.1) (other : Location) :
    (nodes.map fun entry =>
      match origin.isPrefixOf? entry.1 with
      | some tail => (goal ++ tail, entry.2)
      | none => entry).lookup other =
      match goal.isPrefixOf? other with
      | some tail => nodes.lookup (origin ++ tail)
      | none => if origin <+: other then none else nodes.lookup other := by
  induction nodes with
  | nil => cases goal.isPrefixOf? other <;> simp
  | cons entry rest ih =>
      obtain ⟨key, node⟩ := entry
      have hkey : ¬ goal <+: key := hgoal _ List.mem_cons_self
      have hrest := ih fun entry hmem => hgoal entry (List.mem_cons_of_mem _ hmem)
      cases hmove : origin.isPrefixOf? key with
      | some tail =>
          obtain rfl := List.isPrefixOf?_eq_some_iff_append_eq.1 hmove
          by_cases hother : other = goal ++ tail
          · subst hother
            have hsome : goal.isPrefixOf? (goal ++ tail) = some tail :=
              List.isPrefixOf?_eq_some_iff_append_eq.2 rfl
            simp [hmove, hsome]
          · have hhead : (other == goal ++ tail) = false := beq_false_of_ne hother
            simp only [List.map_cons, hmove, List.lookup_cons, hhead, hrest]
            cases hsome : goal.isPrefixOf? other with
            | some other' =>
                obtain rfl := List.isPrefixOf?_eq_some_iff_append_eq.1 hsome
                have hne : (origin ++ other' == origin ++ tail) = false :=
                  beq_false_of_ne fun heq => hother (by rw [List.append_cancel_left heq])
                simp only [hne]
            | none =>
                by_cases hunder : origin <+: other
                · simp only [if_pos hunder]
                · have hne : (other == origin ++ tail) = false :=
                    beq_false_of_ne fun heq => hunder ⟨tail, heq.symm⟩
                  simp only [if_neg hunder, hne]
      | none =>
          have hstay : ¬ origin <+: key := (isPrefixOf?_eq_none_iff _ _).1 hmove
          by_cases hother : other = key
          · subst hother
            have hnone := (isPrefixOf?_eq_none_iff goal other).2 hkey
            simp [hmove, hnone, hstay]
          · have hhead : (other == key) = false := beq_false_of_ne hother
            simp only [List.map_cons, hmove, List.lookup_cons, hhead, hrest]
            cases hsome : goal.isPrefixOf? other with
            | some tail =>
                have hne : (origin ++ tail == key) = false :=
                  beq_false_of_ne fun heq => hstay ⟨tail, heq⟩
                simp only [hne]
            | none => rfl

/-- Moving a file changes what stands where it was and where it goes. -/
theorem Sound.find?_relocate (h : disk.Sound) {inode : Nat}
    (horigin : disk.find? origin = some (.file inode))
    (hgoal : ∀ inode, disk.find? goal ≠ some (.directory inode)) (hne : origin ≠ goal)
    (other : Location) :
    (disk.relocate origin goal).find? other =
      if other = goal then some (.file inode)
      else if other = origin then none else disk.find? other := by
  have hfile : ∀ inode', disk.find? origin ≠ some (.directory inode') := by
    intro inode' hdir
    rw [horigin] at hdir
    cases hdir
  have hbelow : ∀ tail : Location, tail ≠ [] → disk.find? (goal ++ tail) = none :=
    fun tail htail => h.find?_below htail hgoal
  have habove : ¬ goal <+: origin := by
    rintro ⟨tail, rfl⟩
    by_cases htail : tail = []
    · rw [htail, List.append_nil] at hne
      exact hne rfl
    · rw [hbelow tail htail] at horigin
      cases horigin
  have hkeys : ∀ entry ∈ (disk.prune goal).nodes, ¬ goal <+: entry.1 := by
    intro entry hmem hunder
    have hkept : (!goal.isPrefixOf entry.1) = true := (List.mem_filter.1 hmem).2
    rw [List.isPrefixOf_iff_prefix.2 hunder] at hkept
    cases hkept
  refine (lookup_relocated _ hkeys other).trans ?_
  cases hsome : goal.isPrefixOf? other with
  | some tail =>
      obtain rfl := List.isPrefixOf?_eq_some_iff_append_eq.1 hsome
      show (disk.prune goal).find? (origin ++ tail) = _
      rw [find?_prune]
      by_cases htail : tail = []
      · subst htail
        rw [List.append_nil, List.append_nil, if_neg (by rwa [List.isPrefixOf_iff_prefix]),
          if_pos rfl, horigin]
      · have hgone : disk.find? (origin ++ tail) = none := h.find?_below htail hfile
        rw [hgone, ite_self, if_neg (by simpa using htail), hbelow tail htail, ite_self]
  | none =>
      have hnot := (isPrefixOf?_eq_none_iff _ _).1 hsome
      have hne' : other ≠ goal := fun heq => hnot (heq ▸ List.prefix_refl _)
      rw [if_neg hne']
      by_cases hunder : origin <+: other
      · rw [if_pos hunder]
        obtain ⟨tail, rfl⟩ := hunder
        by_cases htail : tail = []
        · rw [htail, List.append_nil, if_pos rfl]
        · rw [h.find?_below htail hfile, ite_self]
      · have hother : other ≠ origin := fun heq => hunder (heq ▸ List.prefix_refl _)
        rw [if_neg hunder, if_neg hother]
        show (disk.prune goal).find? other = _
        rw [find?_prune, if_neg (by rwa [List.isPrefixOf_iff_prefix])]

end DentryWatch.Disk
