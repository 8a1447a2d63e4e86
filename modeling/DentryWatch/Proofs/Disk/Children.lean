import DentryWatch.Proofs.Disk.Walks
import Mathlib.Data.List.Basic

/-!
# Entries of a directory by their paths

When a path leads to a directory, the path of an entry leads right below it,
whatever slashes stand between. Making a directory that stands changes nothing.
-/

namespace DentryWatch

namespace Path

/-- The names of a path without the empty ones. -/
def bare (path : Path) : List FileName := (path.splitOn slash).filter fun part => !part.isEmpty

theorem names_eq (path : Path) :
    path.names = path.bare ∨ path.names = path.bare ++ [[]] := by
  rw [names]
  split
  · exact .inr rfl
  · exact .inl (List.append_nil _)

theorem bare_append_slash (path tail : Path) :
    bare (path ++ slash :: tail) = path.bare ++ tail.bare := by
  rw [bare, List.splitOn_append_cons_self, List.filter_append]
  rfl

theorem bare_of_slashes {path : Path} (h : ∀ byte ∈ path, byte = slash) : path.bare = [] := by
  induction path with
  | nil => rfl
  | cons byte rest ih =>
      obtain rfl := h byte List.mem_cons_self
      have hrest := ih fun byte hmem => h byte (List.mem_cons_of_mem _ hmem)
      exact (bare_append_slash [] rest).trans (by rw [hrest]; rfl)

theorem bare_of_slash_not_mem {path : Path} (hne : path ≠ []) (h : slash ∉ path) :
    path.bare = [path] := by
  rw [bare, List.splitOn_eq_singleton h, List.filter_cons_of_pos]
  · rfl
  · simp [hne]

theorem bare_trimmed (path : Path) : path.trimmed.bare = path.bare := by
  have hsplit : path = (path.reverse.dropWhile (· == slash)).reverse ++
      (path.reverse.takeWhile (· == slash)).reverse := by
    rw [← List.reverse_append, List.takeWhile_append_dropWhile, List.reverse_reverse]
  have hslashes : ∀ byte ∈ (path.reverse.takeWhile (· == slash)).reverse, byte = slash := by
    intro byte hmem
    have hall := List.all_takeWhile (l := path.reverse) (p := (· == slash))
    exact eq_of_beq (List.all_eq_true.1 hall byte (List.mem_reverse.1 hmem))
  rw [trimmed]
  split
  · rfl
  · generalize (path.reverse.dropWhile (· == slash)).reverse = rest at hsplit
    generalize (path.reverse.takeWhile (· == slash)).reverse = slashes at hsplit hslashes
    subst hsplit
    cases slashes with
    | nil => rw [List.append_nil]
    | cons byte slashes =>
        obtain rfl := hslashes byte List.mem_cons_self
        rw [bare_append_slash,
          bare_of_slashes fun byte hmem => hslashes byte (List.mem_cons_of_mem _ hmem),
          List.append_nil]

end Path

/-- A name an entry of a directory can have. -/
structure FileName.Proper (name : FileName) : Prop where
  ne_nil : name ≠ []
  ne_dot : name ≠ [0x2E]
  ne_dots : name ≠ [0x2E, 0x2E]
  slash : Path.slash ∉ name
  length_le : name.length ≤ Disk.maxFileName

namespace Path

theorem bare_of_proper {name : FileName} (h : name.Proper) : bare name = [name] :=
  bare_of_slash_not_mem h.ne_nil h.slash

theorem head?_ne_slash {name : FileName} (h : name.Proper) : name.head? ≠ some slash :=
  fun hhead => h.slash (List.mem_of_head? hhead)

/-- The path of an entry begins with that of its directory. -/
theorem child_eq_append (path : Path) {name : String} (h : FileName.Proper (ofText name)) :
    ∃ tail, path.child name = path ++ tail := by
  rw [child, join, if_neg (head?_ne_slash h)]
  split
  · exact ⟨_, rfl⟩
  · exact ⟨_, rfl⟩

/-- A directory can be looked up when one of its entries can. -/
theorem check_of_child {path : Path} {name : String} (h : FileName.Proper (ofText name))
    (hcheck : (path.child name).check = .ok ()) (hne : path ≠ []) : path.check = .ok () := by
  obtain ⟨tail, htail⟩ := child_eq_append path h
  rw [htail, check] at hcheck
  split at hcheck
  · cases hcheck
  next hnul =>
    split at hcheck
    · cases hcheck
    split at hcheck
    · cases hcheck
    next hlength =>
      have hnul' : ¬ path.contains 0 = true := by
        intro hmem
        refine hnul (List.contains_iff_mem.2 ?_)
        exact List.mem_append_left _ (List.contains_iff_mem.1 hmem)
      rw [List.length_append] at hlength
      rw [check, if_neg hnul', if_neg (by simp [hne]), if_neg (by omega)]

/-- The path of an entry has one name more. -/
theorem names_child (path : Path) {name : String} (h : FileName.Proper (ofText name)) :
    (path.child name).names = path.bare ++ [ofText name] := by
  have hlast : ∀ before : Path, names (before ++ slash :: ofText name) =
      before.bare ++ [ofText name] := by
    intro before
    rw [← bare_of_proper h, ← bare_append_slash, names]
    rw [if_neg, List.append_nil]
    · rfl
    · rw [List.splitOn_append_cons_self, List.splitOn_eq_singleton h.slash, List.getLast?_append]
      simp [h.ne_nil]
  rw [child, join, if_neg (head?_ne_slash h)]
  by_cases hempty : path = []
  · subst hempty
    simp only [List.isEmpty_nil, Bool.true_or, if_true, List.nil_append]
    rw [names, List.splitOn_eq_singleton h.slash, if_neg]
    · simp [h.ne_nil, bare]
    · simp [h.ne_nil]
  · by_cases hslash : path.getLast? = some slash
    · obtain ⟨before, rfl⟩ := List.getLast?_eq_some_iff.1 hslash
      rw [if_pos (by simp), List.append_assoc]
      refine (hlast before).trans ?_
      rw [bare_append_slash]
      exact congrArg (· ++ _) (List.append_nil _).symm
    · rw [if_neg (by simp [hempty, hslash])]
      exact hlast path

/-- Joining adds the names of a relative path. -/
theorem bare_join (path : Path) {tail : Path} (h : tail.head? ≠ some slash) :
    (path.join tail).bare = path.bare ++ tail.bare := by
  rw [join, if_neg h]
  split
  · next hend =>
      rcases Bool.or_eq_true_iff.1 hend with hempty | hslash
      · rw [List.isEmpty_iff.1 hempty]
        rfl
      · obtain ⟨before, rfl⟩ := List.getLast?_eq_some_iff.1 (of_decide_eq_true hslash)
        rw [List.append_assoc, List.singleton_append, bare_append_slash, bare_append_slash]
        exact congrArg (· ++ _) (List.append_nil _).symm
  · exact bare_append_slash path tail

theorem bare_child (path : Path) {name : String} (h : FileName.Proper (ofText name)) :
    (path.child name).bare = path.bare ++ [ofText name] := by
  rw [child, bare_join path (head?_ne_slash h), bare_of_proper h]

/-- The path of an entry ends with its name. -/
theorem child_eq_append_name (path : Path) {name : String}
    (h : FileName.Proper (ofText name)) : ∃ front, path.child name = front ++ ofText name := by
  rw [child, join, if_neg (head?_ne_slash h)]
  split
  · exact ⟨_, rfl⟩
  · exact ⟨path ++ [slash], by simp⟩

theorem child_ne_nil (path : Path) {name : String} (h : FileName.Proper (ofText name)) :
    path.child name ≠ [] := by
  obtain ⟨front, hend⟩ := child_eq_append_name path h
  simp [hend, h.ne_nil]

/-- No slash stands at the end of the path of an entry. -/
theorem trimmed_child (path : Path) {name : String} (h : FileName.Proper (ofText name)) :
    (path.child name).trimmed = path.child name := by
  obtain ⟨front, hend⟩ := child_eq_append_name path h
  obtain ⟨start, last, hname⟩ := (List.eq_nil_or_concat' (ofText name)).resolve_left h.ne_nil
  have hlast : last ≠ slash := by
    rintro rfl
    exact h.slash (by simp [hname])
  rw [hend, hname, trimmed]
  simp [hlast]

end Path

namespace Disk

/-- A path leads to the directory at a location. -/
structure Leads (disk : Disk) (path : Path) (top : Location) : Prop where
  follow_eq : disk.follow .followed maxLinks [] path.names = .ok top
  stands : ∃ inode, disk.find? top = some (.directory inode)

variable {disk disk' : Disk} {path : Path} {top here : Location}

theorem ok_bind {α β : Type} (a : α) (next : α → Except SystemError β) :
    (Except.ok a >>= next) = next a := rfl

/-- A path without names leads to the root. -/
theorem leads_root (hnames : path.names = [[]])
    (hroot : ∃ inode, disk.find? [] = some (.directory inode)) : disk.Leads path [] := by
  refine ⟨?_, hroot⟩
  rw [hnames, follow, if_pos (by rfl), follow]

theorem follow_of_locate {atEnd : PathEnd} {location : Location}
    (h : disk.locate path atEnd = .ok location) :
    disk.follow atEnd maxLinks [] path.names = .ok location := by
  rw [locate] at h
  cases hcheck : path.check with
  | error cause =>
      rw [hcheck] at h
      cases h
  | ok done =>
      rw [hcheck] at h
      exact h

theorem check_of_locate {atEnd : PathEnd} {location : Location}
    (h : disk.locate path atEnd = .ok location) : path.check = .ok () := by
  rw [locate] at h
  cases hcheck : path.check with
  | ok done => rfl
  | error cause =>
      rw [hcheck] at h
      cases h

theorem Walks.bare {left : Nat} (h : disk.Walks maxLinks [] path.names left top) :
    disk.Walks maxLinks [] path.bare left top := by
  rcases path.names_eq with hnames | hnames
  · exact hnames ▸ h
  · rw [hnames] at h
    exact h.of_concat_nil

theorem Leads.walks (h : disk.Leads path top) :
    ∃ left, disk.Walks maxLinks [] path.bare left top := by
  obtain ⟨inode, hfind⟩ := h.stands
  obtain ⟨left, hwalk⟩ := walks_of_follow _ _ _ h.follow_eq hfind
  exact ⟨left, hwalk.bare⟩

/-- All paths with the same names but empty ones lead to the same directory. -/
theorem Walks.names {left : Nat} (h : disk.Walks maxLinks [] path.bare left top)
    {other : Path} (hsame : other.bare = path.bare) :
    disk.Walks maxLinks [] other.names left top := by
  rcases other.names_eq with hnames | hnames
  · rw [hnames, hsame]
    exact h
  · rw [hnames, hsame]
    exact h.append (.idle rfl (.done _ _))

theorem Leads.mono (h : disk.Leads path top) (hsame : disk'.Includes disk) :
    disk'.Leads path top := by
  obtain ⟨left, hwalk⟩ := h.walks
  obtain ⟨inode, hfind⟩ := h.stands
  exact ⟨((hwalk.mono hsame).names rfl).follow_eq, inode, hsame _ _ hfind rfl⟩

/-- The path of an entry leads right below the directory. -/
theorem Leads.locate_child (h : disk.Leads path top) {name : String}
    (hname : FileName.Proper (Path.ofText name)) (hcheck : (path.child name).check = .ok ())
    (atEnd : PathEnd)
    (hlink : atEnd.follows = false ∨
      ∀ target, disk.find? (top ++ [Path.ofText name]) ≠ some (.link target)) :
    disk.locate (path.child name) atEnd = .ok (top ++ [Path.ofText name]) := by
  obtain ⟨left, hwalk⟩ := h.walks
  rw [locate, hcheck, Path.names_child path hname]
  refine (hwalk.follow_append atEnd (by simp) (by simp [hname.ne_nil])).trans ?_
  have hidle : ¬ Path.isIdle (Path.ofText name) = true := by
    simp [Path.isIdle, hname.ne_nil, hname.ne_dot]
  rw [follow, if_neg hidle, if_neg hname.ne_dots, if_neg (by simp),
    if_neg (Nat.not_lt.2 hname.length_le)]
  cases hfind : disk.find? (top ++ [Path.ofText name]) with
  | none => simp only [hfind, List.isEmpty_nil, if_true]
  | some node =>
      cases node with
      | directory inode => simp only [hfind, follow]
      | file inode => simp only [hfind, List.isEmpty_nil, if_true]
      | full => simp only [hfind, List.isEmpty_nil, if_true]
      | link target =>
          have hstays : atEnd.follows = false := by
            rcases hlink with hstays | hnever
            · exact hstays
            · exact absurd hfind (hnever target)
          simp only [hfind, hstays, List.isEmpty_nil, Bool.not_false, Bool.and_self, if_true]

theorem Leads.unique (h : disk.Leads path top) (hother : disk.Leads path here) : top = here :=
  Except.ok.inj (h.follow_eq.symm.trans hother.follow_eq)

/-- The path of an entry leads to the directory that stands there. -/
theorem Leads.child (h : disk.Leads path top) {name : String}
    (hname : FileName.Proper (Path.ofText name)) {inode : Nat}
    (hfind : disk.find? (top ++ [Path.ofText name]) = some (.directory inode)) :
    disk.Leads (path.child name) (top ++ [Path.ofText name]) := by
  obtain ⟨left, hwalk⟩ := h.walks
  have hidle : Path.isIdle (Path.ofText name) = false := by
    simp [Path.isIdle, hname.ne_nil, hname.ne_dot]
  have hstep := hwalk.append (.down hidle hname.ne_dots hname.length_le hfind (.done _ _))
  rw [← Path.bare_child path hname] at hstep
  exact ⟨(hstep.names rfl).follow_eq, inode, hfind⟩

/-- Something stands where a directory is entered. -/
theorem Leads.find?_ne_none (h : disk.Leads path top) {name : String}
    (hname : FileName.Proper (Path.ofText name)) (hcheck : (path.child name).check = .ok ())
    (hchild : disk.Leads (path.child name) here) :
    disk.find? (top ++ [Path.ofText name]) ≠ none := by
  intro hnone
  have hlocate := h.locate_child hname hcheck .followed (.inr (by simp [hnone]))
  have hhere := Except.ok.inj (hchild.follow_eq.symm.trans (follow_of_locate hlocate))
  obtain ⟨inode, hfind⟩ := hchild.stands
  simp [hhere, hnone] at hfind

theorem Leads.isDirectory (h : disk.Leads path top) (hcheck : path.check = .ok ()) :
    disk.isDirectory path = true := by
  obtain ⟨inode, hfind⟩ := h.stands
  have hstat : disk.stat path = .ok (top, .directory inode) := by
    rw [stat, locate, hcheck, ok_bind, h.follow_eq, ok_bind, hfind]
  rw [Disk.isDirectory, hstat]
  rfl

/-- Making a directory that stands changes nothing. -/
theorem Leads.makeDirectories (h : disk.Leads path top)
    (hcheck : path ≠ [] → path.check = .ok ()) :
    disk.makeDirectories path = (.ok (), disk) := by
  by_cases hempty : path = []
  · rw [Disk.makeDirectories, if_pos (by simp [hempty])]
  · have hmake : ∃ cause, disk.makeDirectory path = .error cause := by
      rw [makeDirectory, hcheck hempty, ok_bind]
      cases hlocate : disk.locate path.trimmed .kept with
      | error cause => exact ⟨cause, rfl⟩
      | ok location =>
          obtain ⟨left, hwalk⟩ := h.walks
          obtain ⟨inode, hfind⟩ := h.stands
          obtain ⟨node, hnode⟩ :=
            (hwalk.names path.bare_trimmed).exists_find? hfind (follow_of_locate hlocate)
          exact ⟨.occupied, by rw [ok_bind, hnode]⟩
    obtain ⟨cause, hmake⟩ := hmake
    rw [Disk.makeDirectories, if_neg (by simp [hempty]), makeDirectoriesWithin, ensureDirectory,
      hmake]
    simp only [h.isDirectory (hcheck hempty), if_true]

end Disk

end DentryWatch
