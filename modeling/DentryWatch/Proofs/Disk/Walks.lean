import DentryWatch.Disk.Files

/-!
# Walks to directories

A walk goes from directory to directory, through links on the way, and uses some
of the links it may follow. Following a path that leads to a directory is such a
walk, and so is the beginning of following any path to an entry below it. Only
directories and links matter for a walk.
-/

namespace DentryWatch.Disk

/-- Following the names from a directory leads to a directory, with so many links left. -/
inductive Walks (disk : Disk) :
    Nat → Location → List FileName → Nat → Location → Prop where
  | done (links : Nat) (here : Location) : Walks disk links here [] links here
  | idle {links left : Nat} {here top : Location} {name : FileName} {rest : List FileName}
      (hidle : Path.isIdle name = true) (hrest : Walks disk links here rest left top) :
      Walks disk links here (name :: rest) left top
  | up {links left : Nat} {here top : Location} {rest : List FileName}
      (hrest : Walks disk links here.dropLast rest left top) :
      Walks disk links here ([0x2E, 0x2E] :: rest) left top
  | down {links left inode : Nat} {here top : Location} {name : FileName} {rest : List FileName}
      (hidle : Path.isIdle name = false) (hup : name ≠ [0x2E, 0x2E])
      (hname : name.length ≤ maxFileName)
      (hfind : disk.find? (here ++ [name]) = some (.directory inode))
      (hrest : Walks disk links (here ++ [name]) rest left top) :
      Walks disk links here (name :: rest) left top
  | link {links left : Nat} {here top : Location} {name : FileName} {rest : List FileName}
      {target : Bytes} (hidle : Path.isIdle name = false) (hup : name ≠ [0x2E, 0x2E])
      (hname : name.length ≤ maxFileName)
      (hfind : disk.find? (here ++ [name]) = some (.link target)) (htarget : target ≠ [])
      (hrest : Walks disk links (if target.head? = some Path.slash then [] else here)
        (Path.names target ++ rest) left top) :
      Walks disk (links + 1) here (name :: rest) left top

variable {disk disk' : Disk} {links left : Nat} {here top : Location} {names : List FileName}

/-- What following one more name can do when all goes well. -/
inductive Follows (disk : Disk) (atEnd : PathEnd) (links : Nat) (here : Location)
    (name : FileName) (rest : List FileName) (location : Location) : Prop where
  | idle (hidle : Path.isIdle name = true)
      (hrest : disk.follow atEnd links here rest = .ok location)
  | up (hup : name = [0x2E, 0x2E])
      (hrest : disk.follow atEnd links here.dropLast rest = .ok location)
  | ends (hidle : Path.isIdle name = false) (hup : name ≠ [0x2E, 0x2E])
      (hname : name.length ≤ maxFileName) (hlast : rest = []) (hhere : location = here ++ [name])
      (hnot : ∀ inode, disk.find? (here ++ [name]) ≠ some (.directory inode))
  | down (hidle : Path.isIdle name = false) (hup : name ≠ [0x2E, 0x2E])
      (hname : name.length ≤ maxFileName) (inode : Nat)
      (hfind : disk.find? (here ++ [name]) = some (.directory inode))
      (hrest : disk.follow atEnd links (here ++ [name]) rest = .ok location)
  | link (hidle : Path.isIdle name = false) (hup : name ≠ [0x2E, 0x2E])
      (hname : name.length ≤ maxFileName) (target : Bytes) (left : Nat)
      (hfind : disk.find? (here ++ [name]) = some (.link target)) (htarget : target ≠ [])
      (hleft : links = left + 1)
      (hrest : disk.follow atEnd left (if target.head? = some Path.slash then [] else here)
        (Path.names target ++ rest) = .ok location)

theorem follows_of_follow {atEnd : PathEnd} {name : FileName} {rest : List FileName}
    {location : Location} (h : disk.follow atEnd links here (name :: rest) = .ok location) :
    disk.Follows atEnd links here name rest location := by
  rw [follow] at h
  by_cases hidle : Path.isIdle name = true
  · rw [if_pos hidle] at h
    exact .idle hidle h
  rw [if_neg hidle] at h
  by_cases hup : name = [0x2E, 0x2E]
  · rw [if_pos hup] at h
    exact .up hup h
  rw [if_neg hup] at h
  split at h
  · cases h
  by_cases hname : maxFileName < name.length
  · rw [if_pos hname] at h
    cases h
  rw [if_neg hname] at h
  have hidle' : Path.isIdle name = false := Bool.eq_false_iff.2 hidle
  have hname' : name.length ≤ maxFileName := Nat.le_of_not_lt hname
  -- a name that is the last one may lead to anything but a directory
  have hends : rest.isEmpty = true →
      (Except.ok (here ++ [name]) : Except SystemError Location) = .ok location →
      (∀ inode, disk.find? (here ++ [name]) ≠ some (.directory inode)) →
      disk.Follows atEnd links here name rest location := by
    intro hlast hhere hnot
    exact .ends hidle' hup hname' (List.isEmpty_iff.1 hlast) (Except.ok.inj hhere).symm hnot
  cases hfind : disk.find? (here ++ [name]) with
  | none =>
      simp only [hfind] at h
      split at h
      · next hlast => exact hends hlast h (by simp [hfind])
      · cases h
  | some node =>
      cases node with
      | directory inode =>
          simp only [hfind] at h
          exact .down hidle' hup hname' inode hfind h
      | file inode =>
          simp only [hfind] at h
          split at h
          · next hlast => exact hends hlast h (by simp [hfind])
          · cases h
      | full =>
          simp only [hfind] at h
          split at h
          · next hlast => exact hends hlast h (by simp [hfind])
          · cases h
      | link target =>
          simp only [hfind] at h
          split at h
          · next hlast =>
              rw [Bool.and_eq_true] at hlast
              exact hends hlast.1 h (by simp [hfind])
          cases links with
          | zero => cases h
          | succ left =>
              dsimp only at h
              split at h
              · cases h
              · next htarget =>
                  have htarget' : target ≠ [] := fun hnil => htarget (by simp [hnil])
                  exact .link hidle' hup hname' target left hfind htarget' rfl h

/-- A path that leads to a directory is walked. -/
theorem walks_of_follow {atEnd : PathEnd} {inode : Nat} (links : Nat) (here : Location)
    (names : List FileName) (hfollow : disk.follow atEnd links here names = .ok top)
    (htop : disk.find? top = some (.directory inode)) :
    ∃ left, disk.Walks links here names left top := by
  match names with
  | [] =>
      rw [follow, Except.ok.injEq] at hfollow
      exact ⟨links, hfollow ▸ .done links here⟩
  | name :: rest =>
      cases follows_of_follow hfollow with
      | idle hidle hrest =>
          obtain ⟨left, hrest⟩ := walks_of_follow links here rest hrest htop
          exact ⟨left, .idle hidle hrest⟩
      | up hup hrest =>
          obtain ⟨left, hrest⟩ := walks_of_follow links here.dropLast rest hrest htop
          exact ⟨left, hup ▸ .up hrest⟩
      | ends hidle hup hname hlast hhere hnot =>
          rw [hhere] at htop
          exact absurd htop (hnot inode)
      | down hidle hup hname inode hfind hrest =>
          obtain ⟨left, hrest⟩ := walks_of_follow links _ rest hrest htop
          exact ⟨left, .down hidle hup hname hfind hrest⟩
      | link hidle hup hname target fewer hfind htarget hleft hrest =>
          subst hleft
          obtain ⟨left, hrest⟩ := walks_of_follow fewer _ _ hrest htop
          exact ⟨left, .link hidle hup hname hfind htarget hrest⟩
termination_by (links, names.length)

/-! ## Following more names from the end of a walk -/

theorem append_ne_blank {more : List FileName} (hne : more ≠ []) (hblank : more ≠ [[]])
    (rest : List FileName) : rest ++ more ≠ [[]] := by
  cases rest with
  | nil => exact hblank
  | cons name rest =>
      intro h
      have htail : rest ++ more = [] := List.tail_eq_of_cons_eq h
      exact hne (List.append_eq_nil_iff.1 htail).2

theorem Walks.follow_append (h : disk.Walks links here names left top) (atEnd : PathEnd)
    {more : List FileName} (hne : more ≠ []) (hblank : more ≠ [[]]) :
    disk.follow atEnd links here (names ++ more) = disk.follow atEnd left top more := by
  induction h with
  | done links here => rfl
  | idle hidle hrest ih => rw [List.cons_append, follow, if_pos hidle, ih]
  | up hrest ih => rw [List.cons_append, follow, if_neg (by decide), if_pos rfl, ih]
  | @down links left inode here top name rest hidle hup hname hfind hrest ih =>
      have hmore : ¬ (atEnd.forFile && rest ++ more = [[]]) = true := by
        simp [append_ne_blank hne hblank]
      rw [List.cons_append, follow, if_neg (by simp [hidle]), if_neg hup, if_neg hmore,
        if_neg (Nat.not_lt.2 hname)]
      simp only [hfind]
      exact ih
  | @link links left here top name rest target hidle hup hname hfind htarget hrest ih =>
      have hmore : ¬ (atEnd.forFile && rest ++ more = [[]]) = true := by
        simp [append_ne_blank hne hblank]
      have hsome : (rest ++ more).isEmpty = false := by simp [hne]
      rw [List.cons_append, follow, if_neg (by simp [hidle]), if_neg hup, if_neg hmore,
        if_neg (Nat.not_lt.2 hname)]
      simp only [hfind, hsome, Bool.false_and, Bool.false_eq_true, if_false]
      rw [if_neg (by simpa using htarget), ← List.append_assoc]
      exact ih

theorem Walks.append {middle : Location} {between : Nat} {more : List FileName}
    (h : disk.Walks links here names between middle)
    (hmore : disk.Walks between middle more left top) :
    disk.Walks links here (names ++ more) left top := by
  induction h with
  | done links here => exact hmore
  | idle hidle hrest ih => exact .idle hidle (ih hmore)
  | up hrest ih => exact .up (ih hmore)
  | down hidle hup hname hfind hrest ih => exact .down hidle hup hname hfind (ih hmore)
  | link hidle hup hname hfind htarget hrest ih =>
      have hall := ih hmore
      rw [List.append_assoc] at hall
      exact .link hidle hup hname hfind htarget hall

/-- The names of a walk lead to its end. -/
theorem Walks.follow_eq (h : disk.Walks links here names left top) :
    disk.follow .followed links here names = .ok top := by
  induction h with
  | done links here => rw [follow]
  | idle hidle hrest ih => rw [follow, if_pos hidle, ih]
  | up hrest ih => rw [follow, if_neg (by decide), if_pos rfl, ih]
  | down hidle hup hname hfind hrest ih =>
      rw [follow, if_neg (by simp [hidle]), if_neg hup, if_neg (by simp [PathEnd.followed]),
        if_neg (Nat.not_lt.2 hname)]
      simp only [hfind]
      exact ih
  | link hidle hup hname hfind htarget hrest ih =>
      rw [follow, if_neg (by simp [hidle]), if_neg hup, if_neg (by simp [PathEnd.followed]),
        if_neg (Nat.not_lt.2 hname)]
      simp only [hfind, PathEnd.followed, Bool.not_true, Bool.and_false, Bool.false_eq_true,
        if_false]
      rw [if_neg (by simpa using htarget)]
      exact ih

/-- Whatever happens at the last name of a walk, something stands where it leads. -/
theorem Walks.exists_find? (h : disk.Walks links here names left top) {inode : Nat}
    (htop : disk.find? top = some (.directory inode)) {atEnd : PathEnd} {location : Location}
    (hfollow : disk.follow atEnd links here names = .ok location) :
    ∃ node, disk.find? location = some node := by
  induction h with
  | done links here =>
      rw [follow, Except.ok.injEq] at hfollow
      exact ⟨_, hfollow ▸ htop⟩
  | idle hidle hrest ih =>
      rw [follow, if_pos hidle] at hfollow
      exact ih htop hfollow
  | up hrest ih =>
      rw [follow, if_neg (by decide), if_pos rfl] at hfollow
      exact ih htop hfollow
  | down hidle hup hname hfind hrest ih =>
      rw [follow, if_neg (by simp [hidle]), if_neg hup] at hfollow
      split at hfollow
      · cases hfollow
      · rw [if_neg (Nat.not_lt.2 hname)] at hfollow
        simp only [hfind] at hfollow
        exact ih htop hfollow
  | link hidle hup hname hfind htarget hrest ih =>
      rw [follow, if_neg (by simp [hidle]), if_neg hup] at hfollow
      split at hfollow
      · cases hfollow
      · rw [if_neg (Nat.not_lt.2 hname)] at hfollow
        simp only [hfind] at hfollow
        split at hfollow
        · rw [Except.ok.injEq] at hfollow
          exact ⟨_, hfollow ▸ hfind⟩
        · rw [if_neg (by simpa using htarget)] at hfollow
          exact ih htop hfollow

/-- A slash at the end makes no difference for a walk. -/
theorem Walks.of_concat_nil (h : disk.Walks links here (names ++ [[]]) left top) :
    disk.Walks links here names left top := by
  generalize hnames : names ++ [[]] = full at h
  induction h generalizing names with
  | done links here => simp at hnames
  | @idle links left here top name rest hidle hrest ih =>
      cases names with
      | nil =>
          obtain ⟨-, rfl⟩ := List.cons_eq_cons.1 hnames
          cases hrest
          exact .done _ _
      | cons first names =>
          obtain ⟨rfl, htail⟩ := List.cons_eq_cons.1 hnames
          exact .idle hidle (ih htail)
  | up hrest ih =>
      cases names with
      | nil => simp at hnames
      | cons first names =>
          obtain ⟨rfl, htail⟩ := List.cons_eq_cons.1 hnames
          exact .up (ih htail)
  | down hidle hup hname hfind hrest ih =>
      cases names with
      | nil =>
          obtain ⟨rfl, -⟩ := List.cons_eq_cons.1 hnames
          cases hidle
      | cons first names =>
          obtain ⟨rfl, htail⟩ := List.cons_eq_cons.1 hnames
          exact .down hidle hup hname hfind (ih htail)
  | link hidle hup hname hfind htarget hrest ih =>
      cases names with
      | nil =>
          obtain ⟨rfl, -⟩ := List.cons_eq_cons.1 hnames
          cases hidle
      | cons first names =>
          obtain ⟨rfl, rfl⟩ := List.cons_eq_cons.1 hnames
          exact .link hidle hup hname hfind htarget (ih (List.append_assoc _ _ _))

/-! ## Disks with the same directories and links -/

/-- Whether a walk can go through a node. -/
def leadsOn : Node → Bool
  | .directory _ | .link _ => true
  | .file _ | .full => false

/-- The other disk has the directories and links of this one. -/
def Includes (disk' disk : Disk) : Prop :=
  ∀ location node, disk.find? location = some node → leadsOn node = true →
    disk'.find? location = some node

theorem Walks.mono (h : disk.Walks links here names left top) (hsame : disk'.Includes disk) :
    disk'.Walks links here names left top := by
  induction h with
  | done links here => exact .done links here
  | idle hidle hrest ih => exact .idle hidle ih
  | up hrest ih => exact .up ih
  | down hidle hup hname hfind hrest ih =>
      exact .down hidle hup hname (hsame _ _ hfind rfl) ih
  | link hidle hup hname hfind htarget hrest ih =>
      exact .link hidle hup hname (hsame _ _ hfind rfl) htarget ih

end DentryWatch.Disk
