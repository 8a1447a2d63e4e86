import DentryWatch.Proofs.TraceLog.Files

/-!
# Rotations that may stop anywhere

Whichever of its moves fail, a rotation takes files of the log from one number to another
or out of the directory. It gives no file a second name, and no other file a name of the
log, and the files keep the order of their ages: the larger the number, the older the file.
-/

namespace DentryWatch.TraceLog

variable {base disk next : Disk} {directory : Path} {top : Location} {slots slots' : Slots}
  {log : TraceLog} {stored : Stored}

/-! ## Moves that succeed -/

section Moves

variable (site : Site base directory top) (h : Shelved base disk top slots)

include site h

/-- Where a path of the log leads when it can be looked up. -/
theorem Shelved.location_eq {number : Nat} (hnumber : number < UInt64.size) {location : Location}
    (hlocate : disk.locate (fileIn directory number) .kept = .ok location) :
    location = fileAt top number := by
  have hchild := (h.leads site).locate_child (proper_fileName hnumber)
    (Disk.check_of_locate hlocate) .kept (.inl rfl)
  exact Except.ok.inj (hlocate.symm.trans hchild)

theorem Shelved.of_removeFile {number : Nat} (hnumber : number < UInt64.size)
    (hremove : disk.removeFile (fileIn directory number) = .ok next) :
    Shelved base next top (slots.vacate number) := by
  rw [Disk.removeFile] at hremove
  cases hlocate : disk.locate (fileIn directory number) .kept with
  | error cause =>
      rw [hlocate] at hremove
      cases hremove
  | ok location =>
      obtain rfl := h.location_eq site hnumber hlocate
      rw [hlocate, Disk.ok_bind, h.slot] at hremove
      cases hslot : slots number with
      | none =>
          rw [hslot] at hremove
          cases hremove
      | some stored =>
          rw [hslot] at hremove
          cases hremove
          exact h.erase number

/-- What stood at the target is replaced. -/
theorem Shelved.of_rename {source target : Nat} (hsource : source < UInt64.size)
    (htarget : target < UInt64.size) (hne : source ≠ target)
    (hrename : disk.rename (fileIn directory source) (fileIn directory target) = .ok next) :
    Shelved base next top (slots.move source target) := by
  rw [Disk.rename] at hrename
  cases horigin : disk.locate (fileIn directory source) .kept with
  | error cause =>
      rw [horigin] at hrename
      cases hrename
  | ok origin =>
      cases hgoal : disk.locate (fileIn directory target) .kept with
      | error cause =>
          rw [horigin, hgoal] at hrename
          cases hrename
      | ok goal =>
          obtain rfl := h.location_eq site hsource horigin
          obtain rfl := h.location_eq site htarget hgoal
          rw [horigin, hgoal, Disk.ok_bind, Disk.ok_bind, h.slot] at hrename
          cases hslot : slots source with
          | none =>
              rw [hslot] at hrename
              cases hrename
          | some stored =>
              have hmoved := h.relocate site hslot hne
              have happart : fileAt top source ≠ fileAt top target := fun heq => hne (fileAt_inj heq)
              have hbelow : Disk.isBelow (fileAt top source) (fileAt top target) = false := by
                simp [Disk.isBelow, fileAt]
              rw [hslot, Option.map_some] at hrename
              simp only [if_neg happart, hbelow, Bool.false_eq_true, if_false, h.slot] at hrename
              cases hgone : slots target with
              | none =>
                  rw [hgone] at hrename
                  cases hrename
                  exact hmoved
              | some other =>
                  have hother : Node.file stored.inode ≠ .file other.inode := fun heq =>
                    hne (h.apart source target _ _ hslot hgone (Node.file.inj heq))
                  rw [hgone, Option.map_some] at hrename
                  simp [Node.isDirectory, hother] at hrename
                  exact hrename ▸ hmoved

end Moves

/-! ## Moves one after another -/

namespace Slots

/-- The larger the number, the older the file. Files get their inodes in order of age. -/
def Ordered (slots : Slots) : Prop :=
  ∀ i j newer older, i < j → slots i = some newer → slots j = some older →
    older.inode < newer.inode

/-- The active file is the same, and every rotated one was one before. -/
structure Drawn (slots slots' : Slots) : Prop where
  active : slots' 0 = slots 0
  rotated : ∀ number stored, slots' (number + 1) = some stored →
    ∃ other, slots (other + 1) = some stored
  ordered : slots.Ordered → slots'.Ordered

theorem Drawn.refl (slots : Slots) : slots.Drawn slots :=
  ⟨rfl, fun number _ hstored => ⟨number, hstored⟩, id⟩

theorem Drawn.trans {slots'' : Slots} (h : slots.Drawn slots') (hmore : slots'.Drawn slots'') :
    slots.Drawn slots'' := by
  refine ⟨hmore.active.trans h.active, ?_, fun hordered => hmore.ordered (h.ordered hordered)⟩
  intro number stored hstored
  obtain ⟨other, hother⟩ := hmore.rotated number stored hstored
  exact h.rotated other stored hother

theorem Ordered.vacate (h : slots.Ordered) (number : Nat) : (slots.vacate number).Ordered :=
  fun i j _ _ hlt hi hj => h i j _ _ hlt (of_vacate hi) (of_vacate hj)

/-- A move to the next number overtakes no file. -/
theorem Ordered.move (h : slots.Ordered) (number : Nat) :
    (slots.move number (number + 1)).Ordered := by
  intro i j newer older hlt hi hj
  rcases of_move hi with ⟨rfl, hnewer⟩ | ⟨hsource, -, hnewer⟩
  · rcases of_move hj with ⟨rfl, -⟩ | ⟨-, -, holder⟩
    · omega
    · exact h number j newer older (by omega) hnewer holder
  · rcases of_move hj with ⟨rfl, holder⟩ | ⟨-, -, holder⟩
    · exact h i number newer older (by omega) hnewer holder
    · exact h i j newer older hlt hnewer holder

/-- An active file that is younger than the rotated ones. -/
theorem Ordered.place (h : slots.Ordered)
    (hlast : ∀ number other, slots (number + 1) = some other → other.inode < stored.inode) :
    (slots.place 0 stored).Ordered := by
  intro i j newer older hlt hi hj
  obtain ⟨number, rfl⟩ := Nat.exists_eq_succ_of_ne_zero (Nat.ne_zero_of_lt hlt)
  rcases of_place hj with ⟨hzero, -⟩ | ⟨-, holder⟩
  · cases hzero
  rcases of_place hi with ⟨-, rfl⟩ | ⟨-, hnewer⟩
  · exact hlast number older holder
  · exact h i (number + 1) newer older hlt hnewer holder

theorem drawn_vacate (slots : Slots) (number : Nat) : slots.Drawn (slots.vacate (number + 1)) :=
  ⟨rfl, fun other _ hstored => ⟨other, of_vacate hstored⟩, fun h => h.vacate _⟩

theorem drawn_move (slots : Slots) (number : Nat) :
    slots.Drawn (slots.move (number + 1) (number + 2)) := by
  refine ⟨rfl, fun other stored hstored => ?_, fun h => h.move _⟩
  rcases of_move hstored with ⟨-, hold⟩ | ⟨-, -, hold⟩
  · exact ⟨number, hold⟩
  · exact ⟨other, hold⟩

/-- There is no active file, and every file was one before. -/
structure Gone (slots slots' : Slots) : Prop where
  active : slots' 0 = none
  rotated : ∀ number stored, slots' number = some stored → ∃ other, slots other = some stored
  ordered : slots.Ordered → slots'.Ordered

theorem gone_vacate (slots : Slots) : slots.Gone (slots.vacate 0) :=
  ⟨rfl, fun number _ hstored => ⟨number, of_vacate hstored⟩, fun h => h.vacate _⟩

theorem Drawn.gone_move (h : slots.Drawn slots') : slots.Gone (slots'.move 0 1) := by
  refine ⟨rfl, fun number stored hstored => ?_, fun hordered => (h.ordered hordered).move _⟩
  rcases of_move hstored with ⟨-, hold⟩ | ⟨hzero, -, hold⟩
  · exact ⟨0, h.active ▸ hold⟩
  · obtain ⟨before, rfl⟩ := Nat.exists_eq_succ_of_ne_zero hzero
    obtain ⟨other, hother⟩ := h.rotated before stored hold
    exact ⟨other + 1, hother⟩

end Slots

/-! ## Retiring the active file -/

/-- An attempt that changes nothing when it fails keeps what a success keeps. -/
theorem Shelved.of_attempt {op : Disk → Except SystemError Disk} (h : Shelved base disk top slots)
    (hop : ∀ next, op disk = .ok next →
      ∃ slots', Shelved base next top slots' ∧ slots.Drawn slots') :
    ∃ slots', Shelved base (attempt disk op) top slots' ∧ slots.Drawn slots' := by
  unfold attempt
  split
  · next next hok => exact hop next hok
  · exact ⟨slots, h, .refl slots⟩

section Retiring

variable (site : Site base directory top) (h : Shelved base disk top slots)
  (hdirectory : log.directory = directory) (hsize : log.maxFiles < UInt64.size)

include site h

theorem Shelved.of_shift (numbers : List Nat) (hnumbers : ∀ i ∈ numbers, i + 2 < UInt64.size) :
    ∃ slots', Shelved base
        (numbers.foldl
          (fun disk i =>
            attempt disk (·.rename (rotatedIn directory (i + 1)) (rotatedIn directory (i + 2))))
          disk) top slots' ∧
      slots.Drawn slots' := by
  induction numbers generalizing disk slots with
  | nil => exact ⟨slots, h, .refl slots⟩
  | cons i rest ih =>
      have hi := hnumbers i List.mem_cons_self
      have hmove : ∀ next,
          disk.rename (fileIn directory (i + 1)) (fileIn directory (i + 2)) = .ok next →
          ∃ slots', Shelved base next top slots' ∧ slots.Drawn slots' := fun next hrename =>
        ⟨_, h.of_rename site (by omega) hi (by omega) hrename, slots.drawn_move i⟩
      simp only [fileIn_succ] at hmove
      obtain ⟨middle, hmiddle, hdrawn⟩ : ∃ middle, Shelved base
          (attempt disk (·.rename (rotatedIn directory (i + 1)) (rotatedIn directory (i + 2))))
          top middle ∧ slots.Drawn middle :=
        h.of_attempt hmove
      obtain ⟨slots', hnext, hmore⟩ :=
        ih hmiddle fun j hj => hnumbers j (List.mem_cons_of_mem _ hj)
      exact ⟨slots', hnext, hdrawn.trans hmore⟩

include hdirectory hsize

theorem Shelved.of_shiftHistory (hsome : log.maxFiles ≠ 0) :
    ∃ slots', Shelved base (log.shiftHistory disk) top slots' ∧ slots.Drawn slots' := by
  obtain ⟨steps, hsteps⟩ := Nat.exists_eq_succ_of_ne_zero hsome
  have hremoves : ∀ next, disk.removeFile (fileIn directory (steps + 1)) = .ok next →
      ∃ slots', Shelved base next top slots' ∧ slots.Drawn slots' := fun next hremove =>
    ⟨_, h.of_removeFile site (by omega) hremove, slots.drawn_vacate steps⟩
  rw [fileIn_succ] at hremoves
  obtain ⟨middle, hmiddle, hdrawn⟩ : ∃ middle, Shelved base
      (attempt disk (·.removeFile (rotatedIn directory (steps + 1)))) top middle ∧
      slots.Drawn middle :=
    h.of_attempt hremoves
  rw [TraceLog.shiftHistory, hsteps]
  simp only [rotatedPath, hdirectory]
  obtain ⟨slots', hnext, hmore⟩ := hmiddle.of_shift site (List.range steps).reverse (by
    intro i hi
    have hlt := List.mem_range.1 (List.mem_reverse.1 hi)
    omega)
  exact ⟨slots', hnext, hdrawn.trans hmore⟩

theorem Shelved.of_retire_error {cause : SystemError}
    (hretire : log.retire disk = (.error cause, next)) :
    ∃ slots', Shelved base next top slots' ∧ slots.Drawn slots' := by
  unfold TraceLog.retire at hretire
  split at hretire
  · split at hretire
    · cases hretire
    · cases hretire
      exact ⟨slots, h, .refl slots⟩
  · next hsome =>
      dsimp only at hretire
      split at hretire
      · cases hretire
      · cases hretire
        exact h.of_shiftHistory site hdirectory hsize hsome

theorem Shelved.of_retire_ok (hretire : log.retire disk = (.ok (), next)) :
    ∃ slots', Shelved base next top slots' ∧ slots.Gone slots' := by
  unfold TraceLog.retire at hretire
  rw [activePath, rotatedPath, hdirectory, ← fileIn_zero, ← fileIn_succ] at hretire
  split at hretire
  · split at hretire
    · next removed hremove =>
        cases hretire
        exact ⟨_, h.of_removeFile site (by decide) hremove, slots.gone_vacate⟩
    · cases hretire
  · next hsome =>
      obtain ⟨middle, hmiddle, hdrawn⟩ := h.of_shiftHistory site hdirectory hsize hsome
      dsimp only at hretire
      split at hretire
      · next renamed hrename =>
          cases hretire
          exact ⟨_, hmiddle.of_rename site (by decide) (by decide) (by decide) hrename,
            hdrawn.gone_move⟩
      · cases hretire

end Retiring

end DentryWatch.TraceLog
