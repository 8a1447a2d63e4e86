import DentryWatch.Churn

/-!
# Windows of a drive

A pause between windows changes nothing of what is made: the windows of a drive,
put one after another, are one plain loop over the names. So a drive does the
same at every rate.
-/

namespace DentryWatch.Churn

variable {max batch left : Nat} {outcome : Except ChurnFailure Unit} {churn churn' : Churn}
  {disk disk' : Disk}

theorem driveWithin_of_last {names due : Nat}
    (h : window max names due churn disk = (.last outcome, churn', disk')) :
    driveWithin max names churn disk = (outcome, churn', disk') := by
  induction names generalizing due churn disk with
  | zero =>
      cases due with
      | zero => simp [window] at h
      | succ due => simpa [window, driveWithin] using h
  | succ names ih =>
      cases due with
      | zero => simp [window] at h
      | succ due =>
          rw [window] at h
          rw [driveWithin]
          split at h
          · simpa using h
          · simpa using h
          · split at h
            · next hfull => simpa [hfull] using h
            · next hroom =>
                rw [if_neg hroom]
                exact ih h

/-- A window that is filled is the beginning of the loop, and tries a name if any entry is due. -/
theorem driveWithin_of_filled {names due : Nat}
    (h : window max names due churn disk = (.filled left, churn', disk')) :
    left ≤ names ∧ (0 < due → left < names) ∧
      driveWithin max names churn disk = driveWithin max left churn' disk' := by
  induction names generalizing due churn disk with
  | zero =>
      cases due with
      | zero =>
          obtain ⟨rfl, rfl, rfl⟩ : left = 0 ∧ churn = churn' ∧ disk = disk' := by
            simpa [window, eq_comm] using h
          simp
      | succ due => simp [window] at h
  | succ names ih =>
      cases due with
      | zero =>
          obtain ⟨rfl, rfl, rfl⟩ : left = names + 1 ∧ churn = churn' ∧ disk = disk' := by
            simpa [window, eq_comm] using h
          simp
      | succ due =>
          rw [window] at h
          rw [driveWithin]
          split at h
          · simp at h
          · simp at h
          · split at h
            · simp at h
            · next hroom =>
                obtain ⟨hle, -, hrest⟩ := ih h
                rw [if_neg hroom]
                exact ⟨by omega, by omega, hrest⟩

/-- Every window tries a name, so the windows go as far as the loop does. -/
theorem windows_eq_driveWithin (hbatch : 0 < batch) (count names : Nat) (hnames : names ≤ count)
    (churn : Churn) (disk : Disk) :
    windows max batch count names churn disk = driveWithin max names churn disk := by
  induction count generalizing names churn disk with
  | zero =>
      obtain rfl : names = 0 := by omega
      rfl
  | succ count ih =>
      rw [windows]
      split
      · next hlast => exact (driveWithin_of_last hlast).symm
      · next hfilled =>
          obtain ⟨-, hless, hrest⟩ := driveWithin_of_filled hfilled
          rw [hrest]
          exact ih _ (by have := hless hbatch; omega) _ _

/-- What a drive does is the same at every rate. -/
theorem driveAt_eq_drive (churn : Churn) (disk : Disk) (rate max : Nat) (running : Bool) :
    churn.driveAt disk rate max running = churn.drive disk max running := by
  rw [driveAt, drive]
  split
  · exact windows_eq_driveWithin (Nat.le_max_right _ _) _ _ (Nat.le_refl _) churn disk
  · rfl

end DentryWatch.Churn
