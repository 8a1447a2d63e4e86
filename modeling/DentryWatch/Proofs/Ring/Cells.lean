import DentryWatch.Proofs.Sizing
import DentryWatch.Ring

/-!
# Cells and positions of the ring

Positions are counted without end here and cut to words where the ring uses them.
A ring with a power of two of cells finds the cell of a position by its
remainder, also after the words wrapped, and a lap of positions meets every cell
once.
-/

namespace DentryWatch

/-- Positions less than a lap apart share no cell. -/
theorem eq_of_mod_eq_of_lap {cap p q start : Nat} (hp : start ≤ p) (hp' : p < start + cap)
    (hq : start ≤ q) (hq' : q < start + cap) (hmod : p % cap = q % cap) : p = q := by
  rcases Nat.le_total p q with hle | hle
  · have hdvd : cap ∣ q - p := Nat.dvd_of_mod_eq_zero (Nat.sub_mod_eq_zero_of_mod_eq hmod.symm)
    have := Nat.eq_zero_of_dvd_of_lt hdvd (by omega)
    omega
  · have hdvd : cap ∣ p - q := Nat.dvd_of_mod_eq_zero (Nat.sub_mod_eq_zero_of_mod_eq hmod)
    have := Nat.eq_zero_of_dvd_of_lt hdvd (by omega)
    omega

theorem word_add_one_ne (word : UInt64) : word ≠ word + 1 := by
  intro h
  have hnat := congrArg UInt64.toNat h
  rw [UInt64.toNat_add] at hnat
  have := word.toNat_lt
  have hone : (1 : UInt64).toNat = 1 := rfl
  omega

theorem max_ofNat {a b : Nat} (ha : a < 2 ^ 64) (hb : b < 2 ^ 64) :
    max (UInt64.ofNat a) (UInt64.ofNat b) = UInt64.ofNat (max a b) := by
  have hle : UInt64.ofNat a ≤ UInt64.ofNat b ↔ a ≤ b := by
    rw [UInt64.le_iff_toNat_le, UInt64.toNat_ofNat', UInt64.toNat_ofNat', Nat.mod_eq_of_lt ha,
      Nat.mod_eq_of_lt hb]
  show (if UInt64.ofNat a ≤ UInt64.ofNat b then UInt64.ofNat b else UInt64.ofNat a) = _
  by_cases h : a ≤ b
  · rw [if_pos (hle.2 h), Nat.max_eq_right h]
  · rw [if_neg (mt hle.1 h), Nat.max_eq_left (Nat.le_of_not_le h)]

namespace Ring

/-- A ring whose cells are a power of two that a word can number. -/
def Sized (ring : Ring) (cap : Nat) : Prop :=
  ring.cells.size = cap ∧ ∃ k, 1 ≤ k ∧ k < 64 ∧ cap = 2 ^ k

theorem Sized.index_ofNat {ring : Ring} {cap : Nat} (h : ring.Sized cap) (position : Nat) :
    ring.index (UInt64.ofNat position) = position % cap := by
  obtain ⟨hsize, k, -, hk, rfl⟩ := h
  have hdvd : 2 ^ k ∣ 2 ^ 64 := Nat.pow_dvd_pow 2 (Nat.le_of_lt hk)
  rw [index, capacity, hsize, toNat_and_lowBits _ (Nat.le_of_lt hk), UInt64.toNat_ofNat',
    Nat.mod_mod_of_dvd _ hdvd]

/-- Positions a lap apart share their cell. -/
theorem Sized.cell_add_lap {ring : Ring} {cap : Nat} (h : ring.Sized cap) (position : Nat) :
    ring.cell (UInt64.ofNat (position + cap)) = ring.cell (UInt64.ofNat position) := by
  rw [cell, cell, h.index_ofNat, h.index_ofNat, Nat.add_mod_right]

theorem Sized.modifyCell {ring : Ring} {cap : Nat} (h : ring.Sized cap) (position : UInt64)
    (change : RingCell → RingCell) : (ring.modifyCell position change).Sized cap :=
  ⟨by rw [Ring.modifyCell, Array.size_modify, h.1], h.2⟩

/-- Changing the cell of one position changes it for no other of the same lap. -/
theorem Sized.cell_modifyCell {ring : Ring} {cap : Nat} (h : ring.Sized cap) {p q start : Nat}
    (hp : start ≤ p) (hp' : p < start + cap) (hq : start ≤ q) (hq' : q < start + cap)
    (change : RingCell → RingCell) :
    (ring.modifyCell (UInt64.ofNat p) change).cell (UInt64.ofNat q) =
      if p = q then change (ring.cell (UInt64.ofNat q)) else ring.cell (UInt64.ofNat q) := by
  have hlt : q % cap < ring.cells.size := by
    rw [h.1]
    exact Nat.mod_lt _ (by omega)
  rw [cell, cell, (h.modifyCell _ change).index_ofNat, h.index_ofNat]
  simp only [Ring.modifyCell, h.index_ofNat, Array.getD_eq_getD_getElem?, Array.getElem?_modify]
  by_cases heq : p = q
  · subst heq
    simp [hlt]
  · have hne : p % cap ≠ q % cap := fun hmod => heq (eq_of_mod_eq_of_lap hp hp' hq hq' hmod)
    rw [if_neg hne, if_neg heq]

theorem lead_eq (ring : Ring) (position : UInt64) :
    ring.lead position = ((ring.cell position).turn - position).toInt64 := rfl

theorem toInt64_eq_zero_iff (word : UInt64) : word.toInt64 = 0 ↔ word = 0 := by
  constructor
  · intro h
    exact congrArg Int64.toUInt64 h
  · rintro rfl
    rfl

theorem toInt64_neg_iff (word : UInt64) : word.toInt64 < 0 ↔ 2 ^ 63 ≤ word.toNat := by
  have hint : word.toInt64.toInt = word.toBitVec.toInt := rfl
  have hnat : word.toBitVec.toNat = word.toNat := rfl
  have hlt := word.toNat_lt
  rw [Int64.lt_iff_toInt_lt, hint, BitVec.toInt_eq_toNat_cond, hnat]
  show (if 2 * word.toNat < 2 ^ 64 then (word.toNat : Int) else word.toNat - (2 ^ 64 : Nat)) < 0 ↔ _
  split <;> omega

end Ring

end DentryWatch
