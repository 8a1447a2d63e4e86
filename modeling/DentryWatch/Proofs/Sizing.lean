import Mathlib.Algebra.Group.Nat.Defs
import Mathlib.Order.Bounds.Defs
import DentryWatch.Sizing

/-!
# Powers of two and the low bits of words

A size that fits into the words is a power of two with an exponent below their
width. Masking a word with one less than such a size takes its remainder.
-/

namespace DentryWatch

theorem exists_ceilPow2_eq (n : Nat) : ∃ k, ceilPow2 n = 2 ^ k := by
  unfold ceilPow2
  split
  · exact ⟨0, rfl⟩
  · exact ⟨_, Nat.one_shiftLeft _⟩

theorem ceilPow2_le_two_pow {n k : Nat} (hn : n ≤ 2 ^ k) : ceilPow2 n ≤ 2 ^ k := by
  unfold ceilPow2
  split
  · exact Nat.one_le_two_pow
  · have hlog : Nat.log2 (n - 1) < k := (Nat.log2_lt (by omega)).2 (by omega)
    rw [Nat.one_shiftLeft]
    exact Nat.pow_le_pow_right (by decide) hlog

theorem isLeast_ceilPow2 (n : Nat) :
    IsLeast {size | (∃ k, size = 2 ^ k) ∧ n ≤ size} (ceilPow2 n) := by
  refine ⟨⟨exists_ceilPow2_eq n, le_ceilPow2 n⟩, ?_⟩
  rintro size ⟨⟨k, rfl⟩, hn⟩
  exact ceilPow2_le_two_pow hn

/-- A power of two is not rounded. -/
theorem ceilPow2_two_pow (k : Nat) : ceilPow2 (2 ^ k) = 2 ^ k :=
  Nat.le_antisymm (ceilPow2_le_two_pow (Nat.le_refl _)) (le_ceilPow2 _)

/-- The least power of two not below `n`, which is at least two, has an exponent between. -/
theorem exists_ceilPow2_eq_of_le {n bound : Nat} (htwo : 2 ≤ n) (hn : n ≤ 2 ^ bound) :
    ∃ k, 1 ≤ k ∧ k ≤ bound ∧ ceilPow2 n = 2 ^ k := by
  obtain ⟨k, hk⟩ := exists_ceilPow2_eq n
  have hle : 2 ^ k ≤ 2 ^ bound := hk ▸ ceilPow2_le_two_pow hn
  have hge : 2 ^ 1 ≤ 2 ^ k := hk ▸ Nat.le_trans htwo (le_ceilPow2 n)
  exact ⟨k, (Nat.pow_le_pow_iff_right (by decide)).1 hge,
    (Nat.pow_le_pow_iff_right (by decide)).1 hle, hk⟩

theorem toNat_and_lowBits (word : UInt64) {k : Nat} (hk : k ≤ 64) :
    (word &&& UInt64.ofNat (2 ^ k - 1)).toNat = word.toNat % 2 ^ k := by
  have hlt : 2 ^ k - 1 < 2 ^ 64 := by
    have hpow : 2 ^ k ≤ 2 ^ 64 := Nat.pow_le_pow_right (by decide) hk
    have hpos := Nat.two_pow_pos k
    omega
  rw [UInt64.toNat_and, UInt64.toNat_ofNat', Nat.mod_eq_of_lt hlt, Nat.and_two_pow_sub_one_eq_mod]

end DentryWatch
