/-!
# Sizes that are powers of two

Tables and rings have a power of two of places, so that the low bits of a word
choose one.
-/

namespace DentryWatch

/-- The least power of two that is at least a number. -/
def ceilPow2 (n : Nat) : Nat := if n ≤ 1 then 1 else 1 <<< (Nat.log2 (n - 1) + 1)

theorem le_ceilPow2 (n : Nat) : n ≤ ceilPow2 n := by
  unfold ceilPow2
  split
  · assumption
  · have hlt : n - 1 < 2 ^ (Nat.log2 (n - 1) + 1) := Nat.lt_log2_self
    rw [Nat.one_shiftLeft]
    omega

end DentryWatch
