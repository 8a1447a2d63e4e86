import Mathlib.Order.Bounds.Defs
import DentryWatch.Proofs.Ring.Cells
import DentryWatch.Settings.Basic

/-!
# Budgets of the ring

A budget of bytes is rounded down to a power of two of records and a number of records
up to a power of two of cells. The two meet: a ring gets exactly the records that its
budget was rounded to, and the words that compute them do not overflow.
-/

namespace DentryWatch.Ring

/-! ## Records in words -/

/-- How many zero bits a word has before its highest one. -/
def leadingZeros (word : UInt64) : Nat := word.toBitVec.clz.toNat

/-- How many records fit a budget, at least two. -/
def fitting (budget : UInt64) : UInt64 := max (budget / UInt64.ofNat recordSize) 2

/-- The highest bit of the records that fit. -/
def recordsForWord (budget : UInt64) : UInt64 :=
  1 <<< UInt64.ofNat (63 - leadingZeros (fitting budget))

theorem log2_toNat {word : UInt64} (h : word ≠ 0) :
    leadingZeros word ≤ 63 ∧ Nat.log2 word.toNat = 63 - leadingZeros word := by
  have hne : word.toBitVec ≠ 0#64 := fun heq => h (UInt64.toBitVec_inj.1 heq)
  have hlt : leadingZeros word < 64 := BitVec.clz_lt_iff_ne_zero.2 hne
  have hlow : 2 ^ (63 - leadingZeros word) ≤ word.toNat :=
    BitVec.two_pow_sub_clz_le_toNat_of_ne_zero (by decide) hne
  have hhigh : word.toNat < 2 ^ (64 - leadingZeros word) := BitVec.toNat_lt_two_pow_sub_clz
  have hnat : word.toNat ≠ 0 := fun heq => h (UInt64.toNat_inj.1 heq)
  refine ⟨Nat.le_of_lt_succ hlt, (Nat.log2_eq_iff hnat).2 ⟨hlow, ?_⟩⟩
  rwa [show 63 - leadingZeros word + 1 = 64 - leadingZeros word by omega]

theorem toNat_fitting (budget : UInt64) :
    (fitting budget).toNat = max (budget.toNat / recordSize) 2 := by
  have hbudget := budget.toNat_lt
  have hquotient : budget.toNat / recordSize < 2 ^ 64 :=
    Nat.lt_of_le_of_lt (Nat.div_le_self _ _) hbudget
  have hdiv : budget / UInt64.ofNat recordSize = UInt64.ofNat (budget.toNat / recordSize) := by
    apply UInt64.toNat_inj.1
    rw [UInt64.toNat_div, UInt64.toNat_ofNat', UInt64.toNat_ofNat', Nat.mod_eq_of_lt hquotient]
    rfl
  have htwo : (2 : UInt64) = UInt64.ofNat 2 := rfl
  rw [fitting, hdiv, htwo, max_ofNat hquotient (by decide), UInt64.toNat_ofNat',
    Nat.mod_eq_of_lt (by omega)]

theorem recordsForBytes_eq (bytes : Nat) :
    recordsForBytes bytes = 2 ^ Nat.log2 (max (bytes / recordSize) 2) :=
  Nat.one_shiftLeft _

/-- The highest bit is neither the lowest one nor out of the word. -/
theorem leadingZeros_fitting (budget : UInt64) :
    leadingZeros (fitting budget) ≤ 62 ∧
      Nat.log2 (max (budget.toNat / recordSize) 2) = 63 - leadingZeros (fitting budget) := by
  have htoNat := toNat_fitting budget
  have hne : fitting budget ≠ 0 := by
    intro heq
    rw [heq, UInt64.toNat_zero] at htoNat
    omega
  obtain ⟨hle, hlog⟩ := log2_toNat hne
  rw [htoNat] at hlog
  have hone : 1 ≤ Nat.log2 (max (budget.toNat / recordSize) 2) :=
    (Nat.le_log2 (by omega)).2 (by omega)
  exact ⟨by omega, hlog⟩

/-- In words the same number comes out. -/
theorem toNat_recordsForWord (budget : UInt64) :
    (recordsForWord budget).toNat = recordsForBytes budget.toNat := by
  obtain ⟨-, hlog⟩ := leadingZeros_fitting budget
  have hlt : 2 ^ (63 - leadingZeros (fitting budget)) < 2 ^ 64 :=
    Nat.pow_lt_pow_right (by decide) (by omega)
  have hone : (1 : UInt64).toNat = 1 := rfl
  rw [recordsForWord, recordsForBytes_eq, hlog, UInt64.toNat_shiftLeft, UInt64.toNat_ofNat', hone,
    Nat.mod_eq_of_lt (show 63 - leadingZeros (fitting budget) < 2 ^ 64 by omega),
    Nat.mod_eq_of_lt (show 63 - leadingZeros (fitting budget) < 64 by omega), Nat.one_shiftLeft,
    Nat.mod_eq_of_lt hlt]

/-! ## What fits -/

/-- The rounded number fits, and its double does not. -/
theorem recordsForBytes_bounds (bytes : Nat) :
    recordsForBytes bytes * recordSize ≤ max bytes (2 * recordSize) ∧
      bytes < 2 * recordsForBytes bytes * recordSize := by
  have hlow := Nat.log2_self_le (n := max (bytes / recordSize) 2) (by omega)
  have hhigh := Nat.lt_log2_self (n := max (bytes / recordSize) 2)
  rw [Nat.pow_succ, ← recordsForBytes_eq] at hhigh
  rw [← recordsForBytes_eq] at hlow
  generalize recordsForBytes bytes = records at hlow hhigh
  have hsize : recordSize = 536 := rfl
  rw [hsize] at hlow hhigh ⊢
  omega

theorem exists_recordsForBytes_eq (bytes : Nat) :
    ∃ k, 1 ≤ k ∧ recordsForBytes bytes = 2 ^ k :=
  ⟨_, (Nat.le_log2 (by omega)).2 (by omega), recordsForBytes_eq bytes⟩

/-- The sizes that a budget allows: powers of two of records, but at least two of them. -/
def Affordable (bytes : Nat) : Set Nat :=
  {size | (∃ k, 1 ≤ k ∧ size = 2 ^ k) ∧ size * recordSize ≤ max bytes (2 * recordSize)}

theorem isGreatest_recordsForBytes (bytes : Nat) :
    IsGreatest (Affordable bytes) (recordsForBytes bytes) := by
  obtain ⟨hfits, hfull⟩ := recordsForBytes_bounds bytes
  obtain ⟨k, hk, hrecords⟩ := exists_recordsForBytes_eq bytes
  refine ⟨⟨⟨k, hk, hrecords⟩, hfits⟩, ?_⟩
  rintro size ⟨⟨j, -, rfl⟩, hsize⟩
  rw [hrecords]
  refine Nat.pow_le_pow_right (by decide) (Nat.le_of_not_lt fun hlt => ?_)
  -- a larger power is at least the double, which is over the budget
  have hdouble : 2 * 2 ^ k ≤ 2 ^ j := by
    rw [← Nat.pow_succ']
    exact Nat.pow_le_pow_right (by decide) hlt
  have htwo : 2 ^ 1 ≤ 2 ^ k := Nat.pow_le_pow_right (by decide) hk
  rw [hrecords] at hfull
  have hrecord : recordSize = 536 := rfl
  rw [hrecord] at hfull hsize
  omega

/-! ## Cells -/

theorem cellCount_recordsForBytes (bytes : Nat) :
    cellCount (recordsForBytes bytes) = recordsForBytes bytes := by
  obtain ⟨k, hk, hrecords⟩ := exists_recordsForBytes_eq bytes
  have htwo : 2 ≤ 2 ^ k := Nat.pow_le_pow_right (n := 2) (by decide) hk
  rw [hrecords, cellCount, Nat.max_eq_left htwo, ceilPow2_two_pow]

theorem cellCount_le {records : Nat} (h : records ≤ 2 ^ 63) : cellCount records ≤ 2 ^ 63 :=
  ceilPow2_le_two_pow (by omega)

/-- Masking a position takes its remainder by the number of cells. -/
theorem index_of_capacity {records : Nat} (h : records ≤ 2 ^ 63) {ring : Ring}
    (hring : ring.capacity = cellCount records) (position : UInt64) :
    ring.index position = position.toNat % ring.capacity := by
  obtain ⟨k, hk, hk', hcells⟩ :=
    exists_ceilPow2_eq_of_le (Nat.le_max_right records 2) (show max records 2 ≤ 2 ^ 63 by omega)
  have hsized : ring.Sized ring.capacity :=
    ⟨rfl, k, hk, Nat.lt_succ_of_le hk', hring.trans hcells⟩
  rw [← hsized.index_ofNat, UInt64.ofNat_toNat]

/--
The ring of a budget has the largest power of two of records that fits it, but two at
least, and the words that compute it do not overflow. A ring for any number of records up
to the largest power of two in a word has the least power of two of cells that is large
enough, so that the mask of a position is its remainder.
-/
theorem budget_used_fully (probe : ProbeSettings) :
    (leadingZeros (fitting probe.ringBytes) ≤ 62 ∧
      (recordsForWord probe.ringBytes).toNat = recordsForBytes probe.ringBytes.toNat) ∧
      IsGreatest (Affordable probe.ringBytes.toNat) (recordsForBytes probe.ringBytes.toNat) ∧
      probe.ringBytes.toNat < 2 * recordsForBytes probe.ringBytes.toNat * recordSize ∧
      (Collector.ofOptions probe.collectorOptions).ring.capacity =
        recordsForBytes probe.ringBytes.toNat ∧
      ∀ records ≤ 2 ^ 63,
        IsLeast {size | (∃ k, size = 2 ^ k) ∧ max records 2 ≤ size} (ofCapacity records).capacity ∧
          (ofCapacity records).capacity < 2 ^ 64 ∧
          ∀ ring : Ring, ring.capacity = (ofCapacity records).capacity → ∀ position,
            ring.index position = position.toNat % ring.capacity := by
  refine ⟨⟨(leadingZeros_fitting _).1, toNat_recordsForWord _⟩, isGreatest_recordsForBytes _,
    (recordsForBytes_bounds _).2, ?_, fun records hrecords => ?_⟩
  · have hring : (Collector.ofOptions probe.collectorOptions).ring =
        ofCapacity (recordsForBytes probe.ringBytes.toNat) := rfl
    rw [hring, capacity_ofCapacity, cellCount_recordsForBytes]
  · rw [capacity_ofCapacity]
    exact ⟨isLeast_ceilPow2 _, Nat.lt_of_le_of_lt (cellCount_le hrecords) (by decide),
      fun ring hring position => index_of_capacity hrecords hring position⟩

/-- One byte less than four records halves the ring; a ring for three records has four cells. -/
theorem budget_used_fully_boundary :
    (Collector.ofOptions { ringBytes := 2143 : ProbeSettings }.collectorOptions).ring.capacity = 2 ∧
      (Collector.ofOptions { ringBytes := 2144 : ProbeSettings }.collectorOptions).ring.capacity =
        4 ∧
      3 ≤ 2 ^ 63 ∧ (ofCapacity 3).index 0xffffffffffffffff = 3 := by
  have hless := (budget_used_fully { ringBytes := 2143 }).2.2.2.1
  have hmore := (budget_used_fully { ringBytes := 2144 }).2.2.2.1
  have hthree := ((budget_used_fully {}).2.2.2.2 3 (by decide)).2.2 (ofCapacity 3) rfl
    0xffffffffffffffff
  refine ⟨hless.trans (by decide +kernel), hmore.trans (by decide +kernel), by decide, ?_⟩
  rw [hthree, capacity_ofCapacity]
  decide +kernel

end DentryWatch.Ring
