import DentryWatch.Proofs.GroupTable.Admission
import DentryWatch.Proofs.Text.Numerals
import DentryWatch.Session
import DentryWatch.Settings.Basic

/-!
# Which capacities size a table

The settings take every word for a capacity. Up to `2 ^ 62` groups, twice the
capacity rounds up to a word, and at most half of the slots are ever keyed. Past
that the rounding leaves the words: there is no table, no collector and no session.
-/

namespace DentryWatch.GroupTable

/-- Nothing saturates or overflows on the way from a capacity to its slots and their mask. -/
structure SafelySized (capacity : Nat) : Prop where
  unsaturated : slotCount capacity = ceilPow2 (max (2 * capacity) 2)
  word : slotCount capacity < 2 ^ 64
  two_pow : ∃ k, slotCount capacity = 2 ^ k
  mask : (ofCapacity capacity).mask.toNat = slotCount capacity - 1
  twice_le : 2 * capacity ≤ slotCount capacity

theorem safelySized_of_le {capacity : Nat} (h : capacity ≤ 2 ^ 62) : SafelySized capacity := by
  have hsize : UInt64.size = 2 ^ 64 := rfl
  have hword : slotCount capacity < 2 ^ 64 := by
    have hceil : slotCount capacity ≤ 2 ^ 63 := ceilPow2_le_two_pow (by omega)
    omega
  obtain ⟨k, -, hslots, hmask⟩ := (tidy_ofCapacity capacity).shape
  rw [rows_size_ofCapacity] at hslots
  refine ⟨?_, hword, ⟨k, hslots⟩, ?_, (slotCount_bounds h).2⟩
  · rw [slotCount, Nat.min_eq_left (by omega)]
  · rw [hmask, ← hslots, UInt64.toNat_ofNat', Nat.mod_eq_of_lt (by omega)]

/-- Twice the capacity is then cut to a word, and the next power of two is no word any more. -/
theorem slotCount_of_lt {capacity : Nat} (h : 2 ^ 62 < capacity) : slotCount capacity = 2 ^ 64 := by
  have hsize : UInt64.size = 2 ^ 64 := rfl
  obtain ⟨k, hk, hslots⟩ := exists_slotCount capacity
  have hge : 2 ^ 63 < slotCount capacity := by
    have := le_ceilPow2 (max (min (2 * capacity) (UInt64.size - 1)) 2)
    rw [slotCount]
    omega
  have hlog : 63 < k := by
    rwa [hslots, Nat.pow_lt_pow_iff_right (by decide)] at hge
  rw [hslots, show k = 64 by omega]

theorem safelySized_iff {capacity : Nat} : SafelySized capacity ↔ capacity ≤ 2 ^ 62 := by
  refine ⟨fun h => ?_, safelySized_of_le⟩
  by_contra hlt
  have hslots := slotCount_of_lt (Nat.lt_of_not_le hlt)
  have := h.word
  omega

theorem ofCapacity?_of_le {capacity : Nat} (h : capacity ≤ 2 ^ 62) :
    ofCapacity? capacity = some (ofCapacity capacity) :=
  if_pos (safelySized_of_le h).word

theorem ofCapacity?_of_lt {capacity : Nat} (h : 2 ^ 62 < capacity) :
    ofCapacity? capacity = none := by
  refine if_neg (Nat.not_lt.2 ?_)
  rw [slotCount_of_lt h]
  exact Nat.le_refl (2 ^ 64)

/-- A fresh table with room admits whoever comes first. -/
theorem tally_ofCapacity {capacity : Nat} (h : capacity ≤ 2 ^ 62) (hpos : 0 < capacity)
    (group : GroupId) (op : Operation) : ((ofCapacity capacity).tally group op).1 = .ok () := by
  have hstep := (shows_ofCapacity h).tally group op
  rw [if_pos (.inr hpos)] at hstep
  exact hstep.1

/-! ## Every capacity of the settings -/

theorem tableCapacity_withEnvironment (settings : Settings) {environment : String → Option String}
    {capacity : UInt64} (h : environment "DCACHE_STATS_CAPACITY" =
      some (String.ofList (Text.decimal capacity.toNat))) :
    (settings.withEnvironment environment).probe.tableCapacity = capacity := by
  simp only [Settings.withEnvironment, h, Settings.numberOver, Option.bind_some,
    String.toList_ofList, Text.readWord64?_decimal, Option.getD_some]

/--
The settings and the environment may ask for every capacity, and the sizing is safe exactly up
to `2 ^ 62`. Past it the slot count overflows, and the program stops before it has a table.
-/
theorem sizing_safe_iff_le_limit (settings : Settings) :
    let options := settings.probe.collectorOptions
    let capacity := options.tableCapacity
    capacity = settings.probe.tableCapacity.toNat ∧
    (∀ (word : UInt64) (environment : String → Option String),
      environment "DCACHE_STATS_CAPACITY" = some (String.ofList (Text.decimal word.toNat)) →
        (settings.withEnvironment environment).probe.tableCapacity = word) ∧
    (SafelySized capacity ↔ capacity ≤ 2 ^ 62) ∧
    (capacity ≤ 2 ^ 62 → ∃ table, ofCapacity? capacity = some table ∧
      Collector.ofOptions? options = some (.ofOptions options) ∧
      (Collector.ofOptions options).table = table ∧
      (0 < capacity → ∀ group op, (table.tally group op).1 = .ok ()) ∧
      ∀ calls, 2 * (table.tallyAll calls).2.keyedSlots ≤ (table.tallyAll calls).2.rows.size) ∧
    (2 ^ 62 < capacity → slotCount capacity = 2 ^ 64 ∧ ofCapacity? capacity = none ∧
      Collector.ofOptions? options = none ∧
      ∀ {σ : Type} (events : EventSource σ) (source : σ),
        Session.start? events source options = none) := by
  intro options capacity
  refine ⟨rfl, fun word environment => tableCapacity_withEnvironment settings, safelySized_iff,
    fun hle => ?_, fun hlt => ?_⟩
  · have htable := ofCapacity?_of_le hle
    refine ⟨ofCapacity capacity, htable, ?_, rfl, fun hpos => tally_ofCapacity hle hpos,
      fun calls => ((shows_ofCapacity hle).tallyAll calls).1.sound.two_mul_keyedSlots_le⟩
    rw [Collector.ofOptions?, htable]
    rfl
  · have htable := ofCapacity?_of_lt hlt
    have hcollector : Collector.ofOptions? options = none := by
      rw [Collector.ofOptions?, htable]
      rfl
    refine ⟨slotCount_of_lt hlt, htable, hcollector, fun events source => ?_⟩
    rw [Session.start?, hcollector]
    rfl

/-- The largest safe capacity, from the environment. -/
theorem sizing_safe_iff_le_limit_boundary :
    let settings := ({} : Settings).withEnvironment fun name =>
      if name = "DCACHE_STATS_CAPACITY" then some "4611686018427387904" else none
    settings.probe.tableCapacity = 4611686018427387904 ∧ SafelySized 4611686018427387904 ∧
      ∃ table, ofCapacity? 4611686018427387904 = some table ∧
        ∀ group op, (table.tally group op).1 = .ok () := by
  intro settings
  have hcapacity : settings.probe.tableCapacity = 4611686018427387904 :=
    (sizing_safe_iff_le_limit {}).2.1 4611686018427387904 _ (by decide +kernel)
  have hoption : settings.probe.collectorOptions.tableCapacity = 4611686018427387904 :=
    congrArg UInt64.toNat hcapacity
  obtain ⟨-, -, hsafe, hadmits, -⟩ := sizing_safe_iff_le_limit settings
  rw [hoption] at hsafe hadmits
  obtain ⟨table, htable, -, -, hfirst, -⟩ := hadmits (by decide)
  exact ⟨hcapacity, hsafe.2 (by decide), table, htable, hfirst (by decide)⟩

/-- One group more, and there is no table for the first group. -/
theorem sizing_overflows_past_limit :
    let settings : Settings := { probe := { tableCapacity := 4611686018427387905 } }
    let options := settings.probe.collectorOptions
    options.tableCapacity = 4611686018427387905 ∧ ¬ slotCount options.tableCapacity < UInt64.size ∧
      (ofCapacity? options.tableCapacity).isSome = false ∧
      (Collector.ofOptions? options).isSome = false := by
  decide +kernel

end DentryWatch.GroupTable
