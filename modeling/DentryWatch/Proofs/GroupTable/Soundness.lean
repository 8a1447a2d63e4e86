import Mathlib.Data.List.Nodup
import Mathlib.Data.Nat.ModEq
import DentryWatch.Proofs.GroupTable.Transitions

/-!
# Sound group tables

Besides being tidy, a sound table has a free slot on every chain, no key in two
slots, and no gap between a key and its home slot. Looking up a group then finds
exactly the row that the listing shows, and a counted operation keeps the table
sound.
-/

namespace DentryWatch.GroupTable

/-- What every table without an overflowing slot count keeps. -/
structure Sound (table : GroupTable) : Prop extends Tidy table where
  sized : 2 ≤ table.rows.size
  room : 2 * table.capacity ≤ table.rows.size
  distinct : ∀ i j, table.key i ≠ 0 → table.key i = table.key j → i = j
  linked : ∀ i, table.key i ≠ 0 →
    ∃ steps, table.chain (table.key i) steps = i ∧
      ∀ s < steps, table.key (table.chain (table.key i) s) ≠ 0
  live_eq : table.live = table.allRows.countP (·.status = .live)
  live_le : table.live ≤ table.capacity

/-! ## Chains cover the table -/

section Covering

variable {table : GroupTable} {k : Nat}

theorem toNat_next (hk : k ≤ 64) (hmask : table.mask = UInt64.ofNat (2 ^ k - 1))
    (index : UInt64) : (table.next index).toNat = (index.toNat + 1) % 2 ^ k := by
  have hdvd : 2 ^ k ∣ 2 ^ 64 := Nat.pow_dvd_pow 2 (by omega)
  rw [next, hmask, toNat_and_lowBits _ hk, UInt64.toNat_add, Nat.mod_mod_of_dvd _ hdvd]
  rfl

theorem toNat_chain (hk : k ≤ 64) (hmask : table.mask = UInt64.ofNat (2 ^ k - 1))
    (group : GroupId) (steps : Nat) :
    (table.chain group steps).toNat = ((table.home group).toNat + steps) % 2 ^ k := by
  induction steps with
  | zero =>
      have hlt : (table.home group).toNat < 2 ^ k := by
        rw [home, hmask, toNat_and_lowBits _ hk]
        exact Nat.mod_lt _ (Nat.two_pow_pos k)
      rw [chain, Function.iterate_zero, id, Nat.add_zero, Nat.mod_eq_of_lt hlt]
  | succ steps ih =>
      rw [chain_succ, toNat_next hk hmask, ih, Nat.mod_add_mod, Nat.add_assoc]

/-- No slot comes twice within one round of a chain. -/
theorem chain_inj (hk : k ≤ 64) (hmask : table.mask = UInt64.ofNat (2 ^ k - 1)) (group : GroupId)
    {i j : Nat} (hi : i < 2 ^ k) (hj : j < 2 ^ k) (h : table.chain group i = table.chain group j) :
    i = j := by
  have hmod := congrArg UInt64.toNat h
  rw [toNat_chain hk hmask, toNat_chain hk hmask] at hmod
  have hsame : i % 2 ^ k = j % 2 ^ k := Nat.ModEq.add_left_cancel' _ hmod
  rwa [Nat.mod_eq_of_lt hi, Nat.mod_eq_of_lt hj] at hsame

theorem nodup_trail (hk : k ≤ 64) (hmask : table.mask = UInt64.ofNat (2 ^ k - 1))
    (group : GroupId) {steps : Nat} (hsteps : steps ≤ 2 ^ k) : (table.trail group steps).Nodup := by
  refine List.Nodup.map_on (fun i hi j hj hsame => ?_) List.nodup_range
  have hi := List.mem_range.1 hi
  have hj := List.mem_range.1 hj
  exact chain_inj hk hmask group (by omega) (by omega) hsame

/-- Every slot lies on the chain of every group. -/
theorem exists_chain_eq (hk : k ≤ 64) (hmask : table.mask = UInt64.ofNat (2 ^ k - 1))
    (group : GroupId) {index : UInt64} (hindex : index.toNat < 2 ^ k) :
    ∃ steps < 2 ^ k, table.chain group steps = index := by
  have hpos : 0 < 2 ^ k := Nat.two_pow_pos k
  have hhome : (table.home group).toNat < 2 ^ k := by
    rw [home, hmask, toNat_and_lowBits _ hk]
    exact Nat.mod_lt _ hpos
  refine ⟨(index.toNat + (2 ^ k - (table.home group).toNat)) % 2 ^ k, Nat.mod_lt _ hpos, ?_⟩
  apply UInt64.toNat_inj.1
  rw [toNat_chain hk hmask, Nat.add_mod_mod,
    show (table.home group).toNat + (index.toNat + (2 ^ k - (table.home group).toNat)) =
      index.toNat + 2 ^ k by omega,
    Nat.add_mod_right, Nat.mod_eq_of_lt hindex]

end Covering

/-! ## Slots and the list of rows -/

theorem Tidy.rows_size_le {table : GroupTable} (h : table.Tidy) : table.rows.size ≤ 2 ^ 64 := by
  obtain ⟨k, hk, hsize, -⟩ := h.shape
  rw [hsize]
  exact Nat.pow_le_pow_right (by decide) hk

theorem Tidy.row_ofNat {table : GroupTable} (h : table.Tidy) {i : Nat} (hi : i < table.rows.size) :
    table.row (.slot (UInt64.ofNat i)) = table.rows[i] := by
  have hlt : i < 2 ^ 64 := Nat.lt_of_lt_of_le hi h.rows_size_le
  simp only [row, UInt64.toNat_ofNat', Nat.mod_eq_of_lt hlt, Array.getD, hi, dif_pos]
  rfl

theorem row_mem_allRows {table : GroupTable} {place : RowPlace} (hholds : table.Holds place) :
    table.row place ∈ table.allRows := by
  cases place with
  | zero => exact List.mem_cons_self
  | slot index =>
      have hlt : index.toNat < table.rows.size := hholds
      simp [allRows, row, Array.getD, hlt]

theorem Tidy.toNat_ofNat {table : GroupTable} (h : table.Tidy) {i : Nat}
    (hi : i < table.rows.size) : (UInt64.ofNat i).toNat = i := by
  rw [UInt64.toNat_ofNat', Nat.mod_eq_of_lt (Nat.lt_of_lt_of_le hi h.rows_size_le)]

theorem Tidy.exists_slot {table : GroupTable} (h : table.Tidy) {row : GroupRow}
    (hrow : row ∈ table.rows.toList) :
    ∃ index : UInt64, index.toNat < table.rows.size ∧ table.row (.slot index) = row := by
  obtain ⟨i, hi, rfl⟩ := List.getElem_of_mem hrow
  rw [Array.length_toList] at hi
  refine ⟨UInt64.ofNat i, ?_, by rw [h.row_ofNat hi, Array.getElem_toList]⟩
  rw [h.toNat_ofNat hi]
  exact hi

theorem Tidy.exists_place {table : GroupTable} (h : table.Tidy) {row : GroupRow}
    (hrow : row ∈ table.allRows) : ∃ place, table.Holds place ∧ table.row place = row := by
  rcases List.mem_cons.1 hrow with rfl | hmem
  · exact ⟨.zero, trivial, rfl⟩
  · obtain ⟨index, hlt, hsame⟩ := h.exists_slot hmem
    exact ⟨.slot index, hlt, hsame⟩

/-- Putting a row changes the list of rows at one position. -/
theorem exists_allRows_split {table : GroupTable} {place : RowPlace}
    (hholds : table.Holds place) (new : GroupRow) :
    ∃ before after, table.allRows = before ++ table.row place :: after ∧
      (table.setRow place new).allRows = before ++ new :: after := by
  cases place with
  | zero => exact ⟨[], table.rows.toList, rfl, rfl⟩
  | slot index =>
      have hlt : index.toNat < table.rows.toList.length := by
        rw [Array.length_toList]
        exact hholds
      have hrow : table.row (.slot index) = table.rows.toList[index.toNat] := by
        rw [Array.length_toList] at hlt
        simp [row, Array.getD, hlt]
      refine ⟨table.zero :: table.rows.toList.take index.toNat,
        table.rows.toList.drop (index.toNat + 1), ?_, ?_⟩
      · rw [allRows, List.cons_append, hrow, List.getElem_cons_drop, List.take_append_drop]
      · rw [allRows, List.cons_append, setRow, modifyRow, Array.toList_modify,
          List.modify_eq_take_cons_drop hlt]

theorem mem_toList_iff {table : GroupTable} {group : GroupId} {counts : Counts} :
    (group, counts) ∈ table.toList ↔ ⟨group, .live, counts⟩ ∈ table.allRows := by
  simp only [toList, List.mem_map, List.mem_filter, decide_eq_true_eq, Prod.mk.injEq]
  constructor
  · rintro ⟨⟨_, _, _⟩, ⟨hmem, rfl⟩, rfl, rfl⟩
    exact hmem
  · exact fun hmem => ⟨_, ⟨hmem, rfl⟩, rfl, rfl⟩

/-! ## Searching a sound table -/

def keyedSlots (table : GroupTable) : Nat := table.rows.toList.countP (·.group ≠ 0)

theorem Tidy.zero_group {table : GroupTable} (h : table.Tidy) : table.zero.group = 0 := by
  rcases h.zero with hblank | ⟨hgroup, -⟩
  · rw [hblank]
  · exact hgroup

theorem Tidy.live_of_key {table : GroupTable} (h : table.Tidy) {index : UInt64} :
    (table.row (.slot index)).status = .live ↔ table.key index ≠ 0 := by
  constructor
  · intro hlive hzero
    rw [h.free index hzero] at hlive
    cases hlive
  · exact h.keyed index

namespace Sound

variable {table : GroupTable}

/-- The counter of admitted groups counts the keyed slots, and the row beside them. -/
theorem live_eq_keyedSlots (h : table.Sound) :
    table.live = table.keyedSlots + if table.zero.status = .live then 1 else 0 := by
  have hkeyed : table.rows.toList.countP (·.status = .live) = table.keyedSlots := by
    apply List.countP_congr
    intro row hrow
    obtain ⟨index, -, rfl⟩ := h.exists_slot hrow
    rw [decide_eq_true_iff, decide_eq_true_iff]
    exact h.live_of_key
  rw [h.live_eq, allRows, List.countP_cons, hkeyed]
  simp only [decide_eq_true_eq]

theorem two_mul_keyedSlots_le (h : table.Sound) : 2 * table.keyedSlots ≤ table.rows.size := by
  have hle : table.keyedSlots ≤ table.live := h.live_eq_keyedSlots ▸ Nat.le_add_right _ _
  have := h.live_le
  have := h.room
  omega

/-- Not every slot is keyed. -/
theorem exists_free (h : table.Sound) :
    ∃ index : UInt64, index.toNat < table.rows.size ∧ table.key index = 0 := by
  by_contra hnone
  have hall : ∀ row ∈ table.rows.toList, decide (row.group ≠ 0) = true := by
    intro row hrow
    obtain ⟨index, hlt, rfl⟩ := h.exists_slot hrow
    exact decide_eq_true fun hzero => hnone ⟨index, hlt, hzero⟩
  have hcount : table.keyedSlots = table.rows.size := by
    rw [keyedSlots, List.countP_eq_length.2 hall, Array.length_toList]
  have := h.two_mul_keyedSlots_le
  have := h.sized
  omega

/-- A search always ends within one round. -/
theorem exists_stops (h : table.Sound) (group : GroupId) :
    ∃ steps < table.rows.size, table.Stops group steps := by
  obtain ⟨k, hk, hsize, hmask⟩ := h.shape
  obtain ⟨index, hindex, hfree⟩ := h.exists_free
  rcases table.passes_or_stops group table.rows.size with hpass | hstop
  · obtain ⟨steps, hlt, rfl⟩ := exists_chain_eq hk hmask group (hsize ▸ hindex)
    exact absurd hfree (hpass steps (hsize ▸ hlt)).2
  · exact hstop

/-- A search for a group that has a slot ends there. -/
theorem stop_of_key (h : table.Sound) {group : GroupId} {index : UInt64} (hgroup : group ≠ 0)
    (hkey : table.key index = group) {steps : Nat} (hstop : table.Stops group steps) :
    table.chain group steps = index := by
  obtain ⟨far, hfar, hkeyed⟩ := h.linked index (hkey ▸ hgroup)
  rw [hkey] at hfar hkeyed
  have hle : steps ≤ far := by
    by_contra hlt
    exact (hstop.1 far (by omega)).1 (hfar ▸ hkey)
  have hnonzero : table.key (table.chain group steps) ≠ 0 := by
    rcases Nat.lt_or_eq_of_le hle with hlt | heq
    · exact hkeyed steps hlt
    · rw [heq, hfar, hkey]
      exact hgroup
  have hsame := hstop.2.resolve_right hnonzero
  exact h.distinct _ _ hnonzero (hsame.trans hkey.symm)

theorem find_eq_some (h : table.Sound) {group : GroupId} {index : UInt64} (hgroup : group ≠ 0)
    (hkey : table.key index = group) : table.find group = some (.slot index) := by
  obtain ⟨steps, hlt, hstop⟩ := h.exists_stops group
  have hchain := h.stop_of_key hgroup hkey hstop
  rw [find, if_neg hgroup, findFrom_of_stops hlt hstop, hchain, if_pos hkey]

theorem find_spec (h : table.Sound) {group : GroupId} {place : RowPlace}
    (hfind : table.find group = some place) :
    table.Holds place ∧ (table.row place).group = group := by
  by_cases hgroup : group = 0
  · subst hgroup
    cases hfind
    exact ⟨trivial, h.zero_group⟩
  · obtain ⟨steps, hlt, hstop⟩ := h.exists_stops group
    rw [find, if_neg hgroup, findFrom_of_stops hlt hstop] at hfind
    split at hfind
    · next hkey =>
        cases hfind
        exact ⟨h.chain_lt group steps, hkey⟩
    · cases hfind

/-- Looking a group up agrees with the listing. -/
theorem get?_eq_some_iff (h : table.Sound) {group : GroupId} {counts : Counts} :
    table.get? group = some counts ↔ (group, counts) ∈ table.toList := by
  rw [mem_toList_iff]
  constructor
  · intro hget
    obtain ⟨place, hfind, hrow⟩ := Option.bind_eq_some_iff.1 hget
    obtain ⟨hholds, hgroup⟩ := h.find_spec hfind
    split at hrow
    · next hlive =>
        have hsame : table.row place = ⟨group, .live, counts⟩ := by
          rw [← hgroup, ← hlive, ← Option.some.inj hrow]
        exact hsame ▸ row_mem_allRows hholds
    · cases hrow
  · intro hmem
    obtain ⟨place, -, hrow⟩ := h.exists_place hmem
    have hfind : table.find group = some place := by
      cases place with
      | zero =>
          have hzero := h.zero_group
          have hsame : table.zero.group = group := congrArg GroupRow.group hrow
          rw [find, if_pos (hsame.symm.trans hzero)]
      | slot index =>
          have hkey : table.key index = group := congrArg GroupRow.group hrow
          have hlive : (table.row (.slot index)).status = .live := congrArg GroupRow.status hrow
          exact h.find_eq_some (hkey ▸ h.live_of_key.1 hlive) hkey
    rw [get?, hfind, Option.bind_some, hrow, if_pos rfl]

theorem nodup_groups (h : table.Sound) : (table.toList.map Prod.fst).Nodup := by
  rw [toList, List.map_map, List.Nodup, List.pairwise_map, List.pairwise_filter,
    allRows, List.pairwise_cons]
  simp only [decide_eq_true_eq, Function.comp_apply]
  constructor
  · intro row hrow _ hlive hsame
    obtain ⟨index, -, rfl⟩ := h.exists_slot hrow
    exact h.live_of_key.1 hlive (hsame.symm.trans h.zero_group)
  · rw [List.pairwise_iff_getElem]
    intro i j hi hj hij hlive _ hsame
    rw [Array.length_toList] at hi hj
    rw [Array.getElem_toList, ← h.row_ofNat hi] at hlive hsame
    rw [Array.getElem_toList, ← h.row_ofNat hj] at hsame
    have heq := h.distinct _ _ (h.live_of_key.1 hlive) hsame
    have hnat := congrArg UInt64.toNat heq
    rw [h.toNat_ofNat hi, h.toNat_ofNat hj] at hnat
    omega

end Sound

end DentryWatch.GroupTable
