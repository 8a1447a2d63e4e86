import Mathlib.Data.Finset.Card
import Mathlib.Data.Finset.Dedup
import DentryWatch.Proofs.GroupTable.Preservation

/-!
# The group table is a bounded first-come map

Operations are counted one after another in a fresh table. The table then shows
exactly the accepted calls: the groups they name, first come, first served up to
the capacity, and for each of them how often each operation was accepted.
-/

namespace DentryWatch.GroupTable

abbrev Call := GroupId × Operation

/-- Counts the calls one after another, and says which of them were accepted. -/
def tallyAll (table : GroupTable) : List Call → List Call × GroupTable
  | [] => ([], table)
  | call :: rest =>
      match table.tally call.1 call.2 with
      | (.ok (), table) =>
          let (accepted, table) := table.tallyAll rest
          (call :: accepted, table)
      | (.error _, table) => table.tallyAll rest

theorem tallyAll_cons_of_ok {table : GroupTable} {group : GroupId} {op : Operation}
    (h : (table.tally group op).1 = .ok ()) (rest : List Call) :
    table.tallyAll ((group, op) :: rest) =
      ((group, op) :: ((table.tally group op).2.tallyAll rest).1,
        ((table.tally group op).2.tallyAll rest).2) := by
  have htally : table.tally group op = (.ok (), (table.tally group op).2) := Prod.ext h rfl
  rw [tallyAll, htally]

theorem tallyAll_cons_of_error {table : GroupTable} {group : GroupId} {op : Operation} {loss : Loss}
    (h : table.tally group op = (.error loss, table)) (rest : List Call) :
    table.tallyAll ((group, op) :: rest) = table.tallyAll rest := by
  rw [tallyAll, h]

def groupsOf (calls : List Call) : Finset GroupId := (calls.map Prod.fst).toFinset

/-- How often the calls name a group with each operation, modulo the size of a word. -/
def countsOf (calls : List Call) (group : GroupId) : Counts where
  alloc := UInt64.ofNat (calls.count (group, .alloc))
  positive := UInt64.ofNat (calls.count (group, .positive))
  negative := UInt64.ofNat (calls.count (group, .negative))

theorem groupsOf_concat (calls : List Call) (call : Call) :
    groupsOf (calls ++ [call]) = insert call.1 (groupsOf calls) := by
  ext group
  simp [groupsOf]

theorem countsOf_concat (calls : List Call) (group other : GroupId) (op : Operation) :
    countsOf (calls ++ [(group, op)]) other =
      if other = group then (countsOf calls other).bump op else countsOf calls other := by
  by_cases h : other = group
  · subst h
    cases op <;> simp [countsOf, Counts.bump, List.count_append, UInt64.ofNat_add]
  · have hne : ∀ what, (group, op) ≠ (other, what) := fun _ heq => h (congrArg Prod.fst heq).symm
    simp [countsOf, List.count_append, hne, h]

theorem countsOf_eq_default {calls : List Call} {group : GroupId} (h : group ∉ groupsOf calls) :
    countsOf calls group = {} := by
  have hcount : ∀ op, calls.count (group, op) = 0 := by
    intro op
    rw [List.count_eq_zero]
    intro hmem
    exact h (List.mem_toFinset.2 (List.mem_map_of_mem hmem))
  simp [countsOf, hcount]

/-! ## Fresh tables -/

theorem exists_slotCount (capacity : Nat) : ∃ k ≤ 64, slotCount capacity = 2 ^ k := by
  have hsize : UInt64.size = 2 ^ 64 := rfl
  have hle : max (min (2 * capacity) (UInt64.size - 1)) 2 ≤ 2 ^ 64 := by omega
  obtain ⟨k, -, hk, hceil⟩ := exists_ceilPow2_eq_of_le (Nat.le_max_right _ _) hle
  exact ⟨k, hk, hceil⟩

theorem slotCount_bounds {capacity : Nat} (h : capacity ≤ 2 ^ 62) :
    2 ≤ slotCount capacity ∧ 2 * capacity ≤ slotCount capacity := by
  have hsize : UInt64.size = 2 ^ 64 := rfl
  have hle : max (min (2 * capacity) (UInt64.size - 1)) 2 ≤ 2 ^ 63 := by omega
  have hge := le_ceilPow2 (max (min (2 * capacity) (UInt64.size - 1)) 2)
  rw [slotCount]
  omega

theorem tidy_ofCapacity (capacity : Nat) : (ofCapacity capacity).Tidy := by
  have hrow : ∀ index, (ofCapacity capacity).row (.slot index) = {} := by
    intro index
    simp only [row, ofCapacity, Array.getD_eq_getD_getElem?, Array.getElem?_replicate]
    split <;> rfl
  constructor
  · obtain ⟨k, hk, hslots⟩ := exists_slotCount capacity
    refine ⟨k, hk, (rows_size_ofCapacity capacity).trans hslots, ?_⟩
    rw [ofCapacity, hslots]
    exact (UInt64.ofNat_sub Nat.one_le_two_pow).symm
  · intro index hkey
    rw [key, hrow] at hkey
    exact absurd rfl hkey
  · exact fun index _ => hrow index
  · exact .inl rfl

theorem sound_ofCapacity {capacity : Nat} (h : capacity ≤ 2 ^ 62) :
    (ofCapacity capacity).Sound := by
  obtain ⟨hsized, hroom⟩ := slotCount_bounds h
  have hkey : ∀ index, (ofCapacity capacity).key index = 0 := by
    intro index
    simp only [key, row, ofCapacity, Array.getD_eq_getD_getElem?, Array.getElem?_replicate]
    split <;> rfl
  refine ⟨tidy_ofCapacity capacity, ?_, ?_, ?_, ?_, ?_, Nat.zero_le _⟩
  · rw [rows_size_ofCapacity]
    exact hsized
  · rw [rows_size_ofCapacity]
    exact hroom
  · exact fun i _ hi => absurd (hkey i) hi
  · exact fun i hi => absurd (hkey i) hi
  · simp [ofCapacity, allRows, List.countP_replicate]

/-! ## One call -/

/-- The listing after a live row was put where its group belongs. -/
theorem mem_toList_setRow {table : GroupTable} {place : RowPlace}
    (hholds : table.Holds place) (row : GroupRow) (hlive : row.status = .live)
    (hold : table.row place = {} ∨ (table.row place).group = row.group)
    (hnodup : ((table.setRow place row).toList.map Prod.fst).Nodup)
    (group : GroupId) (counts : Counts) :
    (group, counts) ∈ (table.setRow place row).toList ↔
      if group = row.group then counts = row.counts else (group, counts) ∈ table.toList := by
  obtain ⟨before, after, hsplit, hsplit'⟩ := exists_allRows_split hholds row
  have hrow : (row.group, row.counts) ∈ (table.setRow place row).toList := by
    rw [mem_toList_iff, hsplit', ← hlive]
    simp
  by_cases hgroup : group = row.group
  · rw [if_pos hgroup]
    constructor
    · intro hmem
      have heq := List.inj_on_of_nodup_map hnodup hmem hrow hgroup
      exact congrArg Prod.snd heq
    · rintro rfl
      exact hgroup ▸ hrow
  · have hne : (⟨group, .live, counts⟩ : GroupRow) ≠ row :=
      fun heq => hgroup (congrArg GroupRow.group heq)
    have hne' : (⟨group, .live, counts⟩ : GroupRow) ≠ table.row place := by
      intro heq
      rcases hold with hblank | hsame
      · rw [hblank] at heq
        exact nomatch congrArg GroupRow.status heq
      · exact hgroup ((congrArg GroupRow.group heq).trans hsame)
    rw [if_neg hgroup, mem_toList_iff, mem_toList_iff, hsplit, hsplit']
    simp [hne, hne']

/-- The table shows exactly the accepted calls. -/
structure Shows (table : GroupTable) (accepted : List Call) : Prop where
  sound : table.Sound
  listed : ∀ group counts, (group, counts) ∈ table.toList ↔
    group ∈ groupsOf accepted ∧ counts = countsOf accepted group
  live_eq : table.live = (groupsOf accepted).card

theorem shows_ofCapacity {capacity : Nat} (h : capacity ≤ 2 ^ 62) :
    (ofCapacity capacity).Shows [] where
  sound := sound_ofCapacity h
  listed group counts := by
    rw [mem_toList_iff]
    simp [allRows, ofCapacity, groupsOf]
  live_eq := rfl

theorem Shows.mem_of_reached {table : GroupTable} {accepted : List Call} {place : RowPlace}
    (h : table.Shows accepted) (hholds : table.Holds place)
    (hlive : (table.row place).status = .live) :
    (table.row place).group ∈ groupsOf accepted ∧
      (table.row place).counts = countsOf accepted (table.row place).group := by
  rw [← h.listed, mem_toList_iff, ← hlive]
  exact row_mem_allRows hholds

/-- The search for a group that was never accepted ends at a blank row. -/
theorem Shows.not_mem_of_blank {table : GroupTable} {accepted : List Call} {group : GroupId}
    {place : RowPlace} (h : table.Shows accepted) (hreach : table.Reaches group place)
    (hblank : table.row place = {}) : group ∉ groupsOf accepted := by
  intro hmem
  have hlisted := (h.listed group _).2 ⟨hmem, rfl⟩
  obtain ⟨other, -, hother⟩ := h.sound.exists_place (mem_toList_iff.1 hlisted)
  have hsame : other = place := by
    cases other with
    | zero =>
        have hzero := (congrArg GroupRow.group hother).symm.trans h.sound.zero_group
        exact (hreach.zero_iff.2 hzero).symm
    | slot index =>
        have hkey : table.key index = group := congrArg GroupRow.group hother
        have hlive := h.sound.live_of_key.1 (congrArg GroupRow.status hother)
        exact h.sound.slot_eq_of_key hreach (hkey ▸ hlive) hkey
  rw [hsame, hblank] at hother
  exact nomatch congrArg GroupRow.status hother

theorem Shows.found {table : GroupTable} {accepted : List Call} {group : GroupId}
    {place : RowPlace} (h : table.Shows accepted) (op : Operation)
    (hreach : table.Reaches group place) (hgroup : (table.row place).group = group)
    (hlive : (table.row place).status = .live) :
    (table.setRow place ((table.row place).bump op)).Shows (accepted ++ [(group, op)]) := by
  have hsound := h.sound.found ((table.row place).bump op) hreach hgroup hlive hlive
  have hholds := h.sound.holds_of_reaches hreach
  obtain ⟨hmem, hcounts⟩ := h.mem_of_reached hholds hlive
  rw [hgroup] at hmem hcounts
  refine ⟨hsound, fun other counts => ?_, ?_⟩
  · rw [mem_toList_setRow hholds ((table.row place).bump op) hlive (.inr rfl)
      hsound.nodup_groups, groupsOf_concat, countsOf_concat, h.listed]
    by_cases hother : other = group
    · subst hother
      simp [GroupRow.bump, hgroup, hcounts]
    · simp [GroupRow.bump, hgroup, hother]
  · rw [live_setRow, h.live_eq, groupsOf_concat, Finset.insert_eq_of_mem hmem]

theorem Shows.taken {table : GroupTable} {accepted : List Call} {group : GroupId}
    {place : RowPlace} (h : table.Shows accepted) (op : Operation)
    (hreach : table.Reaches group place) (hblank : table.row place = {})
    (hroom : table.live < table.capacity) :
    (table.setRow place (GroupRow.bump { group, status := .live } op)).grow.Shows
      (accepted ++ [(group, op)]) := by
  have hsound := h.sound.taken (GroupRow.bump { group, status := .live } op) hreach rfl hblank
    rfl hroom
  have hholds := h.sound.holds_of_reaches hreach
  have hnew := h.not_mem_of_blank hreach hblank
  refine ⟨hsound, fun other counts => ?_, ?_⟩
  · have hiff := mem_toList_setRow hholds (GroupRow.bump { group, status := .live } op) rfl
      (.inl hblank) hsound.nodup_groups other counts
    refine Iff.trans hiff ?_
    rw [groupsOf_concat, countsOf_concat, h.listed]
    by_cases hother : other = group
    · subst hother
      simp [GroupRow.bump, countsOf_eq_default hnew]
    · simp [GroupRow.bump, hother]
  · show (table.setRow place _).live + 1 = _
    rw [live_setRow, h.live_eq, groupsOf_concat, Finset.card_insert_of_notMem hnew]

/-- What a call answers, and what the table shows after it. -/
theorem Shows.tally {table : GroupTable} {accepted : List Call} (h : table.Shows accepted)
    (group : GroupId) (op : Operation) :
    if group ∈ groupsOf accepted ∨ (groupsOf accepted).card < table.capacity then
      (table.tally group op).1 = .ok () ∧
        (table.tally group op).2.Shows (accepted ++ [(group, op)])
    else table.tally group op = (.error .tableExhausted, table) := by
  have htallied := h.sound.toTidy.tallied group op
  generalize table.tally group op = result at htallied
  cases htallied with
  | found place reach group_eq live =>
      have hmem := (h.mem_of_reached (h.sound.holds_of_reaches reach) live).1
      rw [if_pos (.inl (group_eq ▸ hmem))]
      exact ⟨rfl, h.found op reach group_eq live⟩
  | taken place reach blank room =>
      rw [if_pos (.inr (h.live_eq ▸ room))]
      exact ⟨rfl, h.taken op reach blank room⟩
  | full place reach blank full =>
      have hnew := h.not_mem_of_blank reach blank
      have hfull := h.live_eq ▸ full
      rw [if_neg (by rintro (hmem | hlt); exacts [hnew hmem, Nat.not_lt.2 hfull hlt])]
  | exhausted key_ne pass =>
      obtain ⟨steps, hlt, hstop⟩ := h.sound.exists_stops group
      obtain ⟨hgroup, hzero⟩ := pass steps hlt
      exact absurd hstop.2 (by rintro (heq | heq); exacts [hgroup heq, hzero heq])

/-! ## Runs -/

theorem tally_capacity {table : GroupTable} (h : table.Tidy) (group : GroupId) (op : Operation) :
    (table.tally group op).2.capacity = table.capacity := by
  have htallied := h.tallied group op
  generalize table.tally group op = result at htallied
  cases htallied with
  | found place reach group_eq live => exact capacity_setRow _ _ _
  | taken place reach blank room => exact capacity_setRow _ _ _
  | full place reach blank full => rfl
  | exhausted key_ne pass => rfl

theorem Shows.tallyAll {table : GroupTable} {before : List Call} (h : table.Shows before)
    (calls : List Call) :
    (table.tallyAll calls).2.Shows (before ++ (table.tallyAll calls).1) ∧
      (table.tallyAll calls).2.capacity = table.capacity := by
  induction calls generalizing table before with
  | nil => exact ⟨by simpa [GroupTable.tallyAll] using h, rfl⟩
  | cons call rest ih =>
      obtain ⟨group, op⟩ := call
      have hcapacity := tally_capacity h.sound.toTidy group op
      have hstep := h.tally group op
      split at hstep
      · obtain ⟨hok, hshows⟩ := hstep
        obtain ⟨hrest, hrest'⟩ := ih hshows
        rw [tallyAll_cons_of_ok hok]
        exact ⟨by simpa using hrest, hrest'.trans hcapacity⟩
      · rw [tallyAll_cons_of_error hstep]
        exact ih h

/-- A fresh table admits the groups of its calls first come, first served, and counts for each
what was accepted; what it refuses leaves it as it was. -/
theorem tallyAll_first_come {capacity : Nat} (hcapacity : capacity ≤ 2 ^ 62) (calls : List Call) :
    let accepted := ((ofCapacity capacity).tallyAll calls).1
    let table := ((ofCapacity capacity).tallyAll calls).2
    (∀ group op,
      if group ∈ groupsOf accepted ∨ (groupsOf accepted).card < capacity then
        (table.tally group op).1 = .ok ()
      else table.tally group op = (.error .tableExhausted, table)) ∧
    (∀ group, table.get? group =
      if group ∈ groupsOf accepted then some (countsOf accepted group) else none) ∧
    table.live = (groupsOf accepted).card ∧ table.live ≤ capacity ∧
    (table.toList.map Prod.fst).Nodup ∧
    (∀ group counts, (group, counts) ∈ table.toList ↔ table.get? group = some counts) := by
  intro accepted table
  obtain ⟨hrun, hcap⟩ := (shows_ofCapacity hcapacity).tallyAll calls
  have hshows : table.Shows accepted := by rwa [List.nil_append] at hrun
  have hcap : table.capacity = capacity := hcap
  refine ⟨fun group op => ?_, fun group => ?_, hshows.live_eq, hcap ▸ hshows.sound.live_le,
    hshows.sound.nodup_groups, fun group counts => hshows.sound.get?_eq_some_iff.symm⟩
  · have hstep := hshows.tally group op
    rw [hcap] at hstep
    split at hstep
    · next hcond => exact (if_pos hcond).symm ▸ hstep.1
    · next hcond => exact (if_neg hcond).symm ▸ hstep
  · by_cases hmem : group ∈ groupsOf accepted
    · rw [if_pos hmem, hshows.sound.get?_eq_some_iff, hshows.listed]
      exact ⟨hmem, rfl⟩
    · rw [if_neg hmem, Option.eq_none_iff_forall_ne_some]
      intro counts hget
      exact hmem ((hshows.listed group counts).1 (hshows.sound.get?_eq_some_iff.1 hget)).1

/-- With room for two groups, `0` and the largest one are admitted and a third is refused. -/
theorem tallyAll_first_come_two :
    2 ≤ 2 ^ 62 ∧
      let table := ((ofCapacity 2).tallyAll
        [(0, .alloc), (0xffffffffffffffff, .positive), (5, .alloc), (0, .negative)]).2
      table.tally 5 .alloc = (.error .tableExhausted, table) ∧
        table.get? 0 = some { alloc := 1, negative := 1 } ∧ table.get? 5 = none := by
  have hrun := tallyAll_first_come (show 2 ≤ 2 ^ 62 by decide)
    [(0, .alloc), (0xffffffffffffffff, .positive), (5, .alloc), (0, .negative)]
  have haccepted : ((ofCapacity 2).tallyAll
      [(0, .alloc), (0xffffffffffffffff, .positive), (5, .alloc), (0, .negative)]).1 =
      [(0, .alloc), (0xffffffffffffffff, .positive), (0, .negative)] := by decide +kernel
  simp only [haccepted] at hrun
  obtain ⟨htally, hget, -⟩ := hrun
  refine ⟨by decide, ?_, ?_, ?_⟩
  · have hfull := htally 5 .alloc
    rwa [if_neg (by decide)] at hfull
  · rw [hget, if_pos (by decide)]
    decide
  · rw [hget, if_neg (by decide)]

end DentryWatch.GroupTable
