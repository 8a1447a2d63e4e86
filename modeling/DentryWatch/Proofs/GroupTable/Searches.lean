import Mathlib.Data.List.Perm.Subperm
import DentryWatch.Proofs.GroupTable.Admission

/-!
# How the searches of the group table end

Counting and looking up a group are told once more, each with the slots it looks
at and the exit it takes; the exit gives the answer of the search. In every table
that calls bring about the two look at the same slots, all but the last of them
keyed. Of the exits only three are ever taken: the row is live, or it is free and
admitted, or it is free and the table is full.
-/

namespace DentryWatch.GroupTable

/-! ## Exits -/

inductive RowExit where
  /-- The row of the group is live. -/
  | live (place : RowPlace)
  /-- The row of the group was rejected. -/
  | rejected (place : RowPlace)
  /-- The admission of the row of the group was waited for in vain. -/
  | undecided (place : RowPlace)
  /-- The row is free, and the table is full. -/
  | full (place : RowPlace)
  /-- The row was free, and it is taken and admitted. -/
  | admitted (place : RowPlace)
  /-- The row was free, and it is taken, but the room for it is gone. -/
  | overtaken (place : RowPlace)
  /-- Every slot was passed. -/
  | passedAll
deriving DecidableEq, Repr

def RowExit.answer : RowExit → Except Loss RowPlace
  | .live place | .admitted place => .ok place
  | .rejected _ | .undecided _ | .full _ | .overtaken _ | .passedAll => .error .tableExhausted

inductive FindExit where
  /-- The row is keyed to the group. -/
  | held (place : RowPlace)
  /-- The row is free. -/
  | free (place : RowPlace)
  /-- Every slot was passed. -/
  | passedAll
deriving DecidableEq, Repr

def FindExit.answer : FindExit → Option RowPlace
  | .held place => some place
  | .free _ | .passedAll => none

/-- How often the status of a row is looked at while its admission is waited for. -/
def patience : Nat := 256

/-- Looks at the status of a row, so often at most, until its admission is decided. -/
def await (table : GroupTable) (place : RowPlace) : Nat → RowExit
  | 0 => .undecided place
  | looks + 1 =>
      match (table.row place).status with
      | .live => .live place
      | .rejected => .rejected place
      | .pending | .claimed => table.await place looks

def settleExit (table : GroupTable) (place : RowPlace) : RowExit :=
  if table.live < table.capacity then .admitted place else .overtaken place

def zeroExit (table : GroupTable) : RowExit :=
  if table.zero.status ≠ .pending then table.await .zero patience
  else if table.isFull then .full .zero
  else (table.modifyRow .zero ({ · with status := .claimed })).settleExit .zero

def freeExit (table : GroupTable) (group : GroupId) (place : RowPlace) : RowExit :=
  if table.isFull then .full place
  else (table.modifyRow place ({ · with group })).settleExit place

/-! ## Searches as they go -/

/-- A search as it went: the slots that it looked at, and its exit. -/
structure Search (Exit : Type) where
  slots : List UInt64
  exit : Exit
deriving DecidableEq, Repr

/-- Where a search ended: at its last slot, or in the row beside the slots. -/
def Search.last {Exit : Type} (search : Search Exit) : RowPlace :=
  search.slots.getLast?.elim .zero .slot

/-- Another slot that was looked at before. -/
def Search.before {Exit : Type} (index : UInt64) (search : Search Exit) : Search Exit :=
  { search with slots := index :: search.slots }

/-- Searches for a group from a slot on over that many slots. -/
def searchFrom {Exit : Type} (table : GroupTable) (group : GroupId) (held free : RowPlace → Exit)
    (passedAll : Exit) : Nat → UInt64 → Search Exit
  | 0, _ => ⟨[], passedAll⟩
  | steps + 1, index =>
      if table.key index = group then ⟨[index], held (.slot index)⟩
      else if table.key index = 0 then ⟨[index], free (.slot index)⟩
      else (table.searchFrom group held free passedAll steps (table.next index)).before index

def rowSearch (table : GroupTable) (group : GroupId) : Search RowExit :=
  if group = 0 then ⟨[], table.zeroExit⟩
  else table.searchFrom group (table.await · patience) (table.freeExit group) .passedAll
    table.rows.size (table.home group)

def findSearch (table : GroupTable) (group : GroupId) : Search FindExit :=
  if group = 0 then ⟨[], .held .zero⟩
  else table.searchFrom group .held .free .passedAll table.rows.size (table.home group)

/-! ## The exits give the answers -/

theorem await_of_live {table : GroupTable} {place : RowPlace}
    (h : (table.row place).status = .live) (looks : Nat) :
    table.await place (looks + 1) = .live place := by
  simp only [await, h]

/-- Nobody else decides on a row while it is waited for. -/
theorem await_of_undecided {table : GroupTable} {place : RowPlace}
    (h : (table.row place).status = .pending ∨ (table.row place).status = .claimed) (looks : Nat) :
    table.await place looks = .undecided place := by
  induction looks with
  | zero => rfl
  | succ looks ih => rcases h with h | h <;> simp only [await, h, ih]

theorem answer_await (table : GroupTable) (place : RowPlace) (looks : Nat) :
    (table.await place (looks + 1)).answer = table.accept place := by
  cases h : (table.row place).status with
  | live => rw [await_of_live h, accept_of_live h, RowExit.answer]
  | rejected => simp only [await, accept, h, RowExit.answer]
  | pending =>
      rw [await_of_undecided (.inl h)]
      simp only [accept, h, RowExit.answer]
  | claimed =>
      rw [await_of_undecided (.inr h)]
      simp only [accept, h, RowExit.answer]

theorem answer_settleExit (table : GroupTable) (place : RowPlace) :
    (table.settleExit place).answer = (table.settle place).1 := by
  rw [settleExit, settle]
  split <;> rfl

theorem answer_rowSearchFrom (table : GroupTable) (group : GroupId) (bound : Nat)
    (index : UInt64) :
    (table.searchFrom group (table.await · patience) (table.freeExit group) .passedAll
      bound index).exit.answer = (table.rowFrom group bound index).1 := by
  induction bound generalizing index with
  | zero => rfl
  | succ bound ih =>
      rw [searchFrom, rowFrom]
      split
      · exact answer_await table (.slot index) _
      · split
        · rw [freeExit]
          split
          · rfl
          · exact answer_settleExit _ _
        · exact ih _

theorem answer_findSearchFrom (table : GroupTable) (group : GroupId) (bound : Nat)
    (index : UInt64) :
    (table.searchFrom group FindExit.held .free .passedAll bound index).exit.answer =
      table.findFrom group bound index := by
  induction bound generalizing index with
  | zero => rfl
  | succ bound ih =>
      rw [searchFrom, findFrom]
      split
      · rfl
      · split
        · rfl
        · exact ih _

theorem answer_rowSearch (table : GroupTable) (group : GroupId) :
    (table.rowSearch group).exit.answer = (table.rowFor group).1 := by
  rw [rowSearch, rowFor]
  split
  · rw [zeroExit, zeroRow]
    split
    · exact answer_await table .zero _
    · split
      · rfl
      · exact answer_settleExit _ _
  · exact answer_rowSearchFrom table group _ _

theorem answer_findSearch (table : GroupTable) (group : GroupId) :
    (table.findSearch group).exit.answer = table.find group := by
  rw [findSearch, find]
  split
  · rfl
  · exact answer_findSearchFrom table group _ _

/-! ## Rows that are free or live -/

/-- A row that is taken while there is room is admitted: nobody comes in between. -/
theorem settleExit_of_not_full {table : GroupTable} (h : ¬ table.isFull) (place : RowPlace)
    (change : GroupRow → GroupRow) :
    (table.modifyRow place change).settleExit place = .admitted place := by
  have hroom : table.live < table.capacity :=
    Nat.lt_of_not_le fun hle => h ((isFull_iff table).2 hle)
  rw [modifyRow_eq_setRow, settleExit, live_setRow, capacity_setRow, if_pos hroom]

theorem freeExit_eq (table : GroupTable) (group : GroupId) (place : RowPlace) :
    table.freeExit group place = if table.isFull then .full place else .admitted place := by
  rw [freeExit]
  by_cases hfull : table.isFull
  · rw [if_pos hfull, if_pos hfull]
  · rw [if_neg hfull, if_neg hfull, settleExit_of_not_full hfull]

theorem Tidy.zeroExit_eq {table : GroupTable} (h : table.Tidy) :
    table.zeroExit = if table.zero.status = .live then .live .zero
      else if table.isFull then .full .zero else .admitted .zero := by
  rcases h.zero with hblank | ⟨-, hlive⟩
  · have hpending : table.zero.status = .pending := congrArg GroupRow.status hblank
    have hlive : table.zero.status ≠ .live := by simp [hpending]
    rw [zeroExit, if_neg (not_not_intro hpending), if_neg hlive]
    by_cases hfull : table.isFull
    · rw [if_pos hfull, if_pos hfull]
    · rw [if_neg hfull, if_neg hfull, settleExit_of_not_full hfull]
  · have hrow : (table.row .zero).status = .live := hlive
    rw [zeroExit, if_pos (by simp [hlive]), if_pos hlive]
    exact await_of_live hrow _

theorem Tidy.live_or_pending {table : GroupTable} (h : table.Tidy) (place : RowPlace) :
    (table.row place).status = .live ∨ (table.row place).status = .pending := by
  cases place with
  | zero =>
      rcases h.zero with hblank | ⟨-, hlive⟩
      · exact .inr (congrArg GroupRow.status hblank)
      · exact .inl hlive
  | slot index =>
      by_cases hkey : table.key index = 0
      · exact .inr (congrArg GroupRow.status (h.free index hkey))
      · exact .inl (h.keyed index hkey)

/-! ## Where searches stop -/

section Stopping

variable {Exit : Type} {table : GroupTable} {group : GroupId} {steps bound : Nat}

theorem foldr_before (slots : List UInt64) (search : Search Exit) :
    slots.foldr Search.before search = ⟨slots ++ search.slots, search.exit⟩ := by
  induction slots with
  | nil => rfl
  | cons index slots ih =>
      rw [List.foldr_cons, ih]
      rfl

/-- A search that stops has looked at the chain of its group up to there. -/
theorem searchFrom_of_stops (held free : RowPlace → Exit) (passedAll : Exit)
    (hbound : steps < bound) (hstop : table.Stops group steps) :
    table.searchFrom group held free passedAll bound (table.home group) =
      ⟨table.trail group (steps + 1),
        if table.key (table.chain group steps) = group then held (.slot (table.chain group steps))
        else free (.slot (table.chain group steps))⟩ := by
  obtain ⟨more, rfl⟩ : ∃ more, bound = steps + (more + 1) := ⟨bound - steps - 1, by omega⟩
  have hpass : ∀ steps index, table.key index ≠ group → table.key index ≠ 0 →
      table.searchFrom group held free passedAll (steps + 1) index =
        (table.searchFrom group held free passedAll steps (table.next index)).before index := by
    intro steps index hgroup hzero
    rw [searchFrom, if_neg hgroup, if_neg hzero]
  rw [walk_of_passes Search.before hpass hstop.1, foldr_before, searchFrom, trail_succ]
  by_cases hgroup : table.key (table.chain group steps) = group
  · rw [if_pos hgroup, if_pos hgroup]
  · rw [if_neg hgroup, if_neg hgroup, if_pos (hstop.2.resolve_left hgroup)]

theorem last_trail (exit : Exit) :
    Search.last ⟨table.trail group (steps + 1), exit⟩ = .slot (table.chain group steps) := by
  rw [Search.last, trail_succ, List.getLast?_concat]
  rfl

end Stopping

namespace Sound

variable {table : GroupTable} {group : GroupId} {steps : Nat}

/-- The slots that a search passes within one round are keyed, and no two of them are the same. -/
theorem le_keyedSlots_of_passes (h : table.Sound) (hsteps : steps ≤ table.rows.size)
    (hpass : table.Passes group steps) : steps ≤ table.keyedSlots := by
  obtain ⟨k, hk, hsize, hmask⟩ := h.shape
  have hkeyed : ∀ index ∈ table.trail group steps, table.key index ≠ 0 := by
    intro index hindex
    obtain ⟨s, hs, rfl⟩ := List.mem_map.1 hindex
    exact (hpass s (List.mem_range.1 hs)).2
  have hnodup : ((table.trail group steps).map fun index => table.row (.slot index)).Nodup :=
    (nodup_trail hk hmask group (hsize ▸ hsteps)).map_on fun i hi j _ hrow =>
      h.distinct i j (hkeyed i hi) (congrArg GroupRow.group hrow)
  have hsubset : ((table.trail group steps).map fun index => table.row (.slot index)) ⊆
      table.rows.toList.filter (·.group ≠ 0) := by
    intro row hrow
    obtain ⟨index, hindex, rfl⟩ := List.mem_map.1 hrow
    refine List.mem_filter.2 ⟨?_, decide_eq_true (hkeyed index hindex)⟩
    obtain ⟨s, -, rfl⟩ := List.mem_map.1 hindex
    have hlt := h.chain_lt group s
    simp [row, Array.getD, hlt]
  have hle := (List.subperm_of_subset hnodup hsubset).length_le
  rwa [List.length_map, length_trail, ← List.countP_eq_length_filter] at hle

theorem exists_stops_within (h : table.Sound) (group : GroupId) :
    ∃ steps < table.rows.size, steps ≤ table.keyedSlots ∧ table.Stops group steps := by
  obtain ⟨steps, hlt, hstop⟩ := h.exists_stops group
  exact ⟨steps, hlt, h.le_keyedSlots_of_passes (Nat.le_of_lt hlt) hstop.1, hstop⟩

/-- One slot more than are keyed is enough for either search. -/
theorem searches_within (h : table.Sound) (group : GroupId) {bound : Nat}
    (hbound : table.keyedSlots < bound) :
    table.rowFrom group bound (table.home group) =
        table.rowFrom group table.rows.size (table.home group) ∧
      table.findFrom group bound (table.home group) =
        table.findFrom group table.rows.size (table.home group) := by
  obtain ⟨steps, hlt, hle, hstop⟩ := h.exists_stops_within group
  have hwithin : steps < bound := Nat.lt_of_le_of_lt hle hbound
  rw [rowFrom_of_stops hwithin hstop, rowFrom_of_stops hlt hstop,
    findFrom_of_stops hwithin hstop, findFrom_of_stops hlt hstop]
  exact ⟨rfl, rfl⟩

/-- Both searches end at the same place, and what is there decides on their exits. -/
theorem searches_end (h : table.Sound) (group : GroupId) :
    let counting := table.rowSearch group
    let finding := table.findSearch group
    let place := finding.last
    counting.slots = finding.slots ∧ finding.slots.length ≤ table.keyedSlots + 1 ∧
      finding.exit = (if (table.row place).group = group then .held place else .free place) ∧
      counting.exit = (if (table.row place).status = .live then .live place
        else if table.isFull then .full place else .admitted place) := by
  intro counting finding place
  by_cases hgroup : group = 0
  · subst hgroup
    exact ⟨rfl, Nat.zero_le _, (if_pos h.zero_group).symm, h.toTidy.zeroExit_eq⟩
  · obtain ⟨steps, hlt, hle, hstop⟩ := h.exists_stops_within group
    have hcounting : counting = _ :=
      (if_neg hgroup).trans (searchFrom_of_stops (table.await · patience) (table.freeExit group)
        .passedAll hlt hstop)
    have hfinding : finding = _ :=
      (if_neg hgroup).trans (searchFrom_of_stops FindExit.held .free .passedAll hlt hstop)
    have hplace : place = .slot (table.chain group steps) :=
      (congrArg Search.last hfinding).trans (last_trail _)
    rw [hplace, hcounting, hfinding]
    refine ⟨rfl, ?_, rfl, ?_⟩
    · rw [length_trail]
      exact Nat.succ_le_succ hle
    · -- the slot holds the group and is live, or it is free and blank
      by_cases hkey : table.key (table.chain group steps) = group
      · have hlive := h.keyed _ (hkey ▸ hgroup)
        rw [if_pos hkey, if_pos hlive]
        exact await_of_live hlive _
      · have hblank := h.free _ (hstop.2.resolve_left hkey)
        have hnot : (table.row (.slot (table.chain group steps))).status ≠ .live := by
          simp [hblank]
        rw [if_neg hkey, if_neg hnot, freeExit_eq]

end Sound

/-- Whatever was counted, keyed slots are linked to their home slots and at most half of the slots
are keyed. Counting and looking up a group therefore stop at the same place, after one slot more
than are keyed at most, and neither passes all slots, waits for an admission or meets a rejection. -/
theorem tallyAll_chains_connected {capacity : Nat} (hcapacity : capacity ≤ 2 ^ 62)
    (calls : List Call) :
    let table := ((ofCapacity capacity).tallyAll calls).2
    (∀ i j, table.key i ≠ 0 → table.key i = table.key j → i = j) ∧
    (∀ i, table.key i ≠ 0 → (table.row (.slot i)).status = .live ∧
      ∃ steps, table.chain (table.key i) steps = i ∧
        ∀ s ≤ steps, table.key (table.chain (table.key i) s) ≠ 0) ∧
    table.live = table.keyedSlots + (if table.zero.status = .live then 1 else 0) ∧
    2 * table.keyedSlots ≤ table.rows.size ∧
    (∀ place, (table.row place).status = .live ∨ (table.row place).status = .pending) ∧
    (∀ group bound, table.keyedSlots < bound →
      table.rowFrom group bound (table.home group) =
          table.rowFrom group table.rows.size (table.home group) ∧
        table.findFrom group bound (table.home group) =
          table.findFrom group table.rows.size (table.home group)) ∧
    ∀ group,
      let counting := table.rowSearch group
      let finding := table.findSearch group
      let place := finding.last
      counting.exit.answer = (table.rowFor group).1 ∧ finding.exit.answer = table.find group ∧
      counting.slots = finding.slots ∧ finding.slots.length ≤ table.keyedSlots + 1 ∧
      finding.exit = (if (table.row place).group = group then .held place else .free place) ∧
      counting.exit = (if (table.row place).status = .live then .live place
        else if table.isFull then .full place else .admitted place) := by
  intro table
  have hsound : table.Sound := ((shows_ofCapacity hcapacity).tallyAll calls).1.sound
  refine ⟨hsound.distinct, fun i hi => ⟨hsound.keyed i hi, ?_⟩, hsound.live_eq_keyedSlots,
    hsound.two_mul_keyedSlots_le, hsound.toTidy.live_or_pending,
    fun group bound hbound => hsound.searches_within group hbound, fun group =>
      ⟨answer_rowSearch table group, answer_findSearch table group, hsound.searches_end group⟩⟩
  obtain ⟨steps, hchain, hkeyed⟩ := hsound.linked i hi
  refine ⟨steps, hchain, fun s hs => ?_⟩
  rcases Nat.lt_or_eq_of_le hs with hlt | rfl
  · exact hkeyed s hlt
  · rwa [hchain]

/-- Three groups whose chains begin at the last slot, two of them counted: the search for the third
passes both, across the end of the slots, and finds the table full. -/
theorem tallyAll_chains_connected_wrapped :
    3 ≤ 2 ^ 62 ∧
      let table := ((ofCapacity 3).tallyAll [(9, .alloc), (0, .alloc), (19, .positive)]).2
      table.keyedSlots = 2 ∧ (table.findSearch 33).slots = [7, 0, 1] ∧
        (table.rowSearch 33).slots = [7, 0, 1] ∧ (table.rowSearch 33).exit = .full (.slot 1) ∧
        (table.rowFor 33).1 = .error .tableExhausted ∧ table.find 33 = none := by
  obtain ⟨-, -, -, -, -, -, hsearches⟩ := tallyAll_chains_connected (show 3 ≤ 2 ^ 62 by decide)
    [(9, .alloc), (0, .alloc), (19, .positive)]
  obtain ⟨hrow, hfind, hslots, -, hfinding, hcounting⟩ := hsearches 33
  have hpath : (((ofCapacity 3).tallyAll
      [(9, .alloc), (0, .alloc), (19, .positive)]).2.findSearch 33).slots = [7, 0, 1] := by
    decide +kernel
  have hlast : (((ofCapacity 3).tallyAll
      [(9, .alloc), (0, .alloc), (19, .positive)]).2.findSearch 33).last = .slot 1 := by
    rw [Search.last, hpath]
    rfl
  rw [hlast] at hfinding hcounting
  rw [if_neg (by decide +kernel)] at hfinding
  rw [if_neg (by decide +kernel), if_pos (by decide +kernel)] at hcounting
  rw [hcounting] at hrow
  rw [hfinding] at hfind
  exact ⟨by decide, by decide +kernel, hpath, hslots.trans hpath, hcounting, hrow.symm, hfind.symm⟩

end DentryWatch.GroupTable
