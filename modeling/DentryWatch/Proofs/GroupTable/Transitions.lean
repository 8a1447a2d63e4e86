import DentryWatch.Proofs.GroupTable.Chains

/-!
# What one call does to the group table

In a tidy table every keyed slot is live, every free slot is blank, and the mask
chooses a slot. A counted operation then does one of three things: it counts in
the row its search reaches, it takes the blank row its search reaches, or it
leaves the table as it is.
-/

namespace DentryWatch.GroupTable

/-! ## Rows and places -/

def setRow (table : GroupTable) (place : RowPlace) (row : GroupRow) : GroupTable :=
  table.modifyRow place fun _ => row

def Holds (table : GroupTable) : RowPlace → Prop
  | .zero => True
  | .slot index => index.toNat < table.rows.size

theorem modifyRow_eq_setRow (table : GroupTable) (place : RowPlace)
    (change : GroupRow → GroupRow) :
    table.modifyRow place change = table.setRow place (change (table.row place)) := by
  cases place with
  | zero => rfl
  | slot index =>
      simp only [setRow, modifyRow, row, GroupTable.mk.injEq, true_and, and_true]
      apply Array.ext
      · simp
      · intro i hi _
        rw [Array.getElem_modify, Array.getElem_modify]
        split
        · next h =>
            subst h
            rw [Array.size_modify] at hi
            simp [Array.getD, hi]
        · rfl

theorem setRow_setRow (table : GroupTable) (place : RowPlace) (first second : GroupRow) :
    (table.setRow place first).setRow place second = table.setRow place second := by
  cases place with
  | zero => rfl
  | slot index =>
      simp only [setRow, modifyRow, GroupTable.mk.injEq, true_and, and_true]
      apply Array.ext
      · simp
      · intro i _ _
        simp only [Array.getElem_modify]
        split <;> rfl

theorem row_setRow {table : GroupTable} {place : RowPlace} (hholds : table.Holds place)
    (other : RowPlace) (row : GroupRow) :
    (table.setRow place row).row other = if other = place then row else table.row other := by
  cases place with
  | zero => cases other <;> simp [setRow, modifyRow, GroupTable.row]
  | slot index =>
      cases other with
      | zero => simp [setRow, modifyRow, GroupTable.row]
      | slot other =>
          have hlt : index.toNat < table.rows.size := hholds
          simp only [setRow, modifyRow, GroupTable.row, Array.getD_eq_getD_getElem?,
            Array.getElem?_modify, UInt64.toNat_inj, RowPlace.slot.injEq]
          by_cases h : index = other
          · subst h
            simp [hlt]
          · rw [if_neg h, if_neg (Ne.symm h)]

theorem row_grow (table : GroupTable) (place : RowPlace) :
    table.grow.row place = table.row place := by
  cases place <;> rfl

theorem setRow_grow (table : GroupTable) (place : RowPlace) (row : GroupRow) :
    table.grow.setRow place row = (table.setRow place row).grow := by
  cases place <;> rfl

@[simp] theorem capacity_setRow (table : GroupTable) (place : RowPlace) (row : GroupRow) :
    (table.setRow place row).capacity = table.capacity := by
  cases place <;> rfl

@[simp] theorem live_setRow (table : GroupTable) (place : RowPlace) (row : GroupRow) :
    (table.setRow place row).live = table.live := by
  cases place <;> rfl

@[simp] theorem mask_setRow (table : GroupTable) (place : RowPlace) (row : GroupRow) :
    (table.setRow place row).mask = table.mask := by
  cases place <;> rfl

@[simp] theorem rows_size_setRow (table : GroupTable) (place : RowPlace) (row : GroupRow) :
    (table.setRow place row).rows.size = table.rows.size := by
  cases place <;> simp [setRow, modifyRow]

/-! ## Tidy tables -/

/-- What holds of a table whatever its capacity. -/
structure Tidy (table : GroupTable) : Prop where
  shape : ∃ k ≤ 64, table.rows.size = 2 ^ k ∧ table.mask = UInt64.ofNat (2 ^ k - 1)
  keyed : ∀ index, table.key index ≠ 0 → (table.row (.slot index)).status = .live
  free : ∀ index, table.key index = 0 → table.row (.slot index) = {}
  zero : table.zero = {} ∨ table.zero.group = 0 ∧ table.zero.status = .live

theorem Tidy.masked_lt {table : GroupTable} (h : table.Tidy) (word : UInt64) :
    (word &&& table.mask).toNat < table.rows.size := by
  obtain ⟨k, hk, hrows, hmask⟩ := h.shape
  rw [hmask, toNat_and_lowBits word hk, hrows]
  exact Nat.mod_lt _ (Nat.two_pow_pos k)

theorem Tidy.chain_lt {table : GroupTable} (h : table.Tidy) (group : GroupId) (steps : Nat) :
    (table.chain group steps).toNat < table.rows.size := by
  cases steps with
  | zero => exact h.masked_lt _
  | succ steps =>
      rw [chain_succ]
      exact h.masked_lt _

/-- The place where the search for a group ends. -/
def Reaches (table : GroupTable) (group : GroupId) : RowPlace → Prop
  | .zero => group = 0
  | .slot index => group ≠ 0 ∧
      ∃ steps < table.rows.size, table.Stops group steps ∧ index = table.chain group steps

theorem Tidy.holds_of_reaches {table : GroupTable} (h : table.Tidy) {group : GroupId}
    {place : RowPlace} (hreach : table.Reaches group place) : table.Holds place := by
  cases place with
  | zero => trivial
  | slot index =>
      obtain ⟨-, steps, hlt, -, rfl⟩ := hreach
      exact h.chain_lt group steps

theorem accept_of_live {table : GroupTable} {place : RowPlace}
    (h : (table.row place).status = .live) : table.accept place = .ok place := by
  simp only [accept, h]

/-- A blank row that is taken while there is room is admitted. -/
theorem settle_of_room {table : GroupTable} {place : RowPlace} (hholds : table.Holds place)
    (hblank : table.row place = {}) (hroom : table.live < table.capacity)
    (change : GroupRow → GroupRow) :
    (table.modifyRow place change).settle place =
      (.ok place, (table.setRow place { change {} with status := .live }).grow) := by
  rw [modifyRow_eq_setRow, hblank, settle, live_setRow, capacity_setRow, if_pos hroom,
    modifyRow_eq_setRow, row_grow, row_setRow hholds, if_pos rfl, setRow_grow, setRow_setRow]

theorem tally_of_found {table : GroupTable} {group : GroupId} {place : RowPlace}
    (h : table.rowFor group = (.ok place, table)) (op : Operation) :
    table.tally group op = (.ok (), table.setRow place ((table.row place).bump op)) := by
  rw [tally, h]
  simp only [modifyRow_eq_setRow]

/-- Counting in a row that was just admitted. -/
theorem tally_of_taken {table : GroupTable} {group : GroupId} {place : RowPlace}
    (hholds : table.Holds place) {row : GroupRow}
    (h : table.rowFor group = (.ok place, (table.setRow place row).grow)) (op : Operation) :
    table.tally group op = (.ok (), (table.setRow place (row.bump op)).grow) := by
  rw [tally, h]
  simp only [modifyRow_eq_setRow]
  rw [row_grow, row_setRow hholds, if_pos rfl, setRow_grow, setRow_setRow]

theorem tally_of_refused {table : GroupTable} {group : GroupId} {loss : Loss}
    (h : table.rowFor group = (.error loss, table)) (op : Operation) :
    table.tally group op = (.error loss, table) := by
  rw [tally, h]

/-- The three things that a counted operation can do. -/
inductive Tallied (table : GroupTable) (group : GroupId) (op : Operation) :
    Except Loss Unit × GroupTable → Prop where
  /-- It counts in the live row of the group. -/
  | found (place : RowPlace) (reach : table.Reaches group place)
      (group_eq : (table.row place).group = group) (live : (table.row place).status = .live) :
      Tallied table group op (.ok (), table.setRow place ((table.row place).bump op))
  /-- It takes a blank row. -/
  | taken (place : RowPlace) (reach : table.Reaches group place)
      (blank : table.row place = {}) (room : table.live < table.capacity) :
      Tallied table group op
        (.ok (), (table.setRow place (GroupRow.bump { group, status := .live } op)).grow)
  /-- It finds a blank row, but the table is full. -/
  | full (place : RowPlace) (reach : table.Reaches group place)
      (blank : table.row place = {}) (full : table.capacity ≤ table.live) :
      Tallied table group op (.error .tableExhausted, table)
  /-- It finds neither the group nor a blank row. -/
  | exhausted (key_ne : group ≠ 0) (pass : table.Passes group table.rows.size) :
      Tallied table group op (.error .tableExhausted, table)

theorem isFull_iff (table : GroupTable) : table.isFull = true ↔ table.capacity ≤ table.live := by
  simp [isFull]

theorem tallied_zero {table : GroupTable} (h : table.Tidy) (op : Operation) :
    Tallied table 0 op (table.tally 0 op) := by
  have hfor : table.rowFor 0 = table.zeroRow := if_pos rfl
  rcases h.zero with hblank | ⟨hgroup, hlive⟩
  · have hpending : ¬ table.zero.status ≠ .pending := by simp [hblank]
    rw [zeroRow, if_neg hpending] at hfor
    by_cases hfull : table.isFull
    · rw [if_pos hfull] at hfor
      rw [tally_of_refused hfor]
      exact .full .zero rfl hblank ((isFull_iff table).1 hfull)
    · have hroom : table.live < table.capacity :=
        Nat.lt_of_not_le fun hle => hfull ((isFull_iff table).2 hle)
      have hholds : table.Holds .zero := trivial
      rw [if_neg hfull, settle_of_room hholds hblank hroom] at hfor
      rw [tally_of_taken hholds hfor]
      exact .taken .zero rfl hblank hroom
  · have hrow : (table.row .zero).status = .live := hlive
    rw [zeroRow, if_pos (by simp [hlive]), accept_of_live hrow] at hfor
    rw [tally_of_found hfor]
    exact .found .zero rfl hgroup hlive

theorem tallied_slot {table : GroupTable} (h : table.Tidy) {group : GroupId} (hgroup : group ≠ 0)
    (op : Operation) : Tallied table group op (table.tally group op) := by
  have hfor : table.rowFor group = table.rowFrom group table.rows.size (table.home group) :=
    if_neg hgroup
  rcases table.passes_or_stops group table.rows.size with hpass | ⟨steps, hlt, hstop⟩
  · rw [rowFrom_exhausted hpass] at hfor
    rw [tally_of_refused hfor]
    exact .exhausted hgroup hpass
  · have hreach : table.Reaches group (.slot (table.chain group steps)) :=
      ⟨hgroup, steps, hlt, hstop, rfl⟩
    rw [rowFrom_of_stops hlt hstop] at hfor
    by_cases hkey : table.key (table.chain group steps) = group
    · have hlive := h.keyed _ (hkey ▸ hgroup)
      simp only [if_pos hkey, accept_of_live hlive] at hfor
      rw [tally_of_found hfor]
      exact .found _ hreach hkey hlive
    · have hblank := h.free _ (hstop.2.resolve_left hkey)
      by_cases hfull : table.isFull
      · simp only [if_neg hkey, if_pos hfull] at hfor
        rw [tally_of_refused hfor]
        exact .full _ hreach hblank ((isFull_iff table).1 hfull)
      · have hroom : table.live < table.capacity :=
          Nat.lt_of_not_le fun hle => hfull ((isFull_iff table).2 hle)
        have hholds := h.holds_of_reaches hreach
        simp only [if_neg hkey, if_neg hfull, settle_of_room hholds hblank hroom] at hfor
        rw [tally_of_taken hholds hfor]
        exact .taken _ hreach hblank hroom

theorem Tidy.tallied {table : GroupTable} (h : table.Tidy) (group : GroupId) (op : Operation) :
    Tallied table group op (table.tally group op) := by
  by_cases hgroup : group = 0
  · subst hgroup
    exact tallied_zero h op
  · exact tallied_slot h hgroup op

end DentryWatch.GroupTable
