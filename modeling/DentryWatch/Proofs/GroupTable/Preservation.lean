import DentryWatch.Proofs.GroupTable.Soundness

/-!
# Counted operations keep a table sound

Whatever a counted operation does, it puts at most one live row at the place
where the search for its group ends. That place is the only one that may hold
the group, and all slots on the way to it are keyed.
-/

namespace DentryWatch.GroupTable

/-! ## Putting a row -/

theorem chain_setRow (table : GroupTable) (place : RowPlace) (row : GroupRow) (group : GroupId)
    (steps : Nat) : (table.setRow place row).chain group steps = table.chain group steps := by
  have hnext : (table.setRow place row).next = table.next := by
    funext index
    rw [next, next, mask_setRow]
  rw [chain, chain, hnext, home, home, mask_setRow]

theorem key_setRow {table : GroupTable} {place : RowPlace} (hholds : table.Holds place)
    (row : GroupRow) (index : UInt64) :
    (table.setRow place row).key index =
      if .slot index = place then row.group else table.key index := by
  rw [key, row_setRow hholds, key]
  split <;> rfl

theorem Tidy.grow {table : GroupTable} (h : table.Tidy) : table.grow.Tidy where
  shape := h.shape
  keyed := h.keyed
  free := h.free
  zero := h.zero

theorem Reaches.zero_iff {table : GroupTable} {group : GroupId} {place : RowPlace}
    (h : table.Reaches group place) : place = .zero ↔ group = 0 := by
  cases place with
  | zero => exact ⟨fun _ => h, fun _ => rfl⟩
  | slot index => exact ⟨fun heq => RowPlace.noConfusion heq, fun hgroup => absurd hgroup h.1⟩

/-- A live row of the right group may stand where the search for the group ends. -/
theorem Tidy.setRow {table : GroupTable} (h : table.Tidy) {group : GroupId} {place : RowPlace}
    (hreach : table.Reaches group place) {row : GroupRow} (hgroup : row.group = group)
    (hlive : row.status = .live) : (table.setRow place row).Tidy := by
  have hholds := h.holds_of_reaches hreach
  constructor
  · rw [rows_size_setRow, mask_setRow]
    exact h.shape
  · intro index hkey
    rw [row_setRow hholds]
    rw [key_setRow hholds] at hkey
    split
    · exact hlive
    · next hne =>
        rw [if_neg hne] at hkey
        exact h.keyed index hkey
  · intro index hkey
    rw [row_setRow hholds]
    rw [key_setRow hholds] at hkey
    split
    · next heq =>
        rw [if_pos heq, hgroup, ← hreach.zero_iff] at hkey
        exact nomatch heq.trans hkey
    · next hne =>
        rw [if_neg hne] at hkey
        exact h.free index hkey
  · have hzero := row_setRow hholds .zero row
    by_cases hplace : place = .zero
    · rw [if_pos hplace.symm] at hzero
      rw [show (table.setRow place row).zero = row from hzero]
      exact .inr ⟨hgroup.trans (hreach.zero_iff.1 hplace), hlive⟩
    · rw [if_neg (Ne.symm hplace)] at hzero
      rw [show (table.setRow place row).zero = table.zero from hzero]
      exact h.zero

theorem Tallied.tidy {table : GroupTable} {group : GroupId} {op : Operation}
    {result : Except Loss Unit × GroupTable} (h : table.Tidy)
    (hresult : Tallied table group op result) : result.2.Tidy := by
  cases hresult with
  | found place reach group_eq live => exact h.setRow reach group_eq live
  | taken place reach blank room => exact (h.setRow reach rfl rfl).grow
  | full place reach blank full => exact h
  | exhausted key_ne pass => exact h

/-! ## Soundness -/

namespace Sound

variable {table : GroupTable} {group : GroupId} {place : RowPlace} {row : GroupRow}

/-- No other slot holds the group that a search was for. -/
theorem slot_eq_of_key (h : table.Sound) (hreach : table.Reaches group place)
    {index : UInt64} (hgroup : group ≠ 0) (hkey : table.key index = group) :
    .slot index = place := by
  cases place with
  | zero => exact absurd hreach hgroup
  | slot found =>
      obtain ⟨-, steps, -, hstop, rfl⟩ := hreach
      rw [h.stop_of_key hgroup hkey hstop]

theorem distinct_setRow (h : table.Sound) (hreach : table.Reaches group place)
    (hgroup : row.group = group) (i j : UInt64) (hi : (table.setRow place row).key i ≠ 0)
    (hij : (table.setRow place row).key i = (table.setRow place row).key j) : i = j := by
  have hholds := h.holds_of_reaches hreach
  rw [key_setRow hholds] at hi hij
  rw [key_setRow hholds] at hij
  by_cases hiplace : .slot i = place
  · rw [if_pos hiplace, hgroup] at hi hij
    by_cases hjplace : .slot j = place
    · exact RowPlace.slot.inj (hiplace.trans hjplace.symm)
    · rw [if_neg hjplace] at hij
      exact absurd (h.slot_eq_of_key hreach hi hij.symm) hjplace
  · rw [if_neg hiplace] at hi hij
    by_cases hjplace : .slot j = place
    · rw [if_pos hjplace, hgroup] at hij
      exact absurd (h.slot_eq_of_key hreach (hij ▸ hi) hij) hiplace
    · rw [if_neg hjplace] at hij
      exact h.distinct i j hi hij

theorem linked_setRow (h : table.Sound) (hreach : table.Reaches group place)
    (hgroup : row.group = group) (i : UInt64) (hi : (table.setRow place row).key i ≠ 0) :
    ∃ steps, (table.setRow place row).chain ((table.setRow place row).key i) steps = i ∧
      ∀ s < steps, (table.setRow place row).key
        ((table.setRow place row).chain ((table.setRow place row).key i) s) ≠ 0 := by
  have hholds := h.holds_of_reaches hreach
  have hkeyed : ∀ index, table.key index ≠ 0 → (table.setRow place row).key index ≠ 0 := by
    intro index hkey
    rw [key_setRow hholds]
    split
    · next heq =>
        rw [hgroup]
        intro hzero
        exact nomatch heq.trans (hreach.zero_iff.2 hzero)
    · exact hkey
  simp only [chain_setRow]
  by_cases hplace : .slot i = place
  · subst hplace
    obtain ⟨-, steps, -, hstop, hchain⟩ := hreach
    rw [key_setRow hholds, if_pos rfl, hgroup]
    exact ⟨steps, hchain.symm, fun s hs => hkeyed _ (hstop.1 s hs).2⟩
  · have hsame : (table.setRow place row).key i = table.key i := by
      rw [key_setRow hholds, if_neg hplace]
    rw [hsame] at hi ⊢
    obtain ⟨steps, hchain, hbefore⟩ := h.linked i hi
    exact ⟨steps, hchain, fun s hs => hkeyed _ (hbefore s hs)⟩

theorem found (h : table.Sound) (row : GroupRow) (hreach : table.Reaches group place)
    (hgroup : row.group = group) (hold : (table.row place).status = .live)
    (hlive : row.status = .live) : (table.setRow place row).Sound := by
  obtain ⟨before, after, hsplit, hsplit'⟩ :=
    exists_allRows_split (h.holds_of_reaches hreach) row
  refine ⟨h.toTidy.setRow hreach hgroup hlive, ?_, ?_, h.distinct_setRow hreach hgroup,
    h.linked_setRow hreach hgroup, ?_, ?_⟩
  · rw [rows_size_setRow]
    exact h.sized
  · rw [rows_size_setRow, capacity_setRow]
    exact h.room
  · rw [live_setRow, h.live_eq, hsplit, hsplit']
    simp [List.countP_append, hold, hlive]
  · rw [live_setRow, capacity_setRow]
    exact h.live_le

theorem taken (h : table.Sound) (row : GroupRow) (hreach : table.Reaches group place)
    (hgroup : row.group = group) (hblank : table.row place = {}) (hlive : row.status = .live)
    (hroom : table.live < table.capacity) : (table.setRow place row).grow.Sound := by
  obtain ⟨before, after, hsplit, hsplit'⟩ :=
    exists_allRows_split (h.holds_of_reaches hreach) row
  refine ⟨(h.toTidy.setRow hreach hgroup hlive).grow, ?_, ?_, h.distinct_setRow hreach hgroup,
    h.linked_setRow hreach hgroup, ?_, ?_⟩
  · show 2 ≤ (table.setRow place row).rows.size
    rw [rows_size_setRow]
    exact h.sized
  · show 2 * (table.setRow place row).capacity ≤ (table.setRow place row).rows.size
    rw [rows_size_setRow, capacity_setRow]
    exact h.room
  · show (table.setRow place row).live + 1 = (table.setRow place row).allRows.countP _
    rw [live_setRow, h.live_eq, hsplit, hsplit', hblank]
    simp [List.countP_append, hlive, Nat.add_assoc]
  · show (table.setRow place row).live + 1 ≤ (table.setRow place row).capacity
    rw [live_setRow, capacity_setRow]
    exact hroom

end Sound

theorem Tallied.sound {table : GroupTable} {group : GroupId} {op : Operation}
    {result : Except Loss Unit × GroupTable} (h : table.Sound)
    (hresult : Tallied table group op result) : result.2.Sound := by
  cases hresult with
  | found place reach group_eq live => exact h.found _ reach group_eq live live
  | taken place reach blank room => exact h.taken _ reach rfl blank rfl room
  | full place reach blank full => exact h
  | exhausted key_ne pass => exact h

end DentryWatch.GroupTable
