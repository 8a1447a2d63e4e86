import Mathlib.Data.UInt
import DentryWatch.Proofs.GroupTable.Soundness

/-!
# The total of a group table

Every accepted call raises the sum of all reported counters by one, and a refused
call leaves it, whatever the capacity of the table.
-/

namespace DentryWatch

def Counts.total (counts : Counts) : UInt64 := counts.alloc + counts.positive + counts.negative

theorem Counts.total_bump (counts : Counts) (op : Operation) :
    (counts.bump op).total = counts.total + 1 := by
  cases op <;> simp only [total, bump] <;> ac_rfl

namespace GroupTable

def total (table : GroupTable) : UInt64 := (table.toList.map (·.2.total)).sum

/-- What a row adds to the total. -/
def share (row : GroupRow) : UInt64 := if row.status = .live then row.counts.total else 0

theorem total_eq (table : GroupTable) : table.total = (table.allRows.map share).sum := by
  rw [total, toList, List.map_map]
  induction table.allRows with
  | nil => rfl
  | cons row rest ih =>
      by_cases hlive : row.status = .live
      · rw [List.filter_cons_of_pos (by simpa using hlive), List.map_cons, List.map_cons,
          List.sum_cons, List.sum_cons, ih, share, if_pos hlive]
        rfl
      · rw [List.filter_cons_of_neg (by simpa using hlive), List.map_cons, List.sum_cons, ih,
          share, if_neg hlive, UInt64.zero_add]

theorem total_setRow {table : GroupTable} {place : RowPlace} (hholds : table.Holds place)
    {row : GroupRow} (hshare : share row = share (table.row place) + 1) :
    (table.setRow place row).total = table.total + 1 := by
  obtain ⟨before, after, hsplit, hsplit'⟩ := exists_allRows_split hholds row
  simp only [total_eq, hsplit, hsplit', List.map_append, List.map_cons, List.sum_append,
    List.sum_cons, hshare]
  ac_rfl

theorem total_grow (table : GroupTable) : table.grow.total = table.total := rfl

/-- A call counts once or not at all. -/
theorem Tallied.total {table : GroupTable} {group : GroupId} {op : Operation}
    {result : Except Loss Unit × GroupTable} (h : table.Tidy)
    (hresult : Tallied table group op result) :
    result.1 = .ok () ∧ result.2.total = table.total + 1 ∨
      result.1 = .error .tableExhausted ∧ result.2 = table := by
  cases hresult with
  | found place reach group_eq live =>
      refine .inl ⟨rfl, total_setRow (h.holds_of_reaches reach) ?_⟩
      have hshare : share ((table.row place).bump op) = ((table.row place).counts.bump op).total :=
        if_pos live
      rw [hshare, share, if_pos live, Counts.total_bump]
  | taken place reach blank room =>
      refine .inl ⟨rfl, (total_grow _).trans (total_setRow (h.holds_of_reaches reach) ?_)⟩
      rw [blank]
      exact Counts.total_bump {} op
  | full place reach blank full => exact .inr ⟨rfl, rfl⟩
  | exhausted key_ne pass => exact .inr ⟨rfl, rfl⟩

theorem total_ofCapacity (capacity : Nat) : (ofCapacity capacity).total = 0 := by
  have hzero : ∀ count, (List.replicate count (0 : UInt64)).sum = 0 := by
    intro count
    induction count with
    | zero => rfl
    | succ count ih => rw [List.replicate_succ, List.sum_cons, ih, UInt64.zero_add]
  rw [total_eq, allRows, ofCapacity]
  simp [share, hzero]

end GroupTable

end DentryWatch
