import DentryWatch.Proofs.Text.Splitting
import DentryWatch.Text.Lines

/-!
# Lines of longer texts

What ends with a line feed has the same lines whatever follows, and the first
line of a text without one is the text itself.
-/

namespace DentryWatch.Text

theorem dropReturn_subset (line : List Char) : dropReturn line ⊆ line := by
  rw [dropReturn]
  split
  · exact (List.dropLast_sublist line).subset
  · exact List.Subset.refl line

/-- What stands before the last characters of a line does not matter to its end. -/
theorem dropReturn_append (start rest : List Char) {c : Char} (h : c ≠ '\r') :
    dropReturn (start ++ c :: rest) = start ++ c :: dropReturn rest := by
  cases rest with
  | nil => simp [dropReturn, h]
  | cons next rest =>
      rw [dropReturn, dropReturn, List.getLast?_append, List.getLast?_cons_cons]
      cases hlast : (next :: rest).getLast? with
      | none => cases List.getLast?_eq_none_iff.1 hlast
      | some last =>
          rw [Option.some_or]
          split
          · rw [List.dropLast_append_of_ne_nil (List.cons_ne_nil _ _), List.dropLast_cons_cons]
          · rfl

theorem lines_of_not_mem {line : List Char} (h : '\n' ∉ line) (hne : line ≠ []) :
    lines line = [line] := by
  rw [lines, List.splitOn_eq_singleton h]
  simp [hne]

theorem lines_append_cons (before rest : List Char) :
    lines (before ++ '\n' :: rest) = (before.splitOn '\n').map dropReturn ++ lines rest := by
  have hne := List.splitOn_ne_nil '\n' rest
  rw [lines, lines, List.splitOn_append_cons_self, List.dropLast_append_of_ne_nil hne,
    List.getLast?_append_of_ne_nil _ hne, List.map_append, List.append_assoc]

/-- Terminated lines are lines whatever follows them. -/
theorem lines_append {before : List Char} (h : before = [] ∨ before.getLast? = some '\n')
    (rest : List Char) : lines (before ++ rest) = lines before ++ lines rest := by
  rcases h with rfl | hlast
  · rfl
  · obtain ⟨front, rfl⟩ := List.getLast?_eq_some_iff.1 hlast
    have hfront := lines_append_cons front []
    rw [lines_nil, List.append_nil] at hfront
    rw [List.append_assoc, List.singleton_append, lines_append_cons, hfront]

theorem of_mem_lines {text line : List Char} (h : line ∈ lines text) : '\n' ∉ line := by
  rw [lines] at h
  rcases List.mem_append.1 h with hmem | hmem
  · obtain ⟨piece, hpiece, rfl⟩ := List.mem_map.1 hmem
    have hmem := (List.dropLast_sublist _).subset hpiece
    exact fun hfeed => (of_mem_splitOn hmem).1 (dropReturn_subset piece hfeed)
  · have hlast := List.mem_of_getLast? (Option.mem_toList.1 (List.mem_filter.1 hmem).1)
    exact (of_mem_splitOn hlast).1

end DentryWatch.Text
