/-!
# Tables of text

A table is a text of lines whose columns stand between tabs. It is read by
cutting the text at its line feeds and the lines at their tabs. Nothing is lost
that way, so a text is known from the table that is read.
-/

namespace DentryWatch.Text

/-- Lines without a mark of their own fall apart again. -/
theorem splitOn_flatMap {α : Type} [BEq α] [LawfulBEq α] {mark : α} {lines : List (List α)}
    (h : ∀ line ∈ lines, mark ∉ line) :
    (lines.flatMap (· ++ [mark])).splitOn mark = lines ++ [[]] := by
  have hjoin : ∀ lines : List (List α),
      lines.flatMap (· ++ [mark]) = [mark].intercalate (lines ++ [[]]) := by
    intro lines
    induction lines with
    | nil => rfl
    | cons line rest ih =>
        rw [List.flatMap_cons, ih]
        cases rest <;> simp [List.intercalate]
  rw [hjoin]
  apply List.splitOn_intercalate
  · intro line hmem
    rcases List.mem_append.1 hmem with hline | hlast
    · exact h line hline
    · obtain rfl := List.mem_singleton.1 hlast
      exact List.not_mem_nil
  · simp

/-- The columns of the lines of a text. What follows the last line feed is a line, too. -/
def tableOf (text : List Char) : List (List (List Char)) :=
  (text.splitOn '\n').map (List.splitOn '\t')

def ofTable (table : List (List (List Char))) : List Char :=
  ['\n'].intercalate (table.map ['\t'].intercalate)

theorem ofTable_tableOf (text : List Char) : ofTable (tableOf text) = text := by
  have hlines : (tableOf text).map ['\t'].intercalate = text.splitOn '\n' := by
    rw [tableOf, List.map_map]
    refine (List.map_congr_left fun line _ => ?_).trans (List.map_id _)
    exact List.intercalate_splitOn '\t'
  rw [ofTable, hlines, List.intercalate_splitOn]

theorem tableOf_inj {text other : List Char} (h : tableOf text = tableOf other) : text = other := by
  rw [← ofTable_tableOf text, h, ofTable_tableOf]

end DentryWatch.Text
