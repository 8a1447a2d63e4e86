import DentryWatch.Proofs.Text.Tables
import DentryWatch.Proofs.TraceLog.Lines

/-!
# Frames

Whatever a path holds, its row is one line of six columns, and they are read back from
it. A file falls into its header and its rows at the line feeds, and nothing is left.
-/

namespace DentryWatch.TraceLog

/-! ## Rows -/

def carriageReturn : UInt8 := 0x0D

theorem encodeChars_intercalate (columns : List (List Char)) :
    Utf8.encodeChars (['\t'].intercalate columns) =
      [tab].intercalate (columns.map Utf8.encodeChars) := by
  induction columns with
  | nil => rfl
  | cons first rest ih =>
      cases rest with
      | nil => simp
      | cons second rest =>
          rw [List.intercalate_cons_cons, Utf8.encodeChars_append, Utf8.encodeChars_append, ih]
          simp only [List.map_cons, List.intercalate_cons_cons]
          rfl

/-- The columns of a row, as they stand in a file. -/
def cells (row : Bytes) : List Bytes := row.dropLast.splitOn tab

section Rows

variable (seen : Instant) (record : Record) (path : String)

theorem rowBytes_eq :
    rowBytes seen record path =
      Utf8.encodeChars (['\t'].intercalate
        (seen.nanosText :: columns record (framed path.toList))) ++ [lineFeed] :=
  encodeChars_line _

theorem not_mem_rowBytes_dropLast (mark : Char) (hbreaks : breaksRow mark = true)
    (htab : mark ≠ '\t') (hmark : mark.toNat < 0x80) :
    UInt8.ofNat mark.toNat ∉ (rowBytes seen record path).dropLast := by
  rw [rowBytes_eq, List.dropLast_concat, Utf8.mem_encodeChars_iff hmark]
  exact not_mem_intercalate (by simpa using htab) fun column hmem =>
    (plain_row seen record path column hmem).not_mem hbreaks

theorem count_lineFeed_rowBytes : (rowBytes seen record path).count lineFeed = 1 := by
  have hnone : lineFeed ∉ (rowBytes seen record path).dropLast :=
    not_mem_rowBytes_dropLast seen record path '\n' rfl (by decide) (by decide)
  rw [rowBytes_eq, List.dropLast_concat] at hnone
  rw [rowBytes_eq, List.count_append, List.count_eq_zero.2 hnone, List.count_singleton_self]

theorem getLast?_rowBytes : (rowBytes seen record path).getLast? = some lineFeed := by
  rw [rowBytes_eq, List.getLast?_concat]

theorem carriageReturn_not_mem_rowBytes : carriageReturn ∉ rowBytes seen record path := by
  have hnone : carriageReturn ∉ (rowBytes seen record path).dropLast :=
    not_mem_rowBytes_dropLast seen record path '\r' rfl (by decide) (by decide)
  rw [rowBytes_eq, List.dropLast_concat] at hnone
  rw [rowBytes_eq, List.mem_append, not_or]
  exact ⟨hnone, by decide⟩

theorem count_tab_rowBytes : (rowBytes seen record path).count tab = 5 := by
  have hcount : (Utf8.encodeChars (['\t'].intercalate
      (seen.nanosText :: columns record (framed path.toList)))).count tab = 5 :=
    (Utf8.count_encodeChars '\t' (by decide) _).trans
      (count_tab_intercalate (plain_row seen record path))
  rw [rowBytes_eq, List.count_append, hcount]
  decide

theorem cells_rowBytes :
    cells (rowBytes seen record path) =
      (seen.nanosText :: columns record (framed path.toList)).map Utf8.encodeChars := by
  rw [cells, rowBytes_eq, List.dropLast_concat, encodeChars_intercalate]
  refine List.splitOn_intercalate tab (fun cell hmem => ?_) (List.cons_ne_nil _ _)
  obtain ⟨column, hcolumn, rfl⟩ := List.mem_map.1 hmem
  intro htab
  have hmark : '\t' ∈ column := (Utf8.mem_encodeChars_iff (by decide)).1 htab
  exact (plain_row seen record path column hcolumn).not_mem rfl hmark

/-- The six columns of a row. In the path each character that would break the frame is a space. -/
theorem cells_rowBytes_eq :
    cells (rowBytes seen record path) =
      [seen.nanosText, Text.decimal record.group.toNat, record.operation.name.toList,
        Text.decimal record.count, (toString record.rootReached).toList,
        path.toList.map fun c => if c = '\t' ∨ c = '\n' ∨ c = '\r' then ' ' else c].map
          Utf8.encodeChars := by
  rw [cells_rowBytes, columns, framed]
  simp only [breaksRow, Bool.or_eq_true, decide_eq_true_eq, or_assoc]

end Rows

/-! ## Lines -/

/-- Lines put together fall apart at their line feeds, and nothing is left. -/
theorem splitOn_flatten {lines : List Bytes} (h : ∀ line ∈ lines, IsLine line) :
    lines.flatten.splitOn lineFeed = lines.map List.dropLast ++ [[]] := by
  have hbody : ∀ line ∈ lines, lineFeed ∉ line.dropLast ∧ line.dropLast ++ [lineFeed] = line := by
    intro line hmem
    obtain ⟨body, rfl, hbody⟩ := h line hmem
    rw [List.dropLast_concat]
    exact ⟨hbody, rfl⟩
  have hlines : lines.flatten = (lines.map List.dropLast).flatMap (· ++ [lineFeed]) := by
    rw [List.flatMap_map, List.flatMap_def]
    congr 1
    exact ((List.map_congr_left fun line hmem => (hbody line hmem).2).trans (List.map_id _)).symm
  rw [hlines]
  refine Text.splitOn_flatMap fun piece hmem => ?_
  obtain ⟨line, hline, rfl⟩ := List.mem_map.1 hmem
  exact (hbody line hline).1

theorem splitOn_fileBytes {rows : List Bytes} (h : ∀ row ∈ rows, IsRow row) :
    (fileBytes rows).splitOn lineFeed = (headerBytes :: rows).map List.dropLast ++ [[]] :=
  splitOn_flatten (isLine_of_mem_header h)

end DentryWatch.TraceLog
