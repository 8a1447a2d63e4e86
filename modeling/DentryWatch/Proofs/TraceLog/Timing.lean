import DentryWatch.Proofs.TraceLog.Journals
import DentryWatch.Proofs.TraceLog.Names
import Mathlib.Data.List.Forall2

/-!
# Rows written at other times

Times are written in ASCII. Rows that differ in nothing but a time of the same
width are cut into the same volumes.
-/

namespace DentryWatch.TraceLog

theorem ascii_padded (width n : Nat) : ∀ c ∈ Instant.padded width n, c.toNat < 0x80 := by
  intro c hmem
  rw [Instant.padded, List.leftpad] at hmem
  rcases List.mem_append.1 hmem with hzero | hdigit
  · rw [(List.mem_replicate.1 hzero).2]
    decide
  · exact Text.ascii_decimal n c hdigit

theorem ascii_yearText (year : Int) : ∀ c ∈ Instant.yearText year, c.toNat < 0x80 := by
  rw [Instant.yearText]
  split
  · exact ascii_padded _ _
  · rw [List.forall_mem_cons]
    refine ⟨?_, ascii_padded _ _⟩
    split <;> decide

theorem ascii_field {mark : Char} (hmark : mark.toNat < 0x80) (width n : Nat) :
    ∀ c ∈ mark :: Instant.padded width n, c.toNat < 0x80 :=
  List.forall_mem_cons.2 ⟨hmark, ascii_padded width n⟩

theorem ascii_nanosText (instant : Instant) : ∀ c ∈ instant.nanosText, c.toNat < 0x80 := by
  simp only [Instant.nanosText, Instant.secondsText, List.forall_mem_append]
  refine ⟨⟨⟨⟨⟨⟨⟨ascii_yearText _, ?_⟩, ?_⟩, ?_⟩, ?_⟩, ?_⟩, ?_⟩,
    List.forall_mem_singleton.2 (by decide)⟩
  all_goals exact ascii_field (by decide) _ _

theorem length_rowBytes (seen : Instant) (record : Record) (path : String) :
    (rowBytes seen record path).length =
      seen.nanosText.length +
        (Utf8.encodeChars ('\t' :: line (columns record (framed path.toList)))).length := by
  have hrow : row seen record path.toList =
      seen.nanosText ++ '\t' :: line (columns record (framed path.toList)) := by
    simp [row, line, columns, List.intercalate]
  rw [rowBytes, hrow, Utf8.encodeChars_append, List.length_append,
    Utf8.encodeChars_of_ascii (ascii_nanosText seen), List.length_map]

/-- Rows of one record that differ in their times, which have the same width. -/
def SameButTime (row other : Bytes) : Prop :=
  ∃ seen seen' record path, seen.nanosText.length = seen'.nanosText.length ∧
    row = rowBytes seen record path ∧ other = rowBytes seen' record path

theorem SameButTime.length_eq {row other : Bytes} (h : SameButTime row other) :
    row.length = other.length := by
  obtain ⟨seen, seen', record, path, hwidth, rfl, rfl⟩ := h
  rw [length_rowBytes, length_rowBytes, hwidth]

theorem length_fileBytes_eq {rows others : List Bytes} (h : List.Forall₂ SameButTime rows others) :
    (fileBytes rows).length = (fileBytes others).length := by
  have hflatten : rows.flatten.length = others.flatten.length := by
    induction h with
    | nil => rfl
    | cons hrow _ ih =>
        rw [List.flatten_cons, List.flatten_cons, List.length_append, List.length_append, ih,
          hrow.length_eq]
  rw [fileBytes, fileBytes, List.length_append, List.length_append, hflatten]

namespace Journal

/-- The same volumes of rows that were written at other times. -/
structure SameButTimes (journal other : Journal) : Prop where
  volumes : List.Forall₂ (fun volume volume' => List.Forall₂ SameButTime volume.rows volume'.rows)
    journal.volumes other.volumes
  active : List.Forall₂ SameButTime journal.active other.active

variable {journal other : Journal} {row row' : Bytes} {limit : Nat}

theorem SameButTimes.append (h : journal.SameButTimes other) (hrow : SameButTime row row') :
    (journal.append limit row).SameButTimes (other.append limit row') := by
  have hactive : List.Forall₂ SameButTime (journal.active ++ [row]) (other.active ++ [row']) :=
    List.rel_append h.active (.cons hrow .nil)
  have hlength := length_fileBytes_eq hactive
  by_cases hreached : limit ≤ (fileBytes (journal.active ++ [row])).length
  · rw [append_of_reached hreached, append_of_reached (hlength ▸ hreached)]
    exact ⟨.cons hactive h.volumes, .nil⟩
  · rw [append_of_below (Nat.not_le.1 hreached),
      append_of_below (hlength ▸ Nat.not_le.1 hreached)]
    exact ⟨h.volumes, hactive⟩

theorem SameButTimes.foldl (h : journal.SameButTimes other) {rows rows' : List Bytes}
    (hrows : List.Forall₂ SameButTime rows rows') :
    (rows.foldl (Journal.append limit) journal).SameButTimes
      (rows'.foldl (Journal.append limit) other) := by
  induction hrows generalizing journal other with
  | nil => exact h
  | cons hrow _ ih => exact ih (h.append hrow)

end Journal

end DentryWatch.TraceLog
