import DentryWatch.Instant
import DentryWatch.Record.Path

/-!
# Rows of a trace log

A row has six columns between tabs and ends with a line feed. Control characters
that would break the frame are written as spaces in the path column.
-/

namespace DentryWatch.TraceLog

def header : List Char :=
  "timestamp\tgroup_id\toperation\tdepth\troot_reached\tpath\n".toList

/-- A character that would break the frame of a row. -/
def breaksRow (c : Char) : Bool := c = '\t' || c = '\n' || c = '\r'

/-- A path with frame-breaking characters replaced. -/
def framed (path : List Char) : List Char :=
  path.map fun c => if breaksRow c then ' ' else c

def columns (record : Record) (path : List Char) : List (List Char) :=
  [Text.decimal record.group.toNat, record.operation.name.toList,
    Text.decimal record.count, (toString record.rootReached).toList, path]

/-- Columns between tabs, with a line feed at the end. -/
def line (columns : List (List Char)) : List Char := ['\t'].intercalate columns ++ ['\n']

def row (seen : Instant) (record : Record) (path : List Char) : List Char :=
  line (seen.nanosText :: columns record (framed path))

theorem not_breaksRow_of_mem_framed {path : List Char} {c : Char} (h : c ∈ framed path) :
    breaksRow c = false := by
  simp only [framed, List.mem_map] at h
  obtain ⟨d, _, rfl⟩ := h
  by_cases hd : breaksRow d = true
  · rw [if_pos hd]
    rfl
  · rw [if_neg hd]
    simpa using hd

theorem framed_length (path : List Char) : (framed path).length = path.length := by
  simp [framed]

end DentryWatch.TraceLog
