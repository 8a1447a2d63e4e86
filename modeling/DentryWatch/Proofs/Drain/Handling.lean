import DentryWatch.Drain
import DentryWatch.Proofs.TraceLog.Journals
import Mathlib.Data.List.Forall2

/-!
# Handling one record

A record that the filter drops changes nothing but the totals. Any other goes to
the log and to the raw file, and counts as written if both took it.
-/

namespace DentryWatch

namespace DrainSummary

def dropped (summary : DrainSummary) : DrainSummary :=
  { summary with received := summary.received + 1, filtered := summary.filtered + 1 }

def passed (summary : DrainSummary) (taken : Bool) : DrainSummary :=
  if taken then { summary with received := summary.received + 1, written := summary.written + 1 }
  else { summary with
    received := summary.received + 1, writeErrors := summary.writeErrors + 1 }

variable (summary : DrainSummary) (taken : Bool)

@[simp] theorem received_dropped : summary.dropped.received = summary.received + 1 := rfl

@[simp] theorem writeErrors_dropped : summary.dropped.writeErrors = summary.writeErrors := rfl

@[simp] theorem received_passed : (summary.passed taken).received = summary.received + 1 := by
  cases taken <;> rfl

@[simp] theorem writeErrors_passed_true :
    (summary.passed true).writeErrors = summary.writeErrors := rfl

end DrainSummary

namespace Drain

variable {drain : Drain} {disk middle next : Disk} {seen : Instant} {record : Record}

theorem handle_of_dropped (h : drain.filter.accepts record.path = false) :
    drain.handle disk seen record = ({ drain with summary := drain.summary.dropped }, disk) := by
  unfold handle
  rw [if_pos (by simp [h])]
  rfl

theorem handle_of_passed (h : drain.filter.accepts record.path = true)
    {logged copied : Except SystemError Unit} {log : TraceLog} {raw : Option BufferedFile}
    (hlog : drain.log.writeRecord disk seen record record.path = (logged, log, middle))
    (hraw : writeRaw drain.raw middle record = (copied, raw, next)) :
    drain.handle disk seen record =
      ({ drain with
        log, raw
        summary := drain.summary.passed (succeeded logged && succeeded copied) }, next) := by
  unfold handle
  rw [if_neg (by simp [h])]
  dsimp only
  rw [hlog]
  dsimp only
  rw [hraw]
  rfl

/-! ## What should come out -/

def matching (filter : PathFilter) (records : List Record) : List Record :=
  records.filter fun record => filter.accepts record.path

/-- The rows of the records that pass a filter, each with the time at which it is seen. -/
def matchingRows (seen : Nat → Instant) (filter : PathFilter) (records : List Record) :
    List Bytes :=
  (records.zipIdx.filter fun (record, _) => filter.accepts record.path).map
    fun (record, number) => TraceLog.rowBytes (seen number) record record.path

variable (times : Nat → Instant) {filter : PathFilter} (done : List Record)

theorem matching_of_dropped (h : filter.accepts record.path = false) :
    matching filter (done ++ [record]) = matching filter done := by
  simp [matching, h]

theorem matching_of_passed (h : filter.accepts record.path = true) :
    matching filter (done ++ [record]) = matching filter done ++ [record] := by
  simp [matching, h]

theorem matchingRows_of_dropped (h : filter.accepts record.path = false) :
    matchingRows times filter (done ++ [record]) = matchingRows times filter done := by
  simp [matchingRows, List.zipIdx_append, h]

theorem matchingRows_of_passed (h : filter.accepts record.path = true) :
    matchingRows times filter (done ++ [record]) =
      matchingRows times filter done ++
        [TraceLog.rowBytes (times done.length) record record.path] := by
  simp [matchingRows, List.zipIdx_append, h]

theorem matchingRows_prefix (filter : PathFilter) {first records : List Record}
    (h : first <+: records) :
    matchingRows times filter first <+: matchingRows times filter records := by
  obtain ⟨rest, rfl⟩ := h
  unfold matchingRows
  rw [List.zipIdx_append, List.filter_append, List.map_append]
  exact List.prefix_append _ _

/-- Each row is that of the record at its place. -/
theorem matchingRows_matching (records : List Record) :
    List.Forall₂ (fun row record => ∃ seen, row = TraceLog.rowBytes seen record record.path)
      (matchingRows times filter records) (matching filter records) := by
  have hmatching : matching filter records =
      (records.zipIdx.filter fun (record, _) => filter.accepts record.path).map Prod.fst := by
    conv_lhs => rw [matching, ← List.zipIdx_map_fst 0 records, List.filter_map]
    rfl
  rw [hmatching, matchingRows, List.forall₂_map_left_iff, List.forall₂_map_right_iff,
    List.forall₂_same]
  exact fun _ _ => ⟨_, rfl⟩

/-- The totals of a drain whose outputs took all they were given. -/
def tally (filter : PathFilter) (records : List Record) : DrainSummary where
  received := records.length
  written := (matching filter records).length
  filtered := (records.filter fun record => !filter.accepts record.path).length

theorem tally_of_dropped (h : filter.accepts record.path = false) :
    tally filter (done ++ [record]) = (tally filter done).dropped := by
  simp [tally, DrainSummary.dropped, matching, h]

theorem tally_of_passed (h : filter.accepts record.path = true) :
    tally filter (done ++ [record]) = (tally filter done).passed true := by
  simp [tally, DrainSummary.passed, matching, h]

theorem tally_balances (filter : PathFilter) (records : List Record) :
    (tally filter records).received =
      (tally filter records).written + (tally filter records).filtered := by
  have hsplit := List.length_eq_length_filter_add (l := records)
    fun record => filter.accepts record.path
  exact hsplit

end Drain

end DentryWatch
