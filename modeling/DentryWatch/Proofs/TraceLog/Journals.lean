import DentryWatch.Proofs.Runs
import DentryWatch.TraceLog.Basic

/-!
# Journals

A journal is what a log should be: all rows in the order they were written, cut
into volumes. A volume is closed by the row that brings its file to the limit.
-/

namespace DentryWatch.TraceLog

def rowBytes (seen : Instant) (record : Record) (path : String) : Bytes :=
  Utf8.encodeChars (row seen record path.toList)

def fileBytes (rows : List Bytes) : Bytes := headerBytes ++ rows.flatten

/-- The rows of a file that was rotated. -/
structure Volume where
  /-- The rows of the file. -/
  rows : List Bytes
  /-- The size limit at the last row. -/
  limit : Nat
  /-- How many of the rows were written since the file was last opened. -/
  since : Nat

/-- A volume was closed by the first row that brought it to the limit. -/
structure Volume.Due (volume : Volume) : Prop where
  rows_ne_nil : volume.rows ≠ []
  reached : volume.limit ≤ (fileBytes volume.rows).length
  below : volume.since ≠ 1 → (fileBytes volume.rows.dropLast).length < volume.limit

/-- All rows ever written, by the files they went to. -/
structure Journal where
  /-- The volumes of all rotations, the newest first. -/
  volumes : List Volume := []
  /-- The rows of the active file. -/
  active : List Bytes := []
  /-- How many rows were written since the active file was last opened. -/
  since : Nat := 0

namespace Journal

/-- Adds a row, and closes the volume if its file has reached the limit. -/
def append (limit : Nat) (journal : Journal) (row : Bytes) : Journal :=
  let rows := journal.active ++ [row]
  if limit ≤ (fileBytes rows).length then
    { volumes := { rows, limit, since := journal.since + 1 } :: journal.volumes }
  else { journal with active := rows, since := journal.since + 1 }

/-- Opens the active file again. -/
def reopen (journal : Journal) : Journal := { journal with since := 0 }

def rowsOf (volumes : List Volume) : List Bytes := volumes.reverse.flatMap Volume.rows

def rows (journal : Journal) : List Bytes := rowsOf journal.volumes ++ journal.active

theorem rowsOf_cons (volume : Volume) (volumes : List Volume) :
    rowsOf (volume :: volumes) = rowsOf volumes ++ volume.rows := by
  simp [rowsOf]

theorem rowsOf_append (newer older : List Volume) :
    rowsOf (newer ++ older) = rowsOf older ++ rowsOf newer := by
  simp [rowsOf]

theorem append_of_reached {limit : Nat} {journal : Journal} {row : Bytes}
    (h : limit ≤ (fileBytes (journal.active ++ [row])).length) :
    journal.append limit row =
      { volumes := ⟨journal.active ++ [row], limit, journal.since + 1⟩ :: journal.volumes } := by
  rw [append]
  exact if_pos h

theorem append_of_below {limit : Nat} {journal : Journal} {row : Bytes}
    (h : (fileBytes (journal.active ++ [row])).length < limit) :
    journal.append limit row =
      { journal with active := journal.active ++ [row], since := journal.since + 1 } := by
  rw [append]
  exact if_neg (Nat.not_le.2 h)

theorem rows_append (limit : Nat) (journal : Journal) (row : Bytes) :
    (journal.append limit row).rows = journal.rows ++ [row] := by
  by_cases h : limit ≤ (fileBytes (journal.active ++ [row])).length
  · rw [append_of_reached h, rows, rows, rowsOf_cons, List.append_nil, List.append_assoc]
  · rw [append_of_below (Nat.not_le.1 h), rows, rows, List.append_assoc]

theorem length_volumes_append (limit : Nat) (journal : Journal) (row : Bytes) :
    journal.volumes.length ≤ (journal.append limit row).volumes.length := by
  by_cases h : limit ≤ (fileBytes (journal.active ++ [row])).length
  · rw [append_of_reached h]
    exact Nat.le_succ _
  · exact Nat.le_of_eq (by rw [append_of_below (Nat.not_le.1 h)])

/-- All volumes are due, and the active file is not, unless no row was written to it yet. -/
structure Timely (limit : Nat) (journal : Journal) : Prop where
  due : ∀ volume ∈ journal.volumes, volume.Due
  below : journal.since ≠ 0 → (fileBytes journal.active).length < limit

theorem Timely.append {limit : Nat} {journal : Journal} (h : journal.Timely limit) (row : Bytes) :
    (journal.append limit row).Timely limit := by
  by_cases hreached : limit ≤ (fileBytes (journal.active ++ [row])).length
  · rw [append_of_reached hreached]
    refine ⟨?_, fun hsince => absurd rfl hsince⟩
    intro volume hmem
    rcases List.mem_cons.1 hmem with rfl | hmem
    · refine ⟨by simp, hreached, ?_⟩
      intro hsince
      rw [List.dropLast_concat]
      exact h.below fun hzero => hsince (congrArg (· + 1) hzero)
    · exact h.due volume hmem
  · have hbelow := Nat.not_le.1 hreached
    rw [append_of_below hbelow]
    exact ⟨h.due, fun _ => hbelow⟩

end Journal

/-! ## Sessions -/

/-- A call on an open log. -/
inductive LogStep where
  /-- A row is written. -/
  | write (seen : Instant) (record : Record) (path : String)
  /-- The buffer is pushed out. -/
  | flush

def LogStep.run : LogStep → TraceLog × Disk → Except SystemError Unit × (TraceLog × Disk)
  | .write seen record path, (log, disk) => log.writeRecord disk seen record path
  | .flush, (log, disk) => log.flush disk

def LogStep.row? : LogStep → Option Bytes
  | .write seen record path => some (rowBytes seen record path)
  | .flush => none

/-- Opening a log, some calls on it and its end. -/
structure LogSession where
  /-- The size limit. -/
  maxSize : Nat
  /-- The calls. -/
  steps : List LogStep
  /-- Whether the log is closed at the end, and not only released. -/
  closes : Bool

namespace LogSession

def finish (session : LogSession) (log : TraceLog) (disk : Disk) :
    List (Except SystemError Unit) × Disk :=
  let (answers, log, disk) := runAll LogStep.run session.steps (log, disk)
  if session.closes then
    let (answer, disk) := log.close disk
    (answers ++ [answer], disk)
  else (answers, log.drop disk)

/-- Carries a session out. Nothing is called on a log that could not be opened. -/
def run (directory : Path) (maxFiles : Nat) (session : LogSession) (disk : Disk) :
    List (Except SystemError Unit) × Disk :=
  match openIn disk directory session.maxSize maxFiles with
  | (.error code, disk) => ([.error code], disk)
  | (.ok log, disk) =>
      let (answers, disk) := session.finish log disk
      (.ok () :: answers, disk)

def rows (session : LogSession) : List Bytes := session.steps.filterMap LogStep.row?

def record (journal : Journal) (session : LogSession) : Journal :=
  session.rows.foldl (Journal.append session.maxSize) journal.reopen

end LogSession

/-- The journal of sessions one after another. -/
def journalOf (sessions : List LogSession) : Journal := sessions.foldl LogSession.record {}

namespace Journal

theorem rows_foldl (limit : Nat) (journal : Journal) (rows : List Bytes) :
    (rows.foldl (append limit) journal).rows = journal.rows ++ rows := by
  induction rows generalizing journal with
  | nil => exact (List.append_nil _).symm
  | cons row rest ih =>
      rw [List.foldl_cons, ih, rows_append, List.append_assoc, List.singleton_append]

theorem Timely.foldl {limit : Nat} {journal : Journal} (h : journal.Timely limit)
    (rows : List Bytes) : (rows.foldl (Journal.append limit) journal).Timely limit := by
  induction rows generalizing journal with
  | nil => exact h
  | cons row rest ih => exact ih (h.append row)

theorem length_volumes_foldl (limit : Nat) (journal : Journal) (rows : List Bytes) :
    journal.volumes.length ≤ (rows.foldl (append limit) journal).volumes.length := by
  induction rows generalizing journal with
  | nil => exact Nat.le_refl _
  | cons row rest ih => exact Nat.le_trans (length_volumes_append limit journal row) (ih _)

theorem length_volumes_record (journal : Journal) (session : LogSession) :
    journal.volumes.length ≤ (session.record journal).volumes.length :=
  length_volumes_foldl session.maxSize journal.reopen session.rows

theorem rows_sessions (journal : Journal) (sessions : List LogSession) :
    (sessions.foldl LogSession.record journal).rows =
      journal.rows ++ sessions.flatMap LogSession.rows := by
  induction sessions generalizing journal with
  | nil => exact (List.append_nil _).symm
  | cons session rest ih =>
      rw [List.foldl_cons, ih, LogSession.record, rows_foldl, List.flatMap_cons, List.append_assoc]
      rfl

theorem due_sessions {journal : Journal} (sessions : List LogSession)
    (h : ∀ volume ∈ journal.volumes, volume.Due) :
    ∀ volume ∈ (sessions.foldl LogSession.record journal).volumes, volume.Due := by
  induction sessions generalizing journal with
  | nil => exact h
  | cons session rest ih =>
      have hopen : journal.reopen.Timely session.maxSize := ⟨h, fun hsince => absurd rfl hsince⟩
      exact ih (hopen.foldl session.rows).due

theorem length_volumes_sessions (journal : Journal) (sessions : List LogSession) :
    journal.volumes.length ≤ (sessions.foldl LogSession.record journal).volumes.length := by
  induction sessions generalizing journal with
  | nil => exact Nat.le_refl _
  | cons session rest ih => exact Nat.le_trans (length_volumes_record journal session) (ih _)

end Journal

/-- The journal has the rows of all sessions in order. -/
theorem rows_journalOf (sessions : List LogSession) :
    (journalOf sessions).rows = sessions.flatMap LogSession.rows :=
  Journal.rows_sessions {} sessions

/-- Every volume was closed by the first row that brought it to the limit. -/
theorem due_journalOf (sessions : List LogSession) :
    ∀ volume ∈ (journalOf sessions).volumes, volume.Due :=
  Journal.due_sessions sessions fun _ hmem => absurd hmem List.not_mem_nil

/-- The rows of the last session did not bring the active file to the limit. -/
theorem below_journalOf (sessions : List LogSession) :
    ∀ last ∈ sessions.getLast?, (journalOf sessions).since ≠ 0 →
      (fileBytes (journalOf sessions).active).length < last.maxSize := by
  intro last hlast
  obtain ⟨front, rfl⟩ := List.getLast?_eq_some_iff.1 hlast
  have hopen : (journalOf front).reopen.Timely last.maxSize :=
    ⟨due_journalOf front, fun hsince => absurd rfl hsince⟩
  rw [journalOf, List.foldl_append]
  exact (hopen.foldl last.rows).below

end DentryWatch.TraceLog
