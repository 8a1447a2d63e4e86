import DentryWatch.Proofs.Disk.Refusals
import DentryWatch.Proofs.TraceLog.Outputs

/-!
# Ledgers

A ledger notes the rows whose calls went well since the open file of a log was begun.
Whichever pushes of the buffer are turned away, and for whatever cause a rotation fails,
the stream of the log is what its ledger says: a failed call leaves the stream and both
counters as they were, and a failed rotation keeps the row before it.
-/

namespace DentryWatch.TraceLog

abbrev LogState := (TraceLog × Disk) × Refusals

def LogStep.runUnder : LogStep → LogState → Except SystemError Unit × LogState
  | .write seen record path, ((log, disk), refusals) =>
      let ((answer, next), rest) := log.writeRecordUnder refusals disk seen record path
      (answer, (next, rest))
  | .flush, ((log, disk), refusals) =>
      let ((answer, next), rest) := log.flushUnder refusals disk
      (answer, (next, rest))

/-- What a log begins with on a file with these bytes. -/
def opening (held : Bytes) : Bytes := if held = [] then headerBytes else held

/-- How the write of a row goes. -/
inductive Outcome where
  /-- The call fails. -/
  | refused (cause : SystemError)
  /-- The row is taken. No rotation is due, or the one that is due fails. -/
  | kept
  /-- The row is taken, and the rotation behind it succeeds. -/
  | turned
deriving DecidableEq

def outcomeUnder (refusals : Refusals) (log : TraceLog) (disk : Disk) (row : Bytes) : Outcome :=
  match log.out.writeUnder refusals disk row with
  | ((.error cause, _, _), _) => .refused cause
  | ((.ok (), out, disk), refusals) =>
      if log.maxSize ≤ log.size + row.length then
        match ((log.written out row).rotateUnder refusals disk).1.1 with
        | .ok () => .turned
        | .error _ => .kept
      else .kept

/-- What an outcome means for the caller, the stream and the counters. -/
inductive Outcome.Shows (log : TraceLog) (disk : Disk) (row : Bytes) :
    Outcome → Except SystemError Unit → TraceLog → Disk → Prop
  | refused {cause : SystemError} {next : TraceLog} {after : Disk}
      (stream : next.stream after = log.stream disk) (size : next.size = log.size)
      (rows : next.rows = log.rows) :
      Shows log disk row (.refused cause) (.error cause) next after
  | kept {next : TraceLog} {after : Disk} (stream : next.stream after = log.stream disk ++ row)
      (rows : next.rows = log.rows + 1) : Shows log disk row .kept (.ok ()) next after
  | turned {next : TraceLog} {after : Disk}
      (held : after.held log.out.handle = log.stream disk ++ row)
      (stream : next.stream after = opening (after.held next.out.handle))
      (rows : next.rows = log.rows + 1) : Shows log disk row .turned (.ok ()) next after

/-- What the open file is due: what it was begun with, and the rows taken since. -/
structure Ledger where
  start : Bytes
  rows : List Bytes := []

namespace Ledger

def bytes (ledger : Ledger) : Bytes := ledger.start ++ ledger.rows.flatten

/-- Notes a row. After a rotation that succeeds, the ledger is that of the new file. -/
def add (ledger : Ledger) (row fresh : Bytes) : Outcome → Ledger
  | .refused _ => ledger
  | .kept => { ledger with rows := ledger.rows ++ [row] }
  | .turned => { start := opening fresh }

def note (ledger : Ledger) : LogStep → LogState → Ledger
  | .flush, _ => ledger
  | .write seen record path, ((log, disk), refusals) =>
      let row := rowBytes seen record path
      let ((_, next, after), _) := log.writeRecordUnder refusals disk seen record path
      ledger.add row (after.held next.out.handle) (log.outcomeUnder refusals disk row)

def noteAll (ledger : Ledger) : List LogStep → LogState → Ledger
  | [], _ => ledger
  | step :: rest, state => (ledger.note step state).noteAll rest (step.runUnder state).2

/-- A log has what the ledger says, and has counted its bytes. -/
structure Balances (ledger : Ledger) (log : TraceLog) (disk : Disk) : Prop where
  appends : log.out.handle.Appends
  stream : log.stream disk = ledger.bytes
  size : log.size = (log.stream disk).length

theorem bytes_add_kept (ledger : Ledger) (row fresh : Bytes) :
    (ledger.add row fresh .kept).bytes = ledger.bytes ++ row := by
  rw [add, bytes, bytes, List.flatten_append, List.flatten_singleton, List.append_assoc]

end Ledger

def LogStep.taken? (step : LogStep) (answer : Except SystemError Unit) : Option Bytes :=
  match answer with
  | .ok () => step.row?
  | .error _ => none

/-- The rows of the calls that were answered well. -/
def acknowledged (steps : List LogStep) (answers : List (Except SystemError Unit)) : List Bytes :=
  (steps.zip answers).filterMap fun called => called.1.taken? called.2

variable {log next : TraceLog} {disk middle after : Disk} {directory : Path} {out : BufferedFile}
  {refusals left rest : Refusals} {answer : Except SystemError Unit} {seen : Instant}
  {record : Record} {path : String} {ledger : Ledger}

/-! ## Without refusals -/

theorem LogStep.runUnder_nil (step : LogStep) (state : TraceLog × Disk) :
    step.runUnder (state, []) = ((step.run state).1, ((step.run state).2, [])) := by
  obtain ⟨log, disk⟩ := state
  cases step with
  | write seen record path => simp only [runUnder, run, writeRecordUnder_nil]
  | flush => simp only [runUnder, run, flushUnder_nil]

theorem writeRecordUnder_of_run
    (hrun : LogStep.runUnder (.write seen record path) ((log, disk), refusals) =
      (answer, ((next, after), rest))) :
    log.writeRecordUnder refusals disk seen record path = ((answer, next, after), rest) := by
  rcases hwrite : log.writeRecordUnder refusals disk seen record path with ⟨⟨written, state⟩, left⟩
  rw [LogStep.runUnder, hwrite] at hrun
  cases hrun
  rfl

theorem flushUnder_of_run
    (hrun : LogStep.runUnder .flush ((log, disk), refusals) = (answer, ((next, after), rest))) :
    log.flushUnder refusals disk = ((answer, next, after), rest) := by
  rcases hflush : log.flushUnder refusals disk with ⟨⟨flushed, state⟩, left⟩
  rw [LogStep.runUnder, hflush] at hrun
  cases hrun
  rfl

/-- The runs of a log are those under no refusals. -/
theorem runAll_runUnder_nil (steps : List LogStep) (state : TraceLog × Disk) :
    runAll LogStep.runUnder steps (state, []) =
      ((runAll LogStep.run steps state).1, ((runAll LogStep.run steps state).2, [])) := by
  induction steps generalizing state with
  | nil => rfl
  | cons step rest ih => simp only [runAll_cons, LogStep.runUnder_nil, ih]

/-! ## Rotations -/

/-- What a rotation does to the stream. -/
inductive Rotated (log : TraceLog) (disk : Disk) : Except SystemError Unit → TraceLog → Disk → Prop
  | failed {cause : SystemError} {next : TraceLog} {after : Disk}
      (handle : next.out.handle = log.out.handle) (stream : next.stream after = log.stream disk)
      (size : next.size = log.size) (rows : next.rows = log.rows) :
      Rotated log disk (.error cause) next after
  | succeeded {next : TraceLog} {after : Disk}
      (appends : next.out.handle.Appends) (held : after.held log.out.handle = log.stream disk)
      (stream : next.stream after = opening (after.held next.out.handle))
      (size : next.size = (next.stream after).length) (rows : next.rows = log.rows) :
      Rotated log disk (.ok ()) next after

theorem held_retire (log : TraceLog) (disk : Disk) (handle : Handle) :
    (log.retire disk).2.held handle = disk.held handle := by
  have hbytes := (sameBytes_retire log disk).contents
  cases handle <;> simp [Disk.held, Disk.content, hbytes]

/-- Opening the active file changes the bytes of no file. -/
structure Begins (disk : Disk) (out : BufferedFile) (size : Nat) (after : Disk) : Prop where
  appends : out.handle.Appends
  stream : out.stream after = opening (after.held out.handle)
  size : size = (out.stream after).length
  held : ∀ handle, after.held handle = disk.held handle

theorem openActive_begins {size : Nat}
    (hopen : openActive disk directory = .ok (out, size, after)) :
    Begins disk out size after := by
  obtain ⟨location, hopens, -, -, hsize⟩ := openActive_output hopen
  have happends : out.handle.Appends := by
    intro inode position hhandle
    rcases hopens.fresh with hfull | ⟨file, hfile⟩
    · rw [hfull] at hhandle
      cases hhandle
    · rw [hfile] at hhandle
      cases hhandle
  refine ⟨happends, ?_, hsize, ?_⟩
  · rw [BufferedFile.stream_of_appends happends, opening]
    unfold openActive at hopen
    cases hfile : disk.openFile (activeIn directory) .append with
    | error cause =>
        rw [hfile] at hopen
        cases hopen
    | ok opened =>
        rw [hfile, Disk.ok_bind] at hopen
        dsimp only at hopen
        rw [Disk.size_eq_length] at hopen
        split at hopen
        · next hempty =>
            have hnothing := List.eq_nil_of_length_eq_zero hempty
            cases hopen
            rw [if_pos hnothing, hnothing, List.nil_append]
        · next hfilled =>
            cases hopen
            rw [if_neg fun hnothing => hfilled (congrArg List.length hnothing), List.append_nil]
  · intro handle
    cases handle with
    | atEnd inode => exact hopens.kept inode (.inr rfl)
    | fromPosition inode position => exact hopens.kept inode (.inr rfl)
    | full => rfl

/-- How a rotation goes, call by call. -/
inductive Rotates (log : TraceLog) (refusals : Refusals) (disk : Disk) :
    Except SystemError Unit → TraceLog → Disk → Refusals → Prop
  | refused {cause : SystemError} {out : BufferedFile} {after : Disk} {rest : Refusals}
      (flush : log.out.flushUnder refusals disk = ((.error cause, out, after), rest)) :
      Rotates log refusals disk (.error cause) { log with out } after rest
  | stuck {cause : SystemError} {out : BufferedFile} {flushed after : Disk} {rest : Refusals}
      (flush : log.out.flushUnder refusals disk = ((.ok (), out, flushed), rest))
      (retire : TraceLog.retire { log with out } flushed = (.error cause, after)) :
      Rotates log refusals disk (.error cause) { log with out } after rest
  | unopened {cause : SystemError} {out : BufferedFile} {flushed after : Disk} {rest : Refusals}
      (flush : log.out.flushUnder refusals disk = ((.ok (), out, flushed), rest))
      (retire : TraceLog.retire { log with out } flushed = (.ok (), after))
      (opening : openActive after log.directory = .error cause) :
      Rotates log refusals disk (.error cause) { log with out } after rest
  | turned {out fresh : BufferedFile} {flushed retired after : Disk} {size : Nat}
      {rest : Refusals} (flush : log.out.flushUnder refusals disk = ((.ok (), out, flushed), rest))
      (retire : TraceLog.retire { log with out } flushed = (.ok (), retired))
      (opening : openActive retired log.directory = .ok (fresh, size, after)) :
      Rotates log refusals disk (.ok ()) { log with out := fresh, size } after rest

theorem rotates_of_rotateUnder
    (hrotate : log.rotateUnder refusals disk = ((answer, next, after), rest)) :
    Rotates log refusals disk answer next after rest := by
  unfold rotateUnder at hrotate
  rcases hflush : log.out.flushUnder refusals disk with ⟨⟨cause | done, out, flushed⟩, left⟩
  · rw [hflush] at hrotate
    cases hrotate
    exact .refused hflush
  rw [hflush] at hrotate
  dsimp only at hrotate
  rcases hretire : TraceLog.retire { log with out } flushed with ⟨cause | done, retired⟩
  · rw [hretire] at hrotate
    cases hrotate
    exact .stuck hflush hretire
  rw [hretire] at hrotate
  dsimp only at hrotate
  cases hopen : openActive retired log.directory with
  | error cause =>
      rw [hopen] at hrotate
      cases hrotate
      exact .unopened hflush hretire hopen
  | ok opened =>
      rw [hopen] at hrotate
      cases hrotate
      exact .turned hflush hretire hopen

/-- With nothing in the buffer the old file has the stream, whatever names it has now. -/
theorem stream_of_retire {flushed retired : Disk} (happends : log.out.handle.Appends)
    (hflush : log.out.flushUnder refusals disk = ((.ok (), out, flushed), rest))
    (hretire : TraceLog.retire { log with out } flushed = (answer, retired)) :
    out.handle = log.out.handle ∧ retired.held log.out.handle = log.stream disk ∧
      out.stream retired = log.stream disk := by
  obtain ⟨hmoved, hempty⟩ := BufferedFile.flushUnder_moved happends hflush
  have hpushed : ∀ disk : Disk, out.stream disk = disk.held log.out.handle := by
    intro disk
    rw [BufferedFile.stream_of_appends (hmoved.appends happends), hempty rfl, List.append_nil,
      hmoved.handle]
  have hstream : out.stream flushed = log.stream disk :=
    (hmoved.stream happends).trans (List.append_nil _)
  have hheld := held_retire { log with out } flushed log.out.handle
  rw [hretire, ← hpushed flushed, hstream] at hheld
  exact ⟨hmoved.handle, hheld, (hpushed retired).trans hheld⟩

theorem Rotates.rotated (h : Rotates log refusals disk answer next after rest)
    (happends : log.out.handle.Appends) : Rotated log disk answer next after := by
  cases h with
  | refused flush =>
      have hmoved := (BufferedFile.flushUnder_moved happends flush).1
      exact .failed hmoved.handle ((hmoved.stream happends).trans (List.append_nil _)) rfl rfl
  | stuck flush retire =>
      obtain ⟨hhandle, -, hstream⟩ := stream_of_retire happends flush retire
      exact .failed hhandle hstream rfl rfl
  | unopened flush retire opening =>
      obtain ⟨hhandle, -, hstream⟩ := stream_of_retire happends flush retire
      exact .failed hhandle hstream rfl rfl
  | turned flush retire opening =>
      obtain ⟨-, hheld, -⟩ := stream_of_retire happends flush retire
      have hbegins := openActive_begins opening
      exact .succeeded hbegins.appends ((hbegins.held _).trans hheld) hbegins.stream hbegins.size rfl

/-! ## Calls -/

/-- How the write of a row goes, call by call. -/
inductive Writes (log : TraceLog) (refusals : Refusals) (disk : Disk) (row : Bytes) :
    Except SystemError Unit → TraceLog → Disk → Refusals → Outcome → Prop
  | refused {cause : SystemError} {out : BufferedFile} {after : Disk} {rest : Refusals}
      (write : log.out.writeUnder refusals disk row = ((.error cause, out, after), rest)) :
      Writes log refusals disk row (.error cause) { log with out } after rest (.refused cause)
  | kept {out : BufferedFile} {after : Disk} {rest : Refusals}
      (write : log.out.writeUnder refusals disk row = ((.ok (), out, after), rest)) :
      Writes log refusals disk row (.ok ()) (log.written out row) after rest .kept
  | unturned {cause : SystemError} {out : BufferedFile} {middle after : Disk} {next : TraceLog}
      {left rest : Refusals}
      (write : log.out.writeUnder refusals disk row = ((.ok (), out, middle), left))
      (rotate : Rotates (log.written out row) left middle (.error cause) next after rest) :
      Writes log refusals disk row (.ok ()) next after rest .kept
  | turned {out : BufferedFile} {middle after : Disk} {next : TraceLog} {left rest : Refusals}
      (write : log.out.writeUnder refusals disk row = ((.ok (), out, middle), left))
      (rotate : Rotates (log.written out row) left middle (.ok ()) next after rest) :
      Writes log refusals disk row (.ok ()) next after rest .turned

theorem writes_of_writeRecordUnder
    (hwrite : log.writeRecordUnder refusals disk seen record path = ((answer, next, after), rest)) :
    Writes log refusals disk (rowBytes seen record path) answer next after rest
      (log.outcomeUnder refusals disk (rowBytes seen record path)) := by
  rw [writeRecordUnder, ← rowBytes] at hwrite
  dsimp only at hwrite
  rw [outcomeUnder]
  generalize rowBytes seen record path = row at hwrite ⊢
  rcases hout : log.out.writeUnder refusals disk row with ⟨⟨cause | done, out, middle⟩, left⟩
  · rw [hout] at hwrite
    cases hwrite
    exact .refused hout
  rw [hout] at hwrite
  dsimp only at hwrite ⊢
  split at hwrite
  · next hdue =>
      rw [if_pos hdue]
      rcases hrotate : (log.written out row).rotateUnder left middle with
        ⟨⟨rotated, fresh, last⟩, unused⟩
      have hrotates := rotates_of_rotateUnder hrotate
      unfold written at hrotate
      rw [hrotate] at hwrite
      cases hwrite
      cases rotated with
      | error cause => exact .unturned hout hrotates
      | ok done => exact .turned hout hrotates
  · next hdue =>
      rw [if_neg hdue]
      cases hwrite
      exact .kept hout

theorem Ledger.Balances.written {row : Bytes} (h : ledger.Balances log disk)
    (hout : log.out.writeUnder refusals disk row = ((.ok (), out, middle), left)) :
    out.handle = log.out.handle ∧
      (log.written out row).stream middle = log.stream disk ++ row ∧
      (log.written out row).size = (log.stream disk ++ row).length := by
  have hmoved := BufferedFile.writeUnder_moved h.appends hout
  refine ⟨hmoved.handle, hmoved.stream h.appends, ?_⟩
  rw [List.length_append, ← h.size]
  rfl

/-- What a write leaves is in balance, and it went as its outcome says. -/
theorem Ledger.Balances.write {row : Bytes} {outcome : Outcome} (h : ledger.Balances log disk)
    (hwrites : Writes log refusals disk row answer next after rest outcome) :
    outcome.Shows log disk row answer next after ∧ next.out.handle.Appends ∧
      next.size = (next.stream after).length := by
  cases hwrites with
  | refused write =>
      have hmoved := BufferedFile.writeUnder_moved h.appends write
      have hsame : _ = log.stream disk := (hmoved.stream h.appends).trans (List.append_nil _)
      exact ⟨.refused hsame rfl rfl, hmoved.appends h.appends, h.size.trans (congrArg _ hsame.symm)⟩
  | kept write =>
      obtain ⟨hhandle, hstream, hsize⟩ := h.written write
      exact ⟨.kept hstream rfl, hhandle ▸ h.appends, by rw [hsize, hstream]⟩
  | unturned write rotate =>
      obtain ⟨hhandle, hstream, hsize⟩ := h.written write
      cases rotate.rotated (hhandle ▸ h.appends) with
      | failed handle stream size rows =>
          rw [hstream] at stream
          exact ⟨.kept stream rows, (handle.trans hhandle) ▸ h.appends, by rw [size, hsize, stream]⟩
  | turned write rotate =>
      obtain ⟨hhandle, hstream, hsize⟩ := h.written write
      cases rotate.rotated (hhandle ▸ h.appends) with
      | succeeded appends held stream size rows =>
          have hold : (log.written _ row).out.handle = log.out.handle := hhandle
          rw [hstream, hold] at held
          exact ⟨.turned held stream rows, appends, size⟩

theorem Ledger.Balances.flush (h : ledger.Balances log disk)
    (hflush : log.flushUnder refusals disk = ((answer, next, after), rest)) :
    ledger.Balances next after ∧ next.rows = log.rows ∧
      (answer = .ok () → after.held next.out.handle = ledger.bytes) := by
  rcases hout : log.out.flushUnder refusals disk with ⟨⟨flushed, out, middle⟩, left⟩
  obtain ⟨hmoved, hempty⟩ := BufferedFile.flushUnder_moved h.appends hout
  have happends := hmoved.appends h.appends
  have hsame : out.stream middle = log.stream disk :=
    (hmoved.stream h.appends).trans (List.append_nil _)
  rw [flushUnder, hout] at hflush
  cases hflush
  refine ⟨⟨happends, hsame.trans h.stream, h.size.trans (congrArg _ hsame.symm)⟩, rfl, ?_⟩
  intro hok
  rw [BufferedFile.stream_of_appends happends, hempty hok, List.append_nil] at hsame
  exact hsame.trans h.stream

theorem Ledger.Balances.close (h : ledger.Balances log disk)
    (hclose : log.closeUnder refusals disk = ((.ok (), after), rest)) :
    after.held log.out.handle = ledger.bytes := by
  rcases hout : log.out.flushUnder refusals disk with ⟨⟨flushed, out, middle⟩, left⟩
  obtain ⟨hmoved, hempty⟩ := BufferedFile.flushUnder_moved h.appends hout
  have hflush : log.flushUnder refusals disk = ((flushed, { log with out }, middle), left) := by
    rw [flushUnder, hout]
  have hheld := (h.flush hflush).2.2
  rw [closeUnder, hout] at hclose
  cases flushed with
  | error cause => cases hclose
  | ok done =>
      dsimp only at hclose
      rw [BufferedFile.dropUnder_of_empty (hempty rfl)] at hclose
      have hlast : middle = after := congrArg (fun closed => closed.1.2) hclose
      rw [← hlast, ← hmoved.handle]
      exact hheld rfl

/-! ## Runs -/

theorem acknowledged_cons (step : LogStep) (steps : List LogStep)
    (answer : Except SystemError Unit) (answers : List (Except SystemError Unit)) :
    acknowledged (step :: steps) (answer :: answers) =
      (step.taken? answer).toList ++ acknowledged steps answers := by
  rw [acknowledged, List.zip_cons_cons, List.filterMap_cons]
  dsimp only
  cases step.taken? answer <;> rfl

/-- A call keeps the balance with what is noted of it. -/
theorem Ledger.Balances.run (h : ledger.Balances log disk) {step : LogStep}
    (hrun : step.runUnder ((log, disk), refusals) = (answer, ((next, after), rest))) :
    (ledger.note step ((log, disk), refusals)).Balances next after ∧
      next.rows = log.rows + (step.taken? answer).toList.length ∧
      (ledger.note step ((log, disk), refusals)).rows <:+
        ledger.rows ++ (step.taken? answer).toList := by
  cases step with
  | flush =>
      obtain ⟨hnext, hrows, -⟩ := h.flush (flushUnder_of_run hrun)
      have hnone : LogStep.taken? .flush answer = none := by
        cases answer <;> rfl
      rw [hnone]
      refine ⟨hnext, hrows, ?_⟩
      rw [Option.toList_none, List.append_nil]
      exact List.suffix_rfl
  | write seen record path =>
      have hwrite := writeRecordUnder_of_run hrun
      obtain ⟨hshows, happends, hsize⟩ := h.write (writes_of_writeRecordUnder hwrite)
      simp only [note, hwrite]
      generalize log.outcomeUnder refusals disk (rowBytes seen record path) = outcome at hshows ⊢
      cases hshows with
      | refused stream size rows =>
          refine ⟨⟨happends, stream.trans h.stream, hsize⟩, rows, ?_⟩
          rw [LogStep.taken?, Option.toList_none, List.append_nil]
          exact List.suffix_rfl
      | kept stream rows =>
          refine ⟨⟨happends, ?_, hsize⟩, rows, List.suffix_rfl⟩
          rw [stream, h.stream, bytes_add_kept]
      | turned held stream rows =>
          exact ⟨⟨happends, stream.trans (List.append_nil _).symm, hsize⟩, rows, List.nil_suffix⟩

theorem Ledger.Balances.runAll (h : ledger.Balances log disk) (steps : List LogStep)
    {answers : List (Except SystemError Unit)}
    (hrun : runAll LogStep.runUnder steps ((log, disk), refusals) =
      (answers, ((next, after), rest))) :
    (ledger.noteAll steps ((log, disk), refusals)).Balances next after ∧
      next.rows = log.rows + (acknowledged steps answers).length ∧
      (ledger.noteAll steps ((log, disk), refusals)).rows <:+
        ledger.rows ++ acknowledged steps answers := by
  induction steps generalizing ledger log disk refusals answers with
  | nil =>
      cases hrun
      refine ⟨h, rfl, ?_⟩
      rw [acknowledged, List.zip_nil_left, List.filterMap_nil, List.append_nil]
      exact List.suffix_rfl
  | cons step more ih =>
      rcases hstep : step.runUnder ((log, disk), refusals) with ⟨first, ⟨⟨fresh, middle⟩, left⟩⟩
      rcases hmore : DentryWatch.runAll LogStep.runUnder more ((fresh, middle), left) with
        ⟨others, ⟨⟨last, final⟩, unused⟩⟩
      rw [runAll_cons, hstep, hmore] at hrun
      cases hrun
      obtain ⟨hnext, hrows, hsuffix⟩ := h.run hstep
      obtain ⟨hlast, hrows', hsuffix'⟩ := ih hnext hmore
      rw [noteAll, hstep, acknowledged_cons]
      refine ⟨hlast, ?_, ?_⟩
      · rw [hrows', hrows, List.length_append, Nat.add_assoc]
      · obtain ⟨before, hbefore⟩ := hsuffix
        refine hsuffix'.trans ⟨before, ?_⟩
        rw [← List.append_assoc, hbefore, List.append_assoc]

end DentryWatch.TraceLog
