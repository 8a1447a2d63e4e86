import DentryWatch.ExportFailure
import DentryWatch.PathFilter
import DentryWatch.Ring
import DentryWatch.TraceLog.Basic

/-!
# Draining the trace ring

A drain takes the trace ring in batches, round by round, until a round that began
after the request to stop finds nothing. Records whose path does not pass the
filter are dropped; the others go to the trace log and, if there is one, to a
file of raw records. A record that one of the two refuses counts as an error, and
the other gets it all the same. The outputs are flushed after a round when that
is due, and once more at the end.
-/

namespace DentryWatch

structure DrainSummary where
  /-- Records taken from the ring. -/
  received : Nat := 0
  /-- Records that reached every output. -/
  written : Nat := 0
  /-- Records the filter dropped. -/
  filtered : Nat := 0
  /-- Records that an output refused. -/
  writeErrors : Nat := 0
deriving DecidableEq, Repr

/-- The course of time during a drain. -/
structure DrainSchedule where
  /-- When the `n`-th record is seen. -/
  seen : Nat → Instant
  /-- Whether a flush is due after the `n`-th round. -/
  flushDue : Nat → Bool
  /-- The first round that sees the request to stop. -/
  stopSeen : Nat := 0

structure Drain where
  log : TraceLog
  filter : PathFilter := {}
  raw : Option BufferedFile := none
  /-- What was done so far. -/
  summary : DrainSummary := {}

namespace Drain

def batchSize : Nat := 256

def rawBufferSize : Nat := 8 * 1024

def openRaw (disk : Disk) (path : Path) : Except SystemError (BufferedFile × Disk) := do
  let (handle, disk) ← disk.openFile path .truncate
  .ok ({ handle, capacity := rawBufferSize }, disk)

def writeRaw (raw : Option BufferedFile) (disk : Disk) (record : Record) :
    Except SystemError Unit × Option BufferedFile × Disk :=
  match raw with
  | none => (.ok (), none, disk)
  | some file =>
      let (outcome, file, disk) := file.write disk record.encode
      (outcome, some file, disk)

def flushRaw (raw : Option BufferedFile) (disk : Disk) :
    Except SystemError Unit × Option BufferedFile × Disk :=
  match raw with
  | none => (.ok (), none, disk)
  | some file =>
      let (outcome, file, disk) := file.flush disk
      (outcome, some file, disk)

def succeeded (outcome : Except SystemError Unit) : Bool := outcome.isOk

def handle (drain : Drain) (disk : Disk) (seen : Instant) (record : Record) : Drain × Disk :=
  let summary := { drain.summary with received := drain.summary.received + 1 }
  let path := record.path
  if !drain.filter.accepts path then
    ({ drain with summary := { summary with filtered := summary.filtered + 1 } }, disk)
  else
    let (logged, log, disk) := drain.log.writeRecord disk seen record path
    let (copied, raw, disk) := writeRaw drain.raw disk record
    let summary :=
      if succeeded logged && succeeded copied then
        { summary with written := summary.written + 1 }
      else { summary with writeErrors := summary.writeErrors + 1 }
    ({ drain with log, raw, summary }, disk)

def handleAll (schedule : DrainSchedule) (drain : Drain) (disk : Disk) :
    List Record → Drain × Disk
  | [] => (drain, disk)
  | record :: rest =>
      let (drain, disk) := drain.handle disk (schedule.seen drain.summary.received) record
      handleAll schedule drain disk rest

/-- Flushes both outputs; failures show when the drain ends. -/
def flush (drain : Drain) (disk : Disk) : Drain × Disk :=
  let (_, log, disk) := drain.log.flush disk
  let (_, raw, disk) := flushRaw drain.raw disk
  ({ drain with log, raw }, disk)

/--
Takes a batch in each round, for at most that many rounds. The request to stop is
read before the ring, so a round that saw it and finds nothing is the last one.
-/
def emptyWithin (schedule : DrainSchedule) : Nat → Nat → Drain → Ring → Disk → Drain × Ring × Disk
  | 0, _, drain, ring, disk => (drain, ring, disk)
  | steps + 1, round, drain, ring, disk =>
      let (records, ring) := ring.popBatch batchSize
      if records.isEmpty && schedule.stopSeen ≤ round then (drain, ring, disk)
      else
        let (drain, disk) := handleAll schedule drain disk records
        let (drain, disk) := if schedule.flushDue round then drain.flush disk else (drain, disk)
        emptyWithin schedule steps (round + 1) drain ring disk

/-- Takes everything published from the ring. Each batch with records frees a cell. -/
def empty (schedule : DrainSchedule) (drain : Drain) (ring : Ring) (disk : Disk) :
    Drain × Ring × Disk :=
  emptyWithin schedule (ring.capacity + 1 + schedule.stopSeen) 0 drain ring disk

/-- Releases both outputs without a look at failures. -/
def drop (drain : Drain) (disk : Disk) : Disk :=
  let disk := drain.log.drop disk
  match drain.raw with
  | none => disk
  | some file => file.drop disk

def finish (drain : Drain) (disk : Disk) : Except ExportFailure DrainSummary × Disk :=
  match flushRaw drain.raw disk with
  | (.error code, raw, disk) => (.error (.system code), { drain with raw }.drop disk)
  | (.ok (), _, disk) =>
      match drain.log.close disk with
      | (.error code, disk) => (.error (.system code), disk)
      | (.ok (), disk) => (.ok drain.summary, disk)

def run (schedule : DrainSchedule) (drain : Drain) (ring : Ring) (disk : Disk) :
    Except ExportFailure DrainSummary × Ring × Disk :=
  let (drain, ring, disk) := drain.empty schedule ring disk
  let (outcome, disk) := drain.finish disk
  (outcome, ring, disk)

end Drain

end DentryWatch
