import DentryWatch.Disk.Failure
import DentryWatch.Record.Wire

/-!
# Writing streams of records

A writer hands the bytes of each record to a sink and counts the records that the
sink took whole.
-/

namespace DentryWatch

/-- A sink for bytes with states in `σ`. -/
structure Sink (σ : Type) where
  /-- Takes bytes, or as many of them as fit before it fails. -/
  write : σ → Bytes → Except IoFailure Unit × σ
  /-- Hands on what it holds back. -/
  flush : σ → Except IoFailure Unit

structure RecordWriter (σ : Type) where
  sink : σ
  records : Nat := 0

namespace RecordWriter

variable {σ : Type}

def write (sinks : Sink σ) (writer : RecordWriter σ) (record : Record) :
    Except IoFailure Unit × RecordWriter σ :=
  match sinks.write writer.sink record.encode with
  | (.ok (), sink) => (.ok (), { sink, records := writer.records + 1 })
  | (.error cause, sink) => (.error cause, { writer with sink })

end RecordWriter

structure LimitedSink where
  taken : Bytes := []
  /-- How many more are taken, if there is a limit. -/
  room : Option Nat := none

namespace LimitedSink

/-- Takes what fits, and fails if that is not all. -/
def write (sink : LimitedSink) (bytes : Bytes) : Except IoFailure Unit × LimitedSink :=
  match sink.room with
  | none => (.ok (), { sink with taken := sink.taken ++ bytes })
  | some room =>
      let sink : LimitedSink :=
        { taken := sink.taken ++ bytes.take room, room := some (room - bytes.length) }
      if room < bytes.length then (.error .wroteNothing, sink) else (.ok (), sink)

/-- Fails when nothing more is taken. -/
def flush (sink : LimitedSink) : Except IoFailure Unit :=
  if sink.room = some 0 then .error (.stream "sink full") else .ok ()

def sinks : Sink LimitedSink := ⟨write, flush⟩

end LimitedSink

end DentryWatch
