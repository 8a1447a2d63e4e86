import DentryWatch.ExportFailure

/-!
# Reading streams of records

A stream is a concatenation of records. Reads deliver its bytes in pieces of any
size; the reader collects 536 of them for each record, starting over after an
interruption. A bad record does not end the stream; a partial one at the end, or
a failing read, does.
-/

namespace DentryWatch

inductive ReadEvent where
  /-- It delivers at most that many bytes. -/
  | upTo (limit : Nat)
  | interrupted
  | fails (cause : IoFailure)
deriving DecidableEq, Repr

/-- Bytes to be read, and how the next reads go; later reads deliver all they can. -/
structure ByteSource where
  /-- The bytes not yet delivered. -/
  data : Bytes
  /-- How the next reads go. -/
  script : List ReadEvent := []

namespace ByteSource

/-- Delivers and takes away at most that many bytes. -/
def take (source : ByteSource) (limit : Nat) : Bytes × ByteSource :=
  (source.data.take limit, { source with data := source.data.drop limit })

/-- Collects bytes until there are enough or a read delivers none. -/
def collect (need : Nat) (data : Bytes) :
    List ReadEvent → Except IoFailure Bytes × ByteSource
  | [] => (.ok (data.take need), { data := data.drop need })
  | .interrupted :: script => if need = 0 then (.ok [], ⟨data, .interrupted :: script⟩)
      else collect need data script
  | .fails cause :: script => if need = 0 then (.ok [], ⟨data, .fails cause :: script⟩)
      else (.error cause, ⟨data, script⟩)
  | .upTo limit :: script =>
      if need = 0 then (.ok [], ⟨data, .upTo limit :: script⟩)
      else
        let piece := data.take (min limit need)
        if piece.isEmpty then (.ok [], ⟨data, script⟩)
        else
          match collect (need - piece.length) (data.drop piece.length) script with
          | (.ok rest, source) => (.ok (piece ++ rest), source)
          | failed => failed

end ByteSource

structure RecordReader where
  /-- What is read from. -/
  source : ByteSource
  /-- Whether the stream has ended. -/
  finished : Bool := false

namespace RecordReader

/-- The next record or failure, or nothing at the end. -/
def next (reader : RecordReader) :
    Option (Except ExportFailure Record) × RecordReader :=
  if reader.finished then (none, reader)
  else
    match ByteSource.collect recordSize reader.source.data reader.source.script with
    | (.error cause, source) => (some (.error (.io cause)), { source, finished := true })
    | (.ok bytes, source) =>
        if bytes.isEmpty then (none, { source, finished := true })
        else
          let item := match Record.decode bytes with
            | .ok record => .ok record
            | .error cause => .error (.record cause)
          (some item, { source, finished := bytes.length < recordSize })

def itemsWithin : Nat → RecordReader → List (Except ExportFailure Record)
  | 0, _ => []
  | steps + 1, reader =>
      match reader.next with
      | (some item, reader) => item :: itemsWithin steps reader
      | (none, _) => []

/-- All items up to the end. Each but the last takes a whole record. -/
def items (reader : RecordReader) : List (Except ExportFailure Record) :=
  itemsWithin (reader.source.data.length / recordSize + 2) reader

end RecordReader

end DentryWatch
