import DentryWatch.Record.Basic

/-!
# The wire form of records

A record takes 536 bytes whatever its depth, words little-endian:

    offset  size  field
         0     8  timestamp
         8     8  group
        16     4  operation code
        20     4  depth
        24   512  eight slots of 64 bytes, leaf first

Decoding reads from the front of a byte string and ignores what follows.
-/

namespace DentryWatch

def recordSize : Nat := 24 + maxDepth * slotWidth

inductive RecordError where
  /-- It is shorter than a record. -/
  | truncated (got : Nat)
  | operation (code : UInt32)
  /-- The component count exceeds the eight slots. -/
  | depth (count : Nat)
deriving DecidableEq, Repr

namespace RecordError

def message : RecordError → String
  | truncated got => s!"record too short: {got} bytes, expected {recordSize}"
  | operation code => s!"unknown operation code {code}"
  | depth count => s!"depth count {count} exceeds the {maxDepth}-component limit"

end RecordError

namespace Record

def encode (record : Record) : Bytes :=
  Bytes.ofWord64 record.timestamp ++
    (Bytes.ofWord64 record.group ++
      (Bytes.ofWord32 record.operation.code ++
        (Bytes.ofWord32 record.depth ++ record.slots.toList.flatMap NameSlot.raw)))

/-- The slot of 64 bytes at an offset. Bytes that are missing read as zero. -/
def slotAt (bytes : Bytes) (offset : Nat) : NameSlot where
  raw := ((bytes.drop offset).take slotWidth).rightpad slotWidth 0
  raw_length := by
    simp only [List.length_rightpad, List.length_take]
    omega

def decode (bytes : Bytes) : Except RecordError Record :=
  if bytes.length < recordSize then
    .error (.truncated bytes.length)
  else
    match Operation.ofCode? (Bytes.word32At bytes 16) with
    | none => .error (.operation (Bytes.word32At bytes 16))
    | some operation =>
        let depth : Depth := Bytes.word32At bytes 20
        if maxDepth < depth.count then
          .error (.depth depth.count)
        else
          .ok {
            timestamp := Bytes.word64At bytes 0
            group := Bytes.word64At bytes 8
            operation
            depth
            slots := Vector.ofFn fun i => slotAt bytes (24 + i * slotWidth) }

theorem slotBytes_length (slots : List NameSlot) :
    (slots.flatMap NameSlot.raw).length = slots.length * slotWidth := by
  induction slots with
  | nil => simp
  | cons slot rest ih => simp [ih, slot.raw_length, Nat.add_mul, Nat.add_comm]

theorem encode_length (record : Record) : record.encode.length = recordSize := by
  simp only [encode, List.length_append, Bytes.ofWord64_length, Bytes.ofWord32_length,
    slotBytes_length, Vector.length_toList, recordSize]
  omega

end Record

end DentryWatch
