import DentryWatch.Proofs.RecordStream.Items
import DentryWatch.Proofs.Runs
import DentryWatch.RecordStream.Writer

/-!
# Schedules of reads do not matter

What a reader yields depends on the bytes and on where their delivery ends, not
on how the reads before are cut. So what a writer wrote is read back.
-/

namespace DentryWatch

/-! ## What a writer wrote -/

/-- A writer to a sink without a limit, after it was given some records. -/
def writeAll (records : List Record) :
    List (Except IoFailure Unit) × RecordWriter LimitedSink :=
  runAll (fun record writer => writer.write LimitedSink.sinks record) records { sink := {} }

theorem runAll_write (records : List Record) (taken : Bytes) (count : Nat) :
    runAll (fun record (writer : RecordWriter LimitedSink) =>
        writer.write LimitedSink.sinks record) records ⟨⟨taken, none⟩, count⟩ =
      (records.map fun _ => .ok (),
        ⟨⟨taken ++ records.flatMap Record.encode, none⟩, count + records.length⟩) := by
  induction records generalizing taken count with
  | nil => simp
  | cons record rest ih =>
      have hwrite : RecordWriter.write LimitedSink.sinks ⟨⟨taken, none⟩, count⟩ record =
          (.ok (), ⟨⟨taken ++ record.encode, none⟩, count + 1⟩) := rfl
      rw [runAll_cons, hwrite, ih]
      simp [Nat.add_comm, Nat.add_left_comm]

theorem writeAll_eq (records : List Record) :
    writeAll records = (records.map fun _ => .ok (),
      ⟨⟨records.flatMap Record.encode, none⟩, records.length⟩) := by
  unfold writeAll
  simpa using runAll_write records [] 0

/-- What is read back of a record. One that counts too many components is refused. -/
def Record.readBack (record : Record) : StreamItem :=
  if record.count ≤ maxDepth then .ok record else .error (.record (.depth record.count))

theorem blockItem_encode (record : Record) : blockItem record.encode = record.readBack := by
  unfold blockItem Record.readBack
  rw [Record.decode_encode]
  split <;> rfl

theorem streamItems_flatMap_encode (records : List Record) :
    streamItems (records.flatMap Record.encode) none = records.map Record.readBack := by
  induction records with
  | nil => rfl
  | cons record rest ih =>
      have hlength := record.encode_length
      have hlong : recordSize ≤ (record.encode ++ rest.flatMap Record.encode).length := by
        rw [List.length_append, hlength]
        omega
      rw [List.flatMap_cons, streamItems_of_long hlong, ← hlength, List.take_left, List.drop_left,
        blockItem_encode, ih]
      rfl

theorem map_readBack (records : List Record)
    (hcount : ∀ record ∈ records, record.count ≤ maxDepth) :
    records.map Record.readBack = records.map .ok :=
  List.map_congr_left fun record hmem => if_pos (hcount record hmem)

theorem streamItems_encoded (records : List Record)
    (hcount : ∀ record ∈ records, record.count ≤ maxDepth) :
    streamItems (records.flatMap Record.encode) none = records.map .ok :=
  (streamItems_flatMap_encode records).trans (map_readBack records hcount)

theorem RecordReader.yields_of_steady (data : Bytes) {script : List ReadEvent}
    (h : ByteSource.Steady script) :
    RecordReader.Yields ⟨⟨data, script⟩, false⟩ (streamItems data none) := by
  have hyields := RecordReader.yields_streamItems data script
    (ByteSource.delivery_of_steady h (Nat.zero_le _))
  rwa [List.take_length] at hyields

/-! ## The headline -/

namespace RecordReader

open ByteSource

/--
A stream whose reads all deliver something, but for interruptions, yields one item for each
whole block and, if bytes are left over, one that tells how many. What a writer wrote is
read back. A failure, or a read that delivers nothing, ends the items behind the whole
blocks that were delivered before it. In each case all further calls answer nothing.
-/
theorem yields_whatever_the_reads :
    (∀ (data : Bytes) (script : List ReadEvent), Steady script →
      Yields ⟨⟨data, script⟩, false⟩ (streamItems data none)) ∧
    (∀ (records : List Record) (script : List ReadEvent),
      (∀ record ∈ records, record.count ≤ maxDepth) → Steady script →
      (∀ answer ∈ (writeAll records).1, answer = .ok ()) ∧
      Yields ⟨⟨(writeAll records).2.sink.taken, script⟩, false⟩ (records.map .ok)) ∧
    (∀ (data : Bytes) (before after : List ReadEvent) (cause : IoFailure) (sofar : Nat),
      Delivers data.length 0 before sofar →
      sofar ≤ data.length ∧
      Yields ⟨⟨data, before ++ .fails cause :: after⟩, false⟩
        (streamItems (data.take sofar) (some cause))) ∧
    ∀ (data : Bytes) (before after : List ReadEvent) (limit sofar : Nat),
      Delivers data.length 0 before sofar → limit = 0 ∨ sofar = data.length →
      sofar ≤ data.length ∧
      Yields ⟨⟨data, before ++ .upTo limit :: after⟩, false⟩
        (streamItems (data.take sofar) none) := by
  have hsteady : ∀ (data : Bytes) (script : List ReadEvent), Steady script →
      Yields ⟨⟨data, script⟩, false⟩ (streamItems data none) :=
    fun data script => yields_of_steady data
  refine ⟨hsteady, ?_, ?_, ?_⟩
  · intro records script hcount h
    rw [writeAll_eq]
    refine ⟨?_, ?_⟩
    · intro answer hmem
      obtain ⟨record, -, hanswer⟩ := List.mem_map.1 hmem
      exact hanswer.symm
    · rw [← streamItems_encoded records hcount]
      exact hsteady _ script h
  · intro data before after cause sofar h
    refine ⟨h.le_total (Nat.zero_le _), ?_⟩
    apply yields_streamItems
    rw [h.delivery_append, delivery]
  · intro data before after limit sofar h hnothing
    refine ⟨h.le_total (Nat.zero_le _), ?_⟩
    have hzero : readSize data.length sofar limit = 0 := by
      unfold readSize
      omega
    apply yields_streamItems
    rw [h.delivery_append, delivery, if_pos hzero]

/-- Reads cut within the second block, which then fail, deliver nothing, or go on to the end. -/
theorem yields_whatever_the_reads_cut :
    let data : Bytes := List.replicate 600 0
    let deep : Record := { depth := Depth.pack 8 true }
    let before : List ReadEvent := [.upTo 536, .interrupted, .upTo 10]
    let boom : IoFailure := .stream "boom"
    Steady before ∧ deep.count ≤ maxDepth ∧ Delivers data.length 0 before 546 ∧
      Yields ⟨⟨data, before⟩, false⟩ (streamItems data none) ∧
      Yields ⟨⟨(writeAll [.zero, deep]).2.sink.taken, before⟩, false⟩ [.ok .zero, .ok deep] ∧
      Yields ⟨⟨data, before ++ [.fails boom, .upTo 7]⟩, false⟩
        (streamItems (data.take 546) (some boom)) ∧
      Yields ⟨⟨data, before ++ [.upTo 0, .upTo 7]⟩, false⟩ (streamItems (data.take 546) none) := by
  intro data deep before boom
  obtain ⟨hcut, hwritten, hfails, hnothing⟩ := yields_whatever_the_reads
  have hsteady : Steady before := by
    intro event hmem
    simp only [before, List.mem_cons, List.not_mem_nil, or_false] at hmem
    rcases hmem with rfl | rfl | rfl
    · exact .inr ⟨536, by decide, rfl⟩
    · exact .inl rfl
    · exact .inr ⟨10, by decide, rfl⟩
  have hdeep : deep.count ≤ maxDepth := by decide
  have hlength : data.length = 600 := List.length_replicate
  have hdelivers : Delivers data.length 0 before 546 := by
    rw [hlength]
    exact .read (by decide) (by decide)
      (.interrupted (.read (by decide) (by decide) (.done 546)))
  have hcount : ∀ record ∈ [Record.zero, deep], record.count ≤ maxDepth := by
    intro record hmem
    simp only [List.mem_cons, List.not_mem_nil, or_false] at hmem
    rcases hmem with rfl | rfl
    · decide
    · exact hdeep
  exact ⟨hsteady, hdeep, hdelivers, hcut data before hsteady,
    (hwritten [.zero, deep] before hcount hsteady).2,
    (hfails data before [.upTo 7] boom 546 hdelivers).2,
    (hnothing data before [.upTo 7] 0 546 hdelivers (.inl rfl)).2⟩

end RecordReader

end DentryWatch
