import DentryWatch.Proofs.RecordStream.Schedules

/-!
# Streams on sinks that fill up

A sink with room for so many bytes takes the beginning of the stream up to its
limit, a record torn by the limit included. The writer counts the records that
were taken whole, and a reader gives these and tells how much is left of the torn
one.
-/

namespace DentryWatch

namespace RecordWriter

variable {σ : Type}

/-- The answer to a record, and how many records are counted then. -/
def report (sinks : Sink σ) (record : Record) (writer : RecordWriter σ) :
    (Except IoFailure Unit × Nat) × RecordWriter σ :=
  let (answer, writer) := writer.write sinks record
  ((answer, writer.records), writer)

theorem records_report (sinks : Sink σ) (record : Record) (writer : RecordWriter σ) :
    (writer.report sinks record).2.records = writer.records +
      if (writer.report sinks record).1.1.isOk then 1 else 0 := by
  unfold report write
  rcases sinks.write writer.sink record.encode with ⟨⟨_⟩ | ⟨_⟩, sink⟩ <;> rfl

/-- Whatever the sink, a writer counts the calls that went well so far. -/
theorem count_runAll (sinks : Sink σ) (records : List Record) (writer : RecordWriter σ) (i : Nat)
    {answer : Except IoFailure Unit × Nat}
    (h : (runAll (report sinks) records writer).1[i]? = some answer) :
    answer.2 = writer.records +
      ((runAll (report sinks) records writer).1.take (i + 1)).countP (·.1.isOk) := by
  induction records generalizing writer i with
  | nil => cases h
  | cons record rest ih =>
      have hfirst := writer.records_report sinks record
      rw [runAll_cons, List.take_succ_cons, List.countP_cons] at *
      cases i with
      | zero =>
          rw [List.getElem?_cons_zero, Option.some.injEq] at h
          subst h
          rw [List.take_zero, List.countP_nil, Nat.zero_add]
          exact hfirst
      | succ i =>
          rw [List.getElem?_cons_succ] at h
          rw [ih _ i h, hfirst]
          omega

end RecordWriter

open RecordWriter

/-- A writer to a sink with room for that many bytes, after it was given some records. -/
def writeUpTo (limit : Nat) (records : List Record) :
    List (Except IoFailure Unit × Nat) × RecordWriter LimitedSink :=
  runAll (report LimitedSink.sinks) records { sink := { room := some limit } }

section

variable (taken : Bytes) (count : Nat) (record : Record)

theorem report_of_room {room : Nat} (h : recordSize ≤ room) :
    report LimitedSink.sinks record ⟨⟨taken, some room⟩, count⟩ =
      ((.ok (), count + 1), ⟨⟨taken ++ record.encode, some (room - recordSize)⟩, count + 1⟩) := by
  have hlength := record.encode_length
  have hall : record.encode.take room = record.encode := List.take_of_length_le (by omega)
  simp only [report, write, LimitedSink.sinks, LimitedSink.write, hall, hlength,
    if_neg (Nat.not_lt.2 h)]

theorem report_of_full {room : Nat} (h : room < recordSize) :
    report LimitedSink.sinks record ⟨⟨taken, some room⟩, count⟩ =
      ((.error .wroteNothing, count),
        ⟨⟨taken ++ record.encode.take room, some 0⟩, count⟩) := by
  have hnone : room - recordSize = 0 := by omega
  simp only [report, write, LimitedSink.sinks, LimitedSink.write, record.encode_length, hnone,
    if_pos h]

end

/-- The stream goes into the sink up to its limit. -/
theorem taken_runAll (records : List Record) (taken : Bytes) (room count : Nat) :
    (runAll (report LimitedSink.sinks) records ⟨⟨taken, some room⟩, count⟩).2.sink.taken =
      taken ++ (records.flatMap Record.encode).take room := by
  induction records generalizing taken room count with
  | nil => simp
  | cons record rest ih =>
      have hlength := record.encode_length
      rw [runAll_cons, List.flatMap_cons, List.take_append, hlength]
      rcases Nat.lt_or_ge room recordSize with hfull | hroom
      · have hnone : room - recordSize = 0 := by omega
        rw [report_of_full taken count record hfull, ih, hnone]
        simp
      · rw [report_of_room taken count record hroom, ih,
          List.take_of_length_le (Nat.le_trans (Nat.le_of_eq hlength) hroom), List.append_assoc]

/-- The records that fit whole are acknowledged, and no later one is. -/
theorem answers_runAll (records : List Record) (taken : Bytes) (room count : Nat) :
    (runAll (report LimitedSink.sinks) records ⟨⟨taken, some room⟩, count⟩).1.map Prod.fst =
      List.replicate (min records.length (room / recordSize)) (.ok ()) ++
        List.replicate (records.length - room / recordSize) (.error .wroteNothing) := by
  induction records generalizing taken room count with
  | nil => simp
  | cons record rest ih =>
      rw [runAll_cons, List.map_cons, List.length_cons]
      rcases Nat.lt_or_ge room recordSize with hfull | hroom
      · rw [report_of_full taken count record hfull, ih, Nat.div_eq_of_lt hfull, Nat.zero_div,
          Nat.min_zero, Nat.min_zero]
        rfl
      · have hone : room / recordSize = (room - recordSize) / recordSize + 1 :=
          Nat.div_eq_sub_div (by decide) hroom
        rw [report_of_room taken count record hroom, ih, hone, Nat.add_min_add_right,
          Nat.add_sub_add_right]
        rfl

theorem length_flatMap_encode (records : List Record) :
    (records.flatMap Record.encode).length = recordSize * records.length := by
  induction records with
  | nil => rfl
  | cons record rest ih =>
      rw [List.flatMap_cons, List.length_append, record.encode_length, ih, List.length_cons,
        Nat.mul_succ, Nat.add_comm]

/-- The whole blocks at the beginning of a stream are those of the first records. -/
theorem blocks_take_encoded (records : List Record) (limit : Nat) :
    (blocks ((records.flatMap Record.encode).take limit)).map blockItem =
      (records.take (limit / recordSize)).map Record.readBack := by
  induction records generalizing limit with
  | nil =>
      rw [List.flatMap_nil, List.take_nil, List.take_nil, blocks_of_short (by decide)]
      rfl
  | cons record rest ih =>
      have hlength := record.encode_length
      rcases Nat.lt_or_ge limit recordSize with hshort | hlong
      · have htorn : (((record :: rest).flatMap Record.encode).take limit).length < recordSize :=
          Nat.lt_of_le_of_lt (List.length_take_le _ _) hshort
        rw [blocks_of_short htorn, Nat.div_eq_of_lt hshort]
        rfl
      · have hone : limit / recordSize = (limit - recordSize) / recordSize + 1 :=
          Nat.div_eq_sub_div (by decide) hlong
        have hcut : ((record :: rest).flatMap Record.encode).take limit =
            record.encode ++ (rest.flatMap Record.encode).take (limit - recordSize) := by
          rw [List.flatMap_cons, List.take_append, hlength,
            List.take_of_length_le (Nat.le_trans (Nat.le_of_eq hlength) hlong)]
        have hwhole : recordSize ≤ (record.encode ++
            (rest.flatMap Record.encode).take (limit - recordSize)).length := by
          rw [List.length_append, hlength]
          omega
        rw [hcut, blocks_of_long hwhole, ← hlength, List.take_left, List.drop_left, hlength,
          List.map_cons, blockItem_encode, ih, hone, List.take_succ_cons, List.map_cons]

/--
A sink with room for so many bytes takes as many records as fit whole. These calls go well and
all later ones fail, and each leaves the count at the calls that went well so far. The sink
then holds the beginning of the stream, and a reader gives the records that were taken, then
one item that tells how many bytes of the next one are there, if any, and then the end.
-/
theorem writes_until_full (records : List Record) (limit : Nat)
    (hcount : ∀ record ∈ records, record.count ≤ maxDepth) :
    let run := writeUpTo limit records
    let whole := min records.length (limit / recordSize)
    let size := min limit (recordSize * records.length)
    run.1.map Prod.fst =
        List.replicate whole (.ok ()) ++
          List.replicate (records.length - whole) (.error .wroteNothing) ∧
      (∀ i answer, run.1[i]? = some answer →
        answer.2 = (run.1.take (i + 1)).countP (·.1.isOk)) ∧
      run.2.sink.taken = (records.flatMap Record.encode).take size ∧
      run.2.sink.taken.length = size ∧
      ∀ script : List ReadEvent, ByteSource.Steady script →
        RecordReader.Yields ⟨⟨run.2.sink.taken, script⟩, false⟩
          ((records.take whole).map .ok ++
            if size % recordSize = 0 then []
            else [.error (.record (.truncated (size % recordSize)))]) := by
  intro run whole size
  have hstream := length_flatMap_encode records
  have htaken : run.2.sink.taken = (records.flatMap Record.encode).take size := by
    show (writeUpTo limit records).2.sink.taken = _
    rw [writeUpTo, taken_runAll, List.nil_append, List.take_eq_take_iff, hstream]
    omega
  have hlength : run.2.sink.taken.length = size := by
    rw [htaken, List.length_take, hstream]
    omega
  have hwhole : size / recordSize = whole := by
    show min limit (536 * records.length) / 536 = min records.length (limit / 536)
    omega
  refine ⟨?_, ?_, htaken, hlength, ?_⟩
  · show (writeUpTo limit records).1.map Prod.fst = _
    have hrefused : records.length - whole = records.length - limit / recordSize := by omega
    rw [writeUpTo, answers_runAll, hrefused]
  · intro i answer h
    have hcounted := count_runAll _ _ _ i h
    rwa [Nat.zero_add] at hcounted
  · intro script hsteady
    have hyields := RecordReader.yields_of_steady run.2.sink.taken hsteady
    have hitems : (blocks run.2.sink.taken).map blockItem = (records.take whole).map .ok := by
      rw [htaken, blocks_take_encoded, hwhole]
      exact map_readBack _ fun record hmem => hcount record (List.mem_of_mem_take hmem)
    rwa [streamItems, hitems, lastItems, hlength] at hyields

/-- Room for one record and 64 bytes of the next, and no room for the third. -/
theorem writes_until_full_torn :
    let deep : Record := { depth := Depth.pack 8 true }
    let records := [deep, .zero, deep]
    (∀ record ∈ records, record.count ≤ maxDepth) ∧
      (writeUpTo 600 records).1.map Prod.fst =
        [.ok (), .error .wroteNothing, .error .wroteNothing] ∧
      (writeUpTo 600 records).2.sink.taken.length = 600 ∧
      RecordReader.Yields ⟨⟨(writeUpTo 600 records).2.sink.taken, [.upTo 7, .interrupted]⟩, false⟩
        [.ok deep, .error (.record (.truncated 64))] := by
  intro deep records
  have hcount : ∀ record ∈ records, record.count ≤ maxDepth := by
    intro record hmem
    simp only [records, List.mem_cons, List.not_mem_nil, or_false] at hmem
    rcases hmem with rfl | rfl | rfl <;> decide
  have hsteady : ByteSource.Steady [.upTo 7, .interrupted] := by
    intro event hmem
    simp only [List.mem_cons, List.not_mem_nil, or_false] at hmem
    rcases hmem with rfl | rfl
    · exact .inr ⟨7, by decide, rfl⟩
    · exact .inl rfl
  obtain ⟨hanswers, -, -, hlength, hyields⟩ := writes_until_full records 600 hcount
  have hwhole : min records.length (600 / recordSize) = 1 := by decide
  have hsize : min 600 (recordSize * records.length) = 600 := by decide
  have htorn : 600 % recordSize = 64 := by decide
  have hitems := hyields _ hsteady
  rw [hwhole] at hanswers
  rw [hsize] at hlength
  rw [hwhole, hsize, htorn] at hitems
  exact ⟨hcount, hanswers, hlength, hitems⟩

end DentryWatch
