import DentryWatch.Command.Decode
import DentryWatch.Lineage
import DentryWatch.Proofs.Disk.Entries
import DentryWatch.Proofs.RecordStream.Schedules
import DentryWatch.Proofs.Text.Tables
import DentryWatch.Proofs.TraceLog.Lines
import Mathlib.Algebra.GroupWithZero.Nat

/-!
# What is printed of a file of records

The records in front of the first bad block are printed one after another, and the
failure names the block. Paths are printed as they are. So the text is a table of
the columns that a trace log has exactly as long as no path has a character that
breaks a row.
-/

namespace DentryWatch

/--
A file holds these records, one behind the other, and behind them nothing or a block
that is no record, for this reason.
-/
inductive RecordFile : Bytes → List Record → Option RecordError → Prop
  | done : RecordFile [] [] none
  | bad {bytes : Bytes} {cause : RecordError} (hne : bytes ≠ [])
      (hcause : Record.decode (bytes.take recordSize) = .error cause) :
      RecordFile bytes [] (some cause)
  | record {record : Record} {bytes : Bytes} {records : List Record} {bad : Option RecordError}
      (hcount : record.count ≤ maxDepth) (rest : RecordFile bytes records bad) :
      RecordFile (record.encode ++ bytes) (record :: records) bad

namespace RecordFile

theorem exists_of_bytes (bytes : Bytes) : ∃ records bad, RecordFile bytes records bad := by
  induction hlength : bytes.length using Nat.strongRecOn generalizing bytes with
  | ind length ih =>
      by_cases hempty : bytes = []
      · subst hempty
        exact ⟨[], none, done⟩
      cases hblock : Record.decode (bytes.take recordSize) with
      | error cause => exact ⟨[], some cause, bad hempty hblock⟩
      | ok first =>
          obtain ⟨hlong, hcount, hencode⟩ := (Record.decode_eq_ok_iff _ _).1 hblock
          rw [List.take_take, Nat.min_self] at hencode
          have hshorter : (bytes.drop recordSize).length < length := by
            have hpos : 0 < bytes.length := List.length_pos_of_ne_nil hempty
            have hsize : 0 < recordSize := by decide
            rw [List.length_drop]
            omega
          obtain ⟨records, bad, hrest⟩ := ih _ hshorter (bytes.drop recordSize) rfl
          have hwhole := record hcount hrest
          rw [hencode, List.take_append_drop] at hwhole
          exact ⟨first :: records, bad, hwhole⟩

/-- The bytes of the records, and nothing else, are a file without a bad block. -/
theorem flatMap_encode {records : List Record} (h : ∀ record ∈ records, record.count ≤ maxDepth) :
    RecordFile (records.flatMap Record.encode) records none := by
  induction records with
  | nil => exact done
  | cons first rest ih =>
      exact record (h first List.mem_cons_self)
        (ih fun record hmem => h record (List.mem_cons_of_mem _ hmem))

/-- A reader answers with the records, and then with what is wrong with the block behind them. -/
theorem items {bytes : Bytes} {records : List Record} {bad : Option RecordError}
    (h : RecordFile bytes records bad) :
    ∃ rest, streamItems bytes none =
      records.map .ok ++ (bad.map fun cause => .error (.record cause)).toList ++ rest ∧
        (bad = none → rest = []) := by
  induction h with
  | done => exact ⟨[], rfl, fun _ => rfl⟩
  | @bad bytes cause hne hcause =>
      by_cases hlong : recordSize ≤ bytes.length
      · refine ⟨streamItems (bytes.drop recordSize) none, ?_, fun hnone => by cases hnone⟩
        rw [streamItems_of_long hlong, blockItem, hcause]
        rfl
      · have hshort := Nat.not_le.1 hlong
        have hpos : 0 < bytes.length := List.length_pos_of_ne_nil hne
        rw [List.take_of_length_le (Nat.le_of_lt hshort), Record.decode, if_pos hshort] at hcause
        refine ⟨[], ?_, fun _ => rfl⟩
        rw [streamItems_of_short hshort, lastItems, Nat.mod_eq_of_lt hshort, if_neg (by omega)]
        cases hcause
        rfl
  | @record first bytes records bad hcount _ ih =>
      obtain ⟨rest, hitems, hends⟩ := ih
      have hlength := first.encode_length
      have hlong : recordSize ≤ (first.encode ++ bytes).length := by
        rw [List.length_append, hlength]
        omega
      refine ⟨rest, ?_, hends⟩
      rw [streamItems_of_long hlong, ← hlength, List.take_left, List.drop_left, blockItem_encode,
        Record.readBack, if_pos hcount, hitems]
      rfl

end RecordFile

namespace Command

open TraceLog Text

/-! ## The lines -/

/-- The records in front of a block that cannot be read are printed. -/
theorem printRecords_eq (file : Path) (index : Nat) (records : List Record)
    (bad : Option RecordError) {rest : List StreamItem} (hends : bad = none → rest = []) :
    printRecords file index
        (records.map .ok ++ (bad.map fun cause => .error (.record cause)).toList ++ rest) =
      (records.flatMap recordLine,
        bad.map fun cause => .record (index + records.length) file (.record cause)) := by
  induction records generalizing index with
  | nil =>
      cases bad with
      | none =>
          rw [hends rfl]
          rfl
      | some cause => rfl
  | cons first records ih =>
      have hrest := ih (index + 1)
      rw [List.map_cons, List.cons_append, List.cons_append, printRecords, hrest,
        List.flatMap_cons, List.length_cons, Nat.add_assoc, Nat.add_comm 1]

/-- The columns of a record when its path is shown as a trace log shows it. -/
def logColumns (record : Record) : List (List Char) :=
  decimal record.timestamp.toNat :: columns record (framed record.path.toList)

theorem plain_logColumns (record : Record) : ∀ column ∈ logColumns record, Plain column := by
  intro column hmem
  rcases List.mem_cons.1 hmem with rfl | hmem
  · exact plain_decimal _
  · exact plain_columns record _ column hmem

/-- The columns in front of the path do not depend on it, and break no line. -/
theorem exists_front (record : Record) : ∃ front : List Char, '\n' ∉ front ∧
    ∀ path, line (decimal record.timestamp.toNat :: columns record path) =
      front ++ (path ++ ['\n']) := by
  refine ⟨['\t'].intercalate (decimal record.timestamp.toNat :: columns record []), ?_, ?_⟩
  · apply lineFeed_not_mem_intercalate
    intro column hmem
    rcases List.mem_cons.1 hmem with rfl | hmem
    · exact plain_decimal _
    · exact plain_columns record [] column hmem
  · intro path
    simp [line, columns, List.intercalate_cons_cons]

theorem framed_eq_self_iff (path : List Char) : framed path = path ↔ Plain path := by
  constructor
  · intro h c hmem
    rw [← h] at hmem
    exact not_breaksRow_of_mem_framed hmem
  · intro h
    refine (List.map_congr_left fun c hmem => ?_).trans (List.map_id _)
    rw [h c hmem]
    rfl

theorem recordLine_eq_iff (record : Record) :
    recordLine record = line (logColumns record) ↔ Plain record.path.toList := by
  obtain ⟨front, -, hline⟩ := exists_front record
  rw [recordLine, logColumns, hline, hline, List.append_cancel_left_eq, List.append_cancel_right_eq,
    eq_comm, framed_eq_self_iff]

theorem length_recordLine (record : Record) :
    (recordLine record).length = (line (logColumns record)).length := by
  obtain ⟨front, -, hline⟩ := exists_front record
  rw [recordLine, logColumns, hline, hline]
  simp only [List.length_append, framed_length]

theorem count_recordLine (record : Record) :
    (recordLine record).count '\n' = record.path.toList.count '\n' + 1 := by
  obtain ⟨front, hfront, hline⟩ := exists_front record
  rw [recordLine, hline, List.count_append, List.count_eq_zero.2 hfront, List.count_append,
    Nat.zero_add, List.count_singleton_self]

/-! ## The text -/

/-- As many characters are printed as a table would have, so they agree only line by line. -/
theorem flatMap_recordLine_eq_iff (records : List Record) :
    records.flatMap recordLine = (records.map logColumns).flatMap line ↔
      ∀ record ∈ records, Plain record.path.toList := by
  induction records with
  | nil => simp
  | cons first rest ih =>
      rw [List.flatMap_cons, List.map_cons, List.flatMap_cons, List.forall_mem_cons, ← ih,
        ← recordLine_eq_iff first]
      constructor
      · exact fun h => List.append_inj h (length_recordLine first)
      · rintro ⟨hfirst, hrest⟩
        rw [hfirst, hrest]

theorem count_flatMap_recordLine (records : List Record) :
    (records.flatMap recordLine).count '\n' =
      records.length + (records.map fun record => record.path.toList.count '\n').sum := by
  induction records with
  | nil => rfl
  | cons first rest ih =>
      rw [List.flatMap_cons, List.count_append, count_recordLine, ih, List.length_cons,
        List.map_cons, List.sum_cons]
      omega

theorem tableOf_logColumns (records : List Record) :
    tableOf ((records.map logColumns).flatMap line) = records.map logColumns ++ [[[]]] := by
  have hplain : ∀ row ∈ records.map logColumns, row ≠ [] ∧ ∀ column ∈ row, Plain column := by
    intro row hmem
    obtain ⟨record, -, rfl⟩ := List.mem_map.1 hmem
    exact ⟨List.cons_ne_nil _ _, plain_logColumns record⟩
  generalize records.map logColumns = rows at hplain
  have hfeeds : ∀ text ∈ rows.map ['\t'].intercalate, '\n' ∉ text := by
    intro text hmem
    obtain ⟨row, hrow, rfl⟩ := List.mem_map.1 hmem
    exact lineFeed_not_mem_intercalate (hplain row hrow).2
  have hlines : rows.flatMap line = (rows.map ['\t'].intercalate).flatMap (· ++ ['\n']) := by
    rw [List.flatMap_map]
    rfl
  rw [tableOf, hlines, splitOn_flatMap hfeeds, List.map_append, List.map_map]
  congr 1
  refine (List.map_congr_left fun row hrow => ?_).trans (List.map_id _)
  exact List.splitOn_intercalate '\t' (fun column hmem => ((hplain row hrow).2 column hmem).not_mem rfl)
    (hplain row hrow).1

/-- The text is the table of a trace log as long as no path breaks a row. -/
theorem tableOf_printed_iff (records : List Record) :
    tableOf (records.flatMap recordLine) = records.map logColumns ++ [[[]]] ↔
      ∀ record ∈ records, Plain record.path.toList := by
  rw [← flatMap_recordLine_eq_iff, ← tableOf_logColumns]
  exact ⟨tableOf_inj, congrArg tableOf⟩

theorem decodeFile_eq {disk : Disk} {file : Path} {location : Location} {inode : Nat}
    (hstat : disk.stat file = .ok (location, .file inode)) {records : List Record}
    {bad : Option RecordError} (h : RecordFile (disk.content inode) records bad) :
    decodeFile disk file =
      { disk
        output := String.ofList (records.flatMap recordLine)
        failure := bad.map fun cause => .record records.length file (.record cause) } := by
  obtain ⟨rest, hitems, hends⟩ := h.items
  have hread : recordsOf disk (.file inode) = streamItems (disk.content inode) none :=
    (RecordReader.yields_of_steady (disk.content inode) fun _ hmem => absurd hmem List.not_mem_nil).1
  rw [decodeFile, hstat]
  dsimp only
  rw [hread, hitems, printRecords_eq file 0 records bad hends, Nat.zero_add]

/-! ## The headline -/

/--
Printing a file of records prints the records in front of the first bad block, and then
fails with the number of this block. Each is a line of six columns whose last five are those
of a trace log, and there are no further lines, if and only if no path has a tab, a line feed
or a return: the paths are printed as they are, and each line feed in one is one line more.
-/
theorem decodeFile_prints_table (disk : Disk) (file : Path) (location : Location) (inode : Nat)
    (hstat : disk.stat file = .ok (location, .file inode)) :
    (∃ records bad, RecordFile (disk.content inode) records bad) ∧
    (∀ (record : Record) (seen : Instant), (logColumns record).length = 6 ∧
      row seen record record.path.toList = line (seen.nanosText :: (logColumns record).tail)) ∧
    ∀ records bad, RecordFile (disk.content inode) records bad →
      let done := decodeFile disk file
      let printed := done.output.toList
      done.disk = disk ∧
      done.failure = bad.map (fun cause => .record records.length file (.record cause)) ∧
      (∀ failure ∈ done.failure,
        failure.chain.head? = some s!"record {records.length} of {file.text}") ∧
      printed.count '\n' =
        records.length + (records.map fun record => record.path.toList.count '\n').sum ∧
      (tableOf printed = records.map logColumns ++ [[[]]] ↔
        ∀ record ∈ records, ∀ c ∈ record.path.toList, breaksRow c = false) := by
  refine ⟨RecordFile.exists_of_bytes _, fun _ _ => ⟨rfl, rfl⟩, fun records bad h => ?_⟩
  dsimp only
  rw [decodeFile_eq hstat h, String.toList_ofList]
  refine ⟨rfl, rfl, ?_, count_flatMap_recordLine records, tableOf_printed_iff records⟩
  intro failure hfailure
  cases bad with
  | none => cases hfailure
  | some cause =>
      obtain rfl := Option.some.inj hfailure
      rfl

def oneFile (bytes : Bytes) : Disk :=
  (({} : Disk).create [Path.ofText "r"] .file).2.setContent 1048576 bytes

theorem stat_oneFile (bytes : Bytes) :
    (oneFile bytes).stat (Path.child [] "r") = .ok ([Path.ofText "r"], .file 1048576) := by
  have hname : FileName.Proper (Path.ofText "r") :=
    ⟨by decide, by decide, by decide, by decide, by decide⟩
  have hleads : (oneFile bytes).Leads [] [] := Disk.leads_root rfl ⟨2, rfl⟩
  exact hleads.stat_file hname rfl rfl

def named (name : Bytes) : Record :=
  let walk : Walk := ⟨[name], false⟩
  { depth := walk.depth, slots := walk.writeInto (Vector.replicate maxDepth NameSlot.empty) }

/-- A plain record is printed as a row, and a file that is cut off behind it is told so. -/
theorem decodeFile_prints_table_cut :
    let file := Path.child [] "r"
    let disk := oneFile ((named [0x61]).encode ++ [0])
    disk.stat file = .ok ([Path.ofText "r"], .file 1048576) ∧
      RecordFile (disk.content 1048576) [named [0x61]] (some (.truncated 1)) ∧
      (decodeFile disk file).failure = some (.record 1 file (.record (.truncated 1))) ∧
      tableOf (decodeFile disk file).output.toList = [logColumns (named [0x61]), [[]]] := by
  intro file disk
  have hstat := stat_oneFile ((named [0x61]).encode ++ [0])
  have hfile : RecordFile (disk.content 1048576) [named [0x61]] (some (.truncated 1)) := by
    show RecordFile ((named [0x61]).encode ++ [0]) _ _
    exact .record (by decide) (.bad (List.cons_ne_nil _ _) rfl)
  obtain ⟨-, hfailure, -, -, htable⟩ :=
    (decodeFile_prints_table disk file _ _ hstat).2.2 _ _ hfile
  have hpath : (named [0x61]).path.toList = ['a'] := by
    rw [Record.path, String.toList_ofList]
    decide +kernel
  refine ⟨hstat, hfile, hfailure, htable.2 ?_⟩
  intro record hmem c hc
  obtain rfl := List.mem_singleton.1 hmem
  rw [hpath] at hc
  obtain rfl := List.mem_singleton.1 hc
  rfl

/-- A name with a tab is printed as it is, which a table does not allow. -/
theorem decodeFile_prints_tab :
    ¬ ∀ (disk : Disk) (file : Path) (location : Location) (inode : Nat) (records : List Record),
      disk.stat file = .ok (location, .file inode) →
      RecordFile (disk.content inode) records none →
      tableOf (decodeFile disk file).output.toList = records.map logColumns ++ [[[]]] := by
  intro hprints
  have hstat := stat_oneFile (List.flatMap Record.encode [named [0x61, 0x09, 0x62]])
  have hcount : ∀ record ∈ [named [0x61, 0x09, 0x62]], record.count ≤ maxDepth := by
    intro record hmem
    obtain rfl := List.mem_singleton.1 hmem
    decide
  have hfile := RecordFile.flatMap_encode hcount
  have htable := hprints _ _ _ _ _ hstat hfile
  rw [decodeFile_eq hstat hfile, String.toList_ofList, tableOf_printed_iff] at htable
  have htab : '\t' ∈ (named [0x61, 0x09, 0x62]).path.toList := by
    rw [Record.path, String.toList_ofList]
    decide +kernel
  have hplain := htable _ List.mem_cons_self '\t' htab
  cases hplain

end Command

end DentryWatch
