import DentryWatch.Proofs.Drain.Handling
import DentryWatch.Proofs.Drain.RawFiles
import DentryWatch.Proofs.Drain.Rounds
import DentryWatch.Proofs.TraceLog.Sessions

/-!
# Drains on healthy outputs

As long as the raw file is none of the files of the log, the two outputs do not
disturb each other: after each record the log keeps the journal of the records
that passed so far, and the raw file has taken the same records.
-/

namespace DentryWatch

namespace Drain

open TraceLog

/-- The journal of the records that pass a filter. -/
def logJournal (seen : Nat → Instant) (filter : PathFilter) (maxSize : Nat)
    (records : List Record) : Journal :=
  (matchingRows seen filter records).foldl (Journal.append maxSize) {}

theorem target_eq_file {rawNode : Option Node} {inode : Nat} (h : target rawNode = .file inode) :
    rawNode = some (.file inode) := by
  cases rawNode with
  | none => cases h
  | some node => exact congrArg some h

/-- The raw file, if there is one, is none of the files of the log. -/
def Aside (slots : Slots) (disk : Disk) (rawNode : Option Node) : Prop :=
  ∀ inode, rawNode = some (.file inode) → slots.Spares inode ∧ inode < disk.nextInode

theorem Aside.leaves {slots slots' : Slots} {disk next : Disk} {rawNode : Option Node}
    (h : Aside slots disk rawNode) (hleaves : Leaves disk slots next slots') :
    Aside slots' next rawNode := by
  intro inode hnode
  obtain ⟨hspares, hcreated⟩ := h inode hnode
  exact ⟨hleaves.spares inode hcreated hspares, Nat.lt_of_lt_of_le hcreated hleaves.nextInode_le⟩

theorem RawOutput.leaves {slots slots' : Slots} {disk next : Disk} {rawNode : Option Node}
    {raw : Option BufferedFile} {bytes : Bytes} (h : RawOutput disk raw rawNode bytes)
    (haside : Aside slots disk rawNode) (hleaves : Leaves disk slots next slots') :
    RawOutput next raw rawNode bytes := by
  refine h.elsewhere fun inode hnode => ?_
  obtain ⟨hspares, hcreated⟩ := haside inode hnode
  exact hleaves.content inode hcreated hspares

/-- Copying a record does not disturb the log. -/
theorem Aside.touched {base disk next : Disk} {directory : Path} {top : Location}
    {journal : Journal} {log : TraceLog} {slots : Slots} {active : Stored}
    {rawNode : Option Node} (h : Aside slots disk rawNode)
    (hrecording : Recording base disk directory top journal log slots active)
    (htouched : disk.Touched (target rawNode) next) :
    Recording base next directory top journal log slots active ∧ Aside slots next rawNode := by
  refine ⟨hrecording.touched (fun inode hnode => h inode (target_eq_file hnode)) htouched, ?_⟩
  rw [Aside, htouched.nextInode]
  exact h

/-- What the outputs have taken once these records were handled. -/
structure Drained (seen : Nat → Instant) (filter : PathFilter) (base : Disk) (directory : Path)
    (top : Location) (maxSize maxFiles : Nat) (rawNode : Option Node) (done : List Record)
    (drain : Drain) (disk : Disk) : Prop where
  filter_eq : drain.filter = filter
  summary : drain.summary = tally filter done
  limit_eq : drain.log.maxSize = maxSize
  files_eq : drain.log.maxFiles = maxFiles
  recording : ∃ slots active,
    Recording base disk directory top (logJournal seen filter maxSize done) drain.log slots active ∧
      Aside slots disk rawNode
  raw : RawOutput disk drain.raw rawNode ((matching filter done).flatMap Record.encode)

variable {schedule : DrainSchedule} {filter : PathFilter} {base disk : Disk} {directory : Path}
  {top : Location} {maxSize maxFiles : Nat} {rawNode : Option Node} {records done : List Record}
  {drain : Drain} {record : Record} {seen : Nat → Instant}

theorem logJournal_of_dropped (h : filter.accepts record.path = false) :
    logJournal seen filter maxSize (done ++ [record]) = logJournal seen filter maxSize done := by
  rw [logJournal, matchingRows_of_dropped seen done h, logJournal]

theorem logJournal_of_passed (h : filter.accepts record.path = true) :
    logJournal seen filter maxSize (done ++ [record]) =
      (logJournal seen filter maxSize done).append maxSize
        (rowBytes (seen done.length) record record.path) := by
  rw [logJournal, matchingRows_of_passed seen done h, List.foldl_append, logJournal]
  rfl

theorem length_volumes_prefix (seen : Nat → Instant) (filter : PathFilter) (maxSize : Nat)
    (h : done <+: records) :
    (logJournal seen filter maxSize done).volumes.length ≤
      (logJournal seen filter maxSize records).volumes.length := by
  obtain ⟨rest, hrest⟩ := matchingRows_prefix seen filter h
  rw [logJournal, logJournal, ← hrest, List.foldl_append]
  exact Journal.length_volumes_foldl maxSize _ rest

theorem Drained.dropped
    (h : Drained seen filter base directory top maxSize maxFiles rawNode done drain disk)
    (hdropped : filter.accepts record.path = false) (time : Instant) :
    Drained seen filter base directory top maxSize maxFiles rawNode (done ++ [record])
      (drain.handle disk time record).1 (drain.handle disk time record).2 := by
  rw [handle_of_dropped (by rw [h.filter_eq, hdropped])]
  refine ⟨h.filter_eq, ?_, h.limit_eq, h.files_eq, ?_, ?_⟩
  · rw [tally_of_dropped done hdropped, ← h.summary]
  · rw [logJournal_of_dropped hdropped]
    exact h.recording
  · rw [matching_of_dropped done hdropped]
    exact h.raw

section Healthy

variable (site : Site base directory top) (hsize : maxFiles < UInt64.size)
  (hreach : Reachable directory
    (min (logJournal seen filter maxSize records).volumes.length maxFiles))
  (hhealthy : rawNode ≠ some .full)

include site hsize hreach hhealthy

theorem Drained.passed
    (h : Drained seen filter base directory top maxSize maxFiles rawNode done drain disk)
    (hfirst : done ++ [record] <+: records) (hpassed : filter.accepts record.path = true) :
    Drained seen filter base directory top maxSize maxFiles rawNode (done ++ [record])
      (drain.handle disk (seen done.length) record).1
      (drain.handle disk (seen done.length) record).2 := by
  obtain ⟨slots, active, hrecording, haside⟩ := h.recording
  have htotal := length_volumes_prefix seen filter maxSize hfirst
  rw [logJournal_of_passed hpassed] at htotal
  obtain rfl := h.limit_eq
  obtain rfl := h.files_eq
  obtain ⟨log, middle, slots', active', hlog, hfiles, hlimit, hnext, hleaves⟩ :=
    hrecording.writeRecord site hsize hreach (seen done.length) record record.path htotal
  obtain ⟨copied, raw, next, hraw, hcopied, htouched, hcopy⟩ :=
    (h.raw.leaves haside hleaves).write record
  rw [handle_of_passed (by rw [h.filter_eq, hpassed]) hlog hraw, hcopy hhealthy]
  refine ⟨h.filter_eq, ?_, hlimit, hfiles, ⟨slots', active', ?_⟩, ?_⟩
  · rw [tally_of_passed done hpassed, ← h.summary]
    rfl
  · rw [logJournal_of_passed hpassed]
    exact (haside.leaves hleaves).touched hnext htouched
  · rw [matching_of_passed done hpassed, List.flatMap_append, List.flatMap_singleton]
    exact hcopied

omit site hsize hreach hhealthy in
theorem Drained.flush
    (h : Drained seen filter base directory top maxSize maxFiles rawNode done drain disk) :
    Drained seen filter base directory top maxSize maxFiles rawNode done
      (drain.flush disk).1 (drain.flush disk).2 := by
  obtain ⟨slots, active, hrecording, haside⟩ := h.recording
  obtain ⟨middle, hlog, hnext, hleaves⟩ := hrecording.flush
  obtain ⟨raw, next, hraw, hcopied, htouched, -⟩ := (h.raw.leaves haside hleaves).flush
  have hflush : drain.flush disk =
      ({ drain with
        log := { drain.log with out := { drain.log.out with pending := [] } }, raw }, next) := by
    rw [Drain.flush, TraceLog.flush_eq, hlog]
    dsimp only
    rw [hraw]
  rw [hflush]
  exact ⟨h.filter_eq, h.summary, h.limit_eq, h.files_eq,
    ⟨_, _, (haside.leaves hleaves).touched hnext htouched⟩, hcopied⟩

theorem invariant_drained (schedule : DrainSchedule) (hseen : schedule.seen = seen) :
    Invariant schedule records
      (Drained seen filter base directory top maxSize maxFiles rawNode) := by
  subst hseen
  refine ⟨fun done drain disk h => ?_, ?_, fun done drain disk h => h.flush⟩
  · rw [h.summary, tally]
  · intro done record drain disk hfirst h
    cases hpass : filter.accepts record.path with
    | false => exact h.dropped hpass _
    | true => exact h.passed site hsize hreach hhealthy hfirst hpass

end Healthy

theorem Drained.finish (hhealthy : rawNode ≠ some .full)
    (h : Drained seen filter base directory top maxSize maxFiles rawNode records drain disk) :
    ∃ next slots active, drain.finish disk = (.ok (tally filter records), next) ∧
      Resting base next top maxFiles (logJournal seen filter maxSize records) slots active ∧
      ∀ inode, rawNode = some (.file inode) →
        next.content inode = (matching filter records).flatMap Record.encode := by
  obtain ⟨slots, active, hrecording, haside⟩ := h.recording
  obtain ⟨raw, middle, hraw, -, htouched, hcontent⟩ := h.raw.flush
  have hgoes : ¬ (rawNode = some .full ∧ (matching filter records).flatMap Record.encode ≠ []) :=
    fun hfull => hhealthy hfull.1
  rw [if_neg hgoes] at hraw
  obtain ⟨hflushed, haside'⟩ := haside.touched hrecording htouched
  obtain ⟨next, slots', active', hclose, -, hrest, hleaves⟩ := hflushed.close
  rw [h.files_eq] at hrest
  refine ⟨next, slots', active', ?_, hrest, ?_⟩
  · rw [Drain.finish, hraw]
    dsimp only
    rw [hclose, ← h.summary]
  · intro inode hnode
    obtain ⟨hspares, hcreated⟩ := haside' inode hnode
    rw [hleaves.content inode hcreated hspares, hcontent hgoes inode hnode]

end Drain

end DentryWatch
