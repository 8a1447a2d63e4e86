import DentryWatch.Proofs.Disk.Directories
import DentryWatch.Proofs.Disk.Opened
import DentryWatch.Proofs.TraceLog.Failures

/-!
# The output of a log

The active file of a log is an output that has taken at least the header. As long
as no rotation is due, rows come behind what was there. On the full device no
rotation ever happens, since the header cannot be pushed out.
-/

namespace DentryWatch.TraceLog

/-- What opening a log leaves. -/
structure OpensLog (made : Disk) (directory : Path) (location : Location) (log : TraceLog)
    (opened : Disk) : Prop where
  opens : made.Opens (activeIn directory) .append location log.out.handle opened
  output : log.out.Output opened log.out.handle.node (log.stream opened)
  nonempty : log.stream opened ≠ []
  size : log.size = (log.stream opened).length
  directory : log.directory = directory
  unused : opened.content opened.nextInode = []

variable {start disk opened next : Disk} {directory : Path} {maxSize maxFiles : Nat}
  {log : TraceLog} {node : Node} {text : Bytes}

theorem openActive_output {made : Disk} {out : BufferedFile} {size : Nat}
    (h : openActive made directory = .ok (out, size, opened)) :
    ∃ location, made.Opens (activeIn directory) .append location out.handle opened ∧
      out.Output opened out.handle.node (out.stream opened) ∧ out.stream opened ≠ [] ∧
      size = (out.stream opened).length := by
  unfold openActive at h
  cases hopen : made.openFile (activeIn directory) .append with
  | error cause =>
      rw [hopen] at h
      cases h
  | ok answer =>
      obtain ⟨handle, disk⟩ := answer
      rw [hopen, Disk.ok_bind] at h
      obtain ⟨location, hopens⟩ := Disk.exists_opens hopen
      dsimp only at h
      split at h
      · next hempty =>
          cases h
          refine ⟨location, hopens, ?_⟩
          rcases hopens.fresh with rfl | ⟨inode, rfl⟩
          · exact ⟨.full rfl Iff.rfl, headerBytes_ne_nil, rfl⟩
          · have hnothing : opened.content inode = [] := List.eq_nil_of_length_eq_zero hempty
            have hstream : BufferedFile.stream ⟨.atEnd inode, bufferSize, headerBytes⟩ opened =
                headerBytes := by
              exact congrArg (· ++ headerBytes) hnothing
            refine ⟨.growing (.inl rfl) rfl, ?_, (congrArg List.length hstream).symm⟩
            exact fun hnot => headerBytes_ne_nil (hstream.symm.trans hnot)
      · next hfilled =>
          cases h
          refine ⟨location, hopens, ?_⟩
          rcases hopens.fresh with rfl | ⟨inode, rfl⟩
          · exact absurd rfl hfilled
          · have hstream : BufferedFile.stream ⟨.atEnd inode, bufferSize, []⟩ opened =
                opened.content inode := List.append_nil _
            refine ⟨.growing (.inl rfl) rfl, ?_, (congrArg List.length hstream).symm⟩
            intro hnothing
            exact hfilled (congrArg List.length (hstream.symm.trans hnothing))

theorem openIn_output (hsound : start.Sound)
    (h : openIn start directory maxSize maxFiles = (.ok log, opened)) :
    ∃ made location, OpensLog made directory location log opened := by
  unfold openIn at h
  rcases hmake : start.makeDirectories directory with ⟨_ | done, made⟩
  · rw [hmake] at h
    cases h
  · rw [hmake] at h
    have hmade := (hsound.makeDirectories hmake).1
    dsimp only at h
    cases hopen : openActive made directory with
    | error cause =>
        rw [hopen] at h
        cases h
    | ok answer =>
        obtain ⟨out, size, disk⟩ := answer
        rw [hopen] at h
        cases h
        obtain ⟨location, hopens, houtput, hnonempty, hsize⟩ := openActive_output hopen
        refine ⟨made, location, hopens, houtput, hnonempty, hsize, rfl, ?_⟩
        rw [hopens.kept _ (.inr rfl), hmade.unused _ hopens.nextInode_le]

/-- A row comes behind what was there. -/
theorem writeRecord_output (h : log.out.Output disk node text) (hnonempty : text ≠ [])
    (seen : Instant) (record : Record) (path : String)
    (hbelow : node ≠ .full →
      log.size + (rowBytes seen record path).length < log.maxSize) :
    ∃ answer log' next, log.writeRecord disk seen record path = (answer, log', next) ∧
      log'.out.Output next node (text ++ rowBytes seen record path) ∧
      disk.Touched node next ∧ log'.maxSize = log.maxSize ∧
      (node ≠ .full → answer = .ok () ∧
        log'.size = log.size + (rowBytes seen record path).length) := by
  obtain ⟨answer, out, next, hwrite, hout, -, htouched, hok⟩ :=
    h.write (rowBytes seen record path) fun _ hempty => absurd hempty hnonempty
  cases answer with
  | error code =>
      refine ⟨.error code, { log with out }, next, ?_, hout, htouched, rfl, ?_⟩
      · rw [TraceLog.writeRecord_eq, ← rowBytes]
        dsimp only
        rw [hwrite]
      · intro hnode
        cases hok hnode
  | ok done =>
      refine ⟨.ok (), log.written out (rowBytes seen record path), next, ?_, hout, htouched, rfl,
        fun _ => ⟨rfl, rfl⟩⟩
      rw [writeRecord_of_ok hwrite]
      split
      · next hdue =>
          by_cases hnode : node = .full
          · subst hnode
            have hstuck : (log.written out (rowBytes seen record path)).out.Stuck :=
              hout.stuck (by simp [hnonempty])
            rw [rotate_of_stuck hstuck]
          · exact absurd (hbelow hnode) (Nat.not_lt.2 hdue)
      · rfl

theorem flush_output (h : log.out.Output disk node text) :
    ∃ log' next,
      log.flush disk = (if node = .full ∧ text ≠ [] then .error .noSpace else .ok (), log', next) ∧
      log'.out.Output next node text ∧ disk.Touched node next ∧ log'.maxSize = log.maxSize ∧
      log'.size = log.size := by
  obtain ⟨out, next, hflush, hout, -, htouched, -⟩ := h.flush
  refine ⟨{ log with out }, next, ?_, hout, htouched, rfl, rfl⟩
  rw [TraceLog.flush_eq, hflush]

/-- Closing fails exactly on the full device; a file has all its rows then. -/
theorem close_output (h : log.out.Output disk node text) (hnonempty : text ≠ []) :
    ∃ next, log.close disk = (if node = .full then .error .noSpace else .ok (), next) ∧
      disk.Touched node next ∧ ∀ inode, node = .file inode → next.content inode = text := by
  obtain ⟨out, middle, hflush, hout, -, htouched, -⟩ := h.flush
  obtain ⟨hdropped, hcontent⟩ := hout.drop
  refine ⟨out.drop middle, ?_, htouched.trans hdropped, hcontent⟩
  rw [TraceLog.close_eq, hflush]
  cases hout with
  | full handle pending =>
      rw [if_pos ⟨rfl, hnonempty⟩, if_pos rfl]
  | growing ends text_eq =>
      rw [if_neg (by simp), if_neg (by simp)]
      dsimp only
      rcases ends with hhandle | hhandle <;> rw [hhandle] <;> rfl

end DentryWatch.TraceLog
