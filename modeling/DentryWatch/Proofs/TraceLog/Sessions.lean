import DentryWatch.Proofs.TraceLog.Recording

/-!
# Sessions of a log

A session opens the log of a directory, writes to it and closes or releases it.
However many follow one another, the files keep the journal of all of them.
-/

namespace DentryWatch.TraceLog

/-- An open log with the given limits keeps a journal. -/
structure Keeps (base : Disk) (directory : Path) (top : Location) (maxSize maxFiles : Nat)
    (journal : Journal) (state : TraceLog × Disk) : Prop where
  recording : ∃ slots active, Recording base state.2 directory top journal state.1 slots active
  maxSize : state.1.maxSize = maxSize
  maxFiles : state.1.maxFiles = maxFiles

variable {base start disk : Disk} {directory : Path} {top : Location} {journal : Journal}
  {maxSize maxFiles total : Nat} {state : TraceLog × Disk} {slots : Slots} {active : Stored}

/-! ## Calls -/

theorem Keeps.flush (h : Keeps base directory top maxSize maxFiles journal state) :
    ∃ next, LogStep.run .flush state = (.ok (), next) ∧
      Keeps base directory top maxSize maxFiles journal next := by
  obtain ⟨⟨slots, active, hkept⟩, hlimit, hfiles⟩ := h
  obtain ⟨next, hflush, hnext, -⟩ := hkept.flush
  refine ⟨({ state.1 with out := { state.1.out with pending := [] } }, next), ?_,
    ⟨_, _, hnext⟩, hlimit, hfiles⟩
  show state.1.flush state.2 = _
  rw [TraceLog.flush_eq, hflush]

theorem Keeps.write (site : Site base directory top)
    (h : Keeps base directory top maxSize maxFiles journal state)
    (hsize : maxFiles < UInt64.size) (hreach : Reachable directory (min total maxFiles))
    (seen : Instant) (record : Record) (path : String)
    (htotal : (journal.append maxSize (rowBytes seen record path)).volumes.length ≤ total) :
    ∃ next, LogStep.run (.write seen record path) state = (.ok (), next) ∧
      Keeps base directory top maxSize maxFiles
        (journal.append maxSize (rowBytes seen record path)) next := by
  obtain ⟨⟨slots, active, hkept⟩, rfl, rfl⟩ := h
  obtain ⟨log', next, slots', active', hwrite, hfiles, hlimit, hnext, -⟩ :=
    hkept.writeRecord site hsize hreach seen record path htotal
  exact ⟨(log', next), hwrite, ⟨slots', active', hnext⟩, hlimit, hfiles⟩

theorem Keeps.runAll (site : Site base directory top)
    (h : Keeps base directory top maxSize maxFiles journal state)
    (hsize : maxFiles < UInt64.size) (hreach : Reachable directory (min total maxFiles))
    (steps : List LogStep)
    (htotal : ((steps.filterMap LogStep.row?).foldl (Journal.append maxSize)
      journal).volumes.length ≤ total) :
    ∃ next, runAll LogStep.run steps state = (steps.map fun _ => .ok (), next) ∧
      Keeps base directory top maxSize maxFiles
        ((steps.filterMap LogStep.row?).foldl (Journal.append maxSize) journal) next := by
  induction steps generalizing journal state with
  | nil => exact ⟨state, rfl, h⟩
  | cons step rest ih =>
      cases step with
      | write seen record path =>
          have hfirst : (journal.append maxSize (rowBytes seen record path)).volumes.length ≤
              total :=
            Nat.le_trans (Journal.length_volumes_foldl maxSize _ _) htotal
          obtain ⟨middle, hwrite, hmiddle⟩ :=
            h.write site hsize hreach seen record path hfirst
          obtain ⟨next, hrest, hnext⟩ := ih hmiddle htotal
          refine ⟨next, ?_, hnext⟩
          rw [runAll_cons, hwrite, hrest]
          rfl
      | flush =>
          obtain ⟨middle, hflush, hmiddle⟩ := h.flush
          obtain ⟨next, hrest, hnext⟩ := ih hmiddle htotal
          refine ⟨next, ?_, hnext⟩
          rw [runAll_cons, hflush, hrest]
          rfl

/-! ## The end of a session -/

/-- All that was asked for went well. -/
def AllOk (answers : List (Except SystemError Unit)) : Prop := ∀ answer ∈ answers, answer = .ok ()

theorem AllOk.append {answers more : List (Except SystemError Unit)} (h : AllOk answers)
    (hmore : AllOk more) : AllOk (answers ++ more) := by
  intro answer hmem
  rcases List.mem_append.1 hmem with hmem | hmem
  · exact h answer hmem
  · exact hmore answer hmem

theorem allOk_map {α : Type} (items : List α) : AllOk (items.map fun _ => .ok ()) := by
  intro answer hmem
  obtain ⟨item, -, hanswer⟩ := List.mem_map.1 hmem
  exact hanswer.symm

theorem allOk_singleton : AllOk [.ok ()] := fun _ hmem => List.mem_singleton.1 hmem

theorem drop_of_empty {file : BufferedFile} (hempty : file.pending = []) (disk : Disk) :
    file.drop disk = disk := by
  rw [BufferedFile.drop_eq, BufferedFile.flush_eq, hempty]
  rfl

/-- Closing pushes the buffer out, and then the files keep the journal. -/
theorem Recording.close {log : TraceLog}
    (h : Recording base disk directory top journal log slots active) :
    ∃ next slots' active', log.close disk = (.ok (), next) ∧ log.drop disk = next ∧
      Resting base next top log.maxFiles journal slots' active' ∧
      Leaves disk slots next slots' := by
  obtain ⟨next, hflush, hnext, hleaves⟩ := h.flush
  refine ⟨next, _, _, ?_, ?_, ⟨hnext.shelved, hnext.slot, rfl, hnext.older⟩, hleaves⟩
  · rw [TraceLog.close_eq, hflush]
    dsimp only
    rw [h.handle, drop_of_empty rfl]
    rfl
  · rw [TraceLog.drop, BufferedFile.drop_eq, hflush]

/-- However a session ends, its rows are in the files. -/
theorem Keeps.finish (site : Site base directory top) (session : LogSession)
    (h : Keeps base directory top session.maxSize maxFiles journal.reopen state)
    (hsize : maxFiles < UInt64.size) (hreach : Reachable directory (min total maxFiles))
    (htotal : (session.record journal).volumes.length ≤ total) :
    ∃ answers next slots active, session.finish state.1 state.2 = (answers, next) ∧
      AllOk answers ∧
      Resting base next top maxFiles (session.record journal) slots active := by
  obtain ⟨⟨log, written⟩, hrun, ⟨slots, active, hkept⟩, hlimit, hfiles⟩ :=
    h.runAll site hsize hreach session.steps htotal
  dsimp only at hkept hlimit hfiles
  obtain ⟨next, slots', active', hclose, hdrop, hrest, -⟩ := hkept.close
  rw [hfiles] at hrest
  have hfinish : session.finish state.1 state.2 =
      if session.closes then ((session.steps.map fun _ => .ok ()) ++ [.ok ()], next)
      else (session.steps.map fun _ => .ok (), next) := by
    rw [LogSession.finish, hrun]
    dsimp only
    rw [hclose, hdrop]
  rw [hfinish]
  split
  · exact ⟨_, next, _, _, rfl, (allOk_map _).append allOk_singleton, hrest⟩
  · exact ⟨_, next, _, _, rfl, allOk_map _, hrest⟩

/-! ## Opening -/

/-- The first session makes the directory and the active file. -/
theorem Site.openIn (site : Site base directory top)
    (hmake : start.makeDirectories directory = (.ok (), base))
    (hcheck : (fileIn directory 0).check = .ok ()) (maxSize maxFiles : Nat) :
    ∃ log next, openIn start directory maxSize maxFiles = (.ok log, next) ∧
      Keeps base directory top maxSize maxFiles {} (log, next) := by
  have hnone : base.find? (fileAt top 0) = none := site.free 0
  have hunused := site.sound.unused base.nextInode (Nat.le_refl _)
  have hempty : fileBytes [] = headerBytes := List.append_nil _
  refine ⟨begun directory maxSize maxFiles base.nextInode, (base.create (fileAt top 0) .file).2,
    openIn_missing hmake site.leads hcheck hnone hunused maxSize maxFiles,
    ⟨_, _, site.shelved.create 0, rfl, rfl, hempty.symm, ?_, congrArg List.length hempty.symm,
      rfl⟩, rfl, rfl⟩
  refine Slots.Holds.place (fun number => ?_) _
  rw [List.take_nil, List.getElem?_nil]
  rfl

theorem fileBytes_ne_nil (rows : List Bytes) : fileBytes rows ≠ [] := by
  intro h
  exact headerBytes_ne_nil (List.append_eq_nil_iff.1 h).1

/-- Later sessions find the directory and the active file. -/
theorem Resting.openIn (site : Site base directory top)
    (h : Resting base disk top maxFiles journal slots active)
    (hcheck : (fileIn directory 0).check = .ok ()) (maxSize : Nat) :
    ∃ log, TraceLog.openIn disk directory maxSize maxFiles = (.ok log, disk) ∧
      Keeps base directory top maxSize maxFiles journal.reopen (log, disk) := by
  have hmake := (h.shelved.leads site).makeDirectories
    (Path.check_of_child proper_activeName hcheck)
  have hfilled : active.text ≠ [] := by
    rw [h.text]
    exact fileBytes_ne_nil _
  have hopen := h.shelved.openActive_old site hcheck h.slot hfilled
  refine ⟨⟨directory, maxSize, maxFiles, ⟨.atEnd active.inode, bufferSize, []⟩,
    active.text.length, 0⟩, ?_, ⟨slots, active, h.shelved, h.slot, rfl, ?_, h.older, ?_, rfl⟩,
    rfl, rfl⟩
  · rw [TraceLog.openIn, hmake]
    dsimp only
    rw [hopen]
  · rw [List.append_nil]
    exact h.text
  · exact congrArg List.length h.text

/-! ## Sessions one after another -/

/-- A session whose log could be opened adds its rows to the journal. -/
theorem Keeps.run (site : Site base directory top) {session : LogSession} {log : TraceLog}
    (h : Keeps base directory top session.maxSize maxFiles journal.reopen (log, disk))
    (hopen : openIn start directory session.maxSize maxFiles = (.ok log, disk))
    (hsize : maxFiles < UInt64.size) (hreach : Reachable directory (min total maxFiles))
    (htotal : (session.record journal).volumes.length ≤ total) :
    ∃ answers next slots active, session.run directory maxFiles start = (answers, next) ∧
      AllOk answers ∧ Resting base next top maxFiles (session.record journal) slots active := by
  obtain ⟨answers, next, slots, active, hfinish, hok, hnext⟩ :=
    h.finish site session hsize hreach htotal
  refine ⟨[.ok ()] ++ answers, next, slots, active, ?_, allOk_singleton.append hok, hnext⟩
  rw [LogSession.run, hopen]
  dsimp only
  rw [hfinish]
  rfl

theorem Resting.runAll (site : Site base directory top) (sessions : List LogSession)
    (h : Resting base disk top maxFiles journal slots active) (hsize : maxFiles < UInt64.size)
    (hreach : Reachable directory (min total maxFiles))
    (htotal : (sessions.foldl LogSession.record journal).volumes.length ≤ total) :
    ∃ answers next slots' active',
      runAll (LogSession.run directory maxFiles) sessions disk = (answers, next) ∧
      AllOk answers.flatten ∧
      Resting base next top maxFiles (sessions.foldl LogSession.record journal) slots' active' := by
  induction sessions generalizing disk journal slots active with
  | nil => exact ⟨[], disk, slots, active, rfl, fun _ hmem => absurd hmem List.not_mem_nil, h⟩
  | cons session rest ih =>
      have hfirst : (session.record journal).volumes.length ≤ total :=
        Nat.le_trans (Journal.length_volumes_sessions _ rest) htotal
      obtain ⟨log, hopen, hkept⟩ := h.openIn site (hreach 0 (Nat.zero_le _)) session.maxSize
      obtain ⟨answers, middle, slots', active', hrun, hok, hmiddle⟩ :=
        hkept.run site hopen hsize hreach hfirst
      obtain ⟨answers', next, slots'', active'', hrest, hok', hnext⟩ := ih hmiddle htotal
      refine ⟨answers :: answers', next, slots'', active'', ?_, hok.append hok', hnext⟩
      rw [runAll_cons, hrun, hrest]

/-- From the first session on, the files keep the journal of all sessions. -/
theorem Site.runAll (site : Site base directory top)
    (hmake : start.makeDirectories directory = (.ok (), base)) (hsize : maxFiles < UInt64.size)
    {sessions : List LogSession} (hsome : sessions ≠ [])
    (hreach : Reachable directory (min (journalOf sessions).volumes.length maxFiles)) :
    ∃ answers next slots active,
      runAll (LogSession.run directory maxFiles) sessions start = (answers, next) ∧
      AllOk answers.flatten ∧
      Resting base next top maxFiles (journalOf sessions) slots active := by
  cases sessions with
  | nil => exact absurd rfl hsome
  | cons session rest =>
      have hfirst : (session.record {}).volumes.length ≤
          (journalOf (session :: rest)).volumes.length :=
        Journal.length_volumes_sessions _ rest
      obtain ⟨log, opened, hopen, hkept⟩ :=
        site.openIn hmake (hreach 0 (Nat.zero_le _)) session.maxSize maxFiles
      obtain ⟨answers, middle, slots, active, hrun, hok, hmiddle⟩ :=
        hkept.run site hopen hsize hreach hfirst
      obtain ⟨answers', next, slots', active', hrest, hok', hnext⟩ :=
        hmiddle.runAll site rest hsize hreach (Nat.le_refl _)
      refine ⟨answers :: answers', next, slots', active', ?_, hok.append hok', hnext⟩
      rw [runAll_cons, hrun, hrest]

end DentryWatch.TraceLog
