import DentryWatch.Proofs.TraceLog.Leftovers

/-!
# Acknowledged rows

While a log is opened and called, any push of its buffer may be turned away. The rows
that reach its stream are those whose calls went well, each once and in order, and a
flush or close that goes well brings them all to the file.
-/

namespace DentryWatch.TraceLog

variable {start opened : Disk} {directory : Path} {top : Location} {maxSize maxFiles : Nat}
  {log : TraceLog}

/-! ## Opening -/

/-- A directory that a log can be opened in. Its files there are ordinary files. -/
structure Ordinary (disk : Disk) (directory : Path) (top : Location) (maxFiles : Nat) : Prop where
  sound : disk.Sound
  leads : disk.Leads directory top
  files : FilesOnly disk top
  size : maxFiles < UInt64.size
  reach : Reachable directory maxFiles

theorem openIn_balances (hopen : openIn start directory maxSize maxFiles = (.ok log, opened)) :
    Ledger.Balances { start := opening (opened.held log.out.handle) } log opened ∧
      log.rows = 0 := by
  unfold openIn at hopen
  rcases hmake : start.makeDirectories directory with ⟨_ | done, made⟩
  · rw [hmake] at hopen
    cases hopen
  rw [hmake] at hopen
  dsimp only at hopen
  cases hactive : openActive made directory with
  | error cause =>
      rw [hactive] at hopen
      cases hopen
  | ok begun =>
      obtain ⟨out, size, next⟩ := begun
      have hbegins := openActive_begins hactive
      rw [hactive] at hopen
      cases hopen
      exact ⟨⟨hbegins.appends, hbegins.stream.trans (List.append_nil _).symm, hbegins.size⟩, rfl⟩

theorem Ordinary.site (h : Ordinary start directory top maxFiles) :
    Site (cleared start top) directory top :=
  h.files.site h.sound h.leads

theorem Ordinary.served (h : Ordinary start directory top maxFiles)
    (hopen : openIn start directory maxSize maxFiles = (.ok log, opened)) :
    ∃ slots, Served (cleared start top) directory top maxFiles slots log opened := by
  obtain ⟨log', opened', slots, active, hopen', rfl, hserving, -⟩ :=
    h.files.openIn h.sound h.leads (h.reach 0 (Nat.zero_le _)) maxSize maxFiles
  cases hopen.symm.trans hopen'
  exact ⟨slots, hserving.served⟩

/-! ## The headline -/

/--
A log is opened on any disk and called in any way, while pushes of its buffer are turned away
in any pattern. Its stream is what its file was begun with, and the rows taken since, in
order; its size is the length of the stream, and it counts the rows of all calls that went
well. A further write either fails and changes none of these, or puts its row at the end of
the stream, after which a rotation, if one succeeds, leaves the old file with the whole
stream. In a directory with ordinary files the new stream is the header alone. A flush or
close that goes well leaves the whole stream in the open file.
-/
theorem acknowledged_rows_reach_stream (start opened : Disk) (directory : Path)
    (maxSize maxFiles : Nat) (log : TraceLog) (refusals : Refusals) (steps : List LogStep)
    (hopen : openIn start directory maxSize maxFiles = (.ok log, opened)) :
    ∃ answers log' disk left ledger,
      runAll LogStep.runUnder steps ((log, opened), refusals) = (answers, ((log', disk), left)) ∧
      ledger = Ledger.noteAll { start := opening (opened.held log.out.handle) } steps
        ((log, opened), refusals) ∧
      log'.stream disk = ledger.start ++ ledger.rows.flatten ∧
      log'.size = (log'.stream disk).length ∧
      log'.rows = (acknowledged steps answers).length ∧
      ledger.rows <:+ acknowledged steps answers ∧
      (∀ seen record path answer next after rest,
        log'.writeRecordUnder left disk seen record path = ((answer, next, after), rest) →
        (log'.outcomeUnder left disk (rowBytes seen record path)).Shows log' disk
            (rowBytes seen record path) answer next after ∧
          ∀ top, Ordinary start directory top maxFiles →
            log'.outcomeUnder left disk (rowBytes seen record path) = .turned →
            next.stream after = headerBytes ∧ next.out.handle ≠ log'.out.handle) ∧
      (∀ next after rest, log'.flushUnder left disk = ((.ok (), next, after), rest) →
        after.held next.out.handle = ledger.start ++ ledger.rows.flatten) ∧
      ∀ after rest, log'.closeUnder left disk = ((.ok (), after), rest) →
        after.held log'.out.handle = ledger.start ++ ledger.rows.flatten := by
  rcases hrun : runAll LogStep.runUnder steps ((log, opened), refusals) with
    ⟨answers, ⟨⟨log', disk⟩, left⟩⟩
  obtain ⟨hstart, hzero⟩ := openIn_balances hopen
  obtain ⟨hbalance, hrows, hsuffix⟩ := hstart.runAll steps hrun
  rw [hzero, Nat.zero_add] at hrows
  refine ⟨answers, log', disk, left, _, rfl, rfl, hbalance.stream, hbalance.size, hrows, hsuffix,
    ?_, ?_, ?_⟩
  · intro seen record path answer next after rest hwrite
    have hwrites := writes_of_writeRecordUnder hwrite
    refine ⟨(hbalance.write hwrites).1, fun top hordinary => ?_⟩
    obtain ⟨slots, hopened⟩ := hordinary.served hopen
    have hserved := hopened.runAll hordinary.site hordinary.size hordinary.reach steps hrun
    exact (hserved.write hordinary.site hordinary.size hordinary.reach hwrites).2
  · exact fun next after rest hflush => (hbalance.flush hflush).2.2 rfl
  · exact fun after rest hclose => hbalance.close hclose

/-! ## A new log that is refused at first -/

theorem ordinary_empty : Ordinary {} [] [] 1 :=
  ⟨Disk.sound_empty, site_empty.leads, site_empty.shelved.filesOnly, by decide, reachable_one⟩

/-- Rows are kept while pushes are refused. The first rotation that succeeds has them all. -/
theorem acknowledged_rows_reach_stream_refused :
    let log : TraceLog := begun [] 1 1 1048576
    let opened : Disk := (({} : Disk).create (fileAt [] 0) .file).2
    let rows : Bytes := rowBytes ⟨0, 0⟩ {} "/a" ++ rowBytes ⟨0, 0⟩ {} "/b"
    openIn {} [] 1 1 = (.ok log, opened) ∧ Ordinary {} [] [] 1 ∧
      ∃ log' disk next after rest,
        runAll LogStep.runUnder [.write ⟨0, 0⟩ {} "/a", .flush, .write ⟨0, 0⟩ {} "/b"]
            ((log, opened), [some .noSpace, some .noSpace, some .noSpace]) =
          ([.ok (), .error .noSpace, .ok ()], ((log', disk), [])) ∧
        log'.stream disk = headerBytes ++ rows ∧ log'.rows = 2 ∧
        log'.writeRecordUnder [] disk ⟨0, 0⟩ {} "/c" = ((.ok (), next, after), rest) ∧
        after.held log'.out.handle = headerBytes ++ rows ++ rowBytes ⟨0, 0⟩ {} "/c" ∧
        next.stream after = headerBytes := by
  intro log opened rows
  have hcheck := reachable_one 0 (by decide)
  have hmake : ({} : Disk).makeDirectories [] = (.ok (), {}) :=
    site_empty.leads.makeDirectories (Path.check_of_child proper_activeName hcheck)
  have hopen : openIn {} [] 1 1 = (.ok log, opened) :=
    openIn_missing hmake site_empty.leads hcheck (site_empty.free 0)
      (Disk.sound_empty.unused _ (Nat.le_refl _)) 1 1
  obtain ⟨answers, log', disk, left, ledger, hrun, rfl, hstream, -, hrows, -, hwrite, -⟩ :=
    acknowledged_rows_reach_stream {} opened [] 1 1 log
      [some .noSpace, some .noSpace, some .noSpace]
      [.write ⟨0, 0⟩ {} "/a", .flush, .write ⟨0, 0⟩ {} "/b"] hopen
  have hanswers : [.ok (), .error .noSpace, .ok ()] = answers := congrArg Prod.fst hrun
  have hleft : [] = left := congrArg (fun ran => ran.2.2) hrun
  have hlimit : 1 = log'.maxSize := congrArg (fun ran => ran.2.1.1.maxSize) hrun
  subst hanswers hleft
  obtain ⟨slots, hopened⟩ := ordinary_empty.served hopen
  have hserved := hopened.runAll ordinary_empty.site ordinary_empty.size ordinary_empty.reach _ hrun
  have houtcome := hserved.outcomeUnder_nil ordinary_empty.site ordinary_empty.size
    ordinary_empty.reach (rowBytes ⟨0, 0⟩ {} "/c")
  have hrow : 1 ≤ (rowBytes ⟨0, 0⟩ {} "/c").length := by decide +kernel
  rw [if_pos (by omega)] at houtcome
  rcases hlast : log'.writeRecordUnder [] disk ⟨0, 0⟩ {} "/c" with ⟨⟨answer, next, after⟩, rest⟩
  obtain ⟨hshows, hnew⟩ := hwrite ⟨0, 0⟩ {} "/c" answer next after rest hlast
  have hheader := (hnew [] ordinary_empty houtcome).1
  rw [houtcome] at hshows
  cases hshows with
  | turned held stream rows =>
      rw [hstream] at held
      exact ⟨hopen, ordinary_empty, log', disk, next, after, rest, hrun, hstream, hrows, hlast, held,
        hheader⟩

end DentryWatch.TraceLog
