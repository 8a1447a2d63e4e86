import DentryWatch.Proofs.TraceLog.Acknowledged
import DentryWatch.Proofs.TraceLog.Frames
import DentryWatch.Proofs.TraceLog.Moves

/-!
# Chapters

A log in a directory without files of a log has begun every file under its names. Each of
them is a chapter: the header, and the rows that were taken while it was open. Rotations
close chapters and move them; whatever fails on the way, no row is lost from a chapter,
torn, or written to two of them.
-/

namespace DentryWatch.TraceLog

/-- A file that a log has begun, with the rows that were taken while it was open. -/
structure Chapter where
  inode : Nat
  rows : List Bytes

/-- A log that is open on its last chapter, and has begun every file under its names. -/
structure Filing (base disk : Disk) (directory : Path) (top : Location) (log : TraceLog)
    (slots : Slots) (active : Stored) (closed : List Chapter) (rows : List Bytes) : Prop where
  serving : Serving base disk directory top log slots active
  check : (fileIn directory 0).check = .ok ()
  size : log.maxFiles < UInt64.size
  stream : log.stream disk = fileBytes rows
  rotated : ∀ number stored, slots (number + 1) = some stored →
    ∃ chapter ∈ closed, stored = ⟨chapter.inode, fileBytes chapter.rows⟩
  ordered : slots.Ordered
  ages : (closed.map Chapter.inode ++ [active.inode]).Pairwise (· < ·)

variable {base start made opened disk after : Disk} {directory : Path} {top : Location}
  {slots slots' : Slots} {log next : TraceLog} {active : Stored} {closed : List Chapter}
  {rows taken : List Bytes} {refusals rest : Refusals} {answer : Except SystemError Unit}
  {out : BufferedFile}

/-! ## Bytes -/

/-- Bytes that are pushed out go to the last chapter. -/
theorem Filing.moved (h : Filing base disk directory top log slots active closed rows)
    {bytes : Bytes} {rows' : List Bytes} (hmoved : log.out.Moved disk bytes next.out after)
    (hdirectory : next.directory = log.directory) (hfiles : next.maxFiles = log.maxFiles)
    (hrows : fileBytes rows ++ bytes = fileBytes rows') :
    ∃ text, Filing base after directory top next (slots.place 0 ⟨active.inode, text⟩)
      ⟨active.inode, text⟩ closed rows' := by
  obtain ⟨text, hserving⟩ := h.serving.moved hmoved hdirectory
  refine ⟨text, hserving, h.check, hfiles ▸ h.size, ?_, ?_, h.ordered.place ?_, h.ages⟩
  · rw [TraceLog.stream, hmoved.stream h.serving.appends, ← hrows, ← h.stream, TraceLog.stream]
  · intro number stored hstored
    rw [slots.place_zero_of_pos _ (Nat.succ_pos number)] at hstored
    exact h.rotated number stored hstored
  · intro number other hother
    exact h.ordered 0 (number + 1) active other (Nat.succ_pos number) h.serving.slot hother

/-- With an empty buffer the file of the last chapter is complete. -/
theorem Filing.complete (h : Filing base disk directory top log slots active closed rows)
    (hempty : log.out.pending = []) : active.text = fileBytes rows := by
  have hstream := h.stream
  rw [TraceLog.stream, BufferedFile.stream_of_appends h.serving.appends, hempty, List.append_nil,
    h.serving.handle] at hstream
  exact (h.serving.shelved.text 0 active h.serving.slot).symm.trans hstream

theorem Filing.flushed (h : Filing base disk directory top log slots active closed rows)
    {flushed : Disk}
    (hflush : log.out.flushUnder refusals disk = ((.ok (), out, flushed), rest)) :
    Filing base flushed directory top { log with out }
      (slots.place 0 ⟨active.inode, fileBytes rows⟩) ⟨active.inode, fileBytes rows⟩ closed rows := by
  obtain ⟨hmoved, hempty⟩ := BufferedFile.flushUnder_moved h.serving.appends hflush
  obtain ⟨text, hnext⟩ : ∃ text, Filing base flushed directory top { log with out }
      (slots.place 0 ⟨active.inode, text⟩) ⟨active.inode, text⟩ closed rows :=
    h.moved hmoved rfl rfl (List.append_nil _)
  obtain rfl : text = fileBytes rows := hnext.complete (hempty rfl)
  exact hnext

/-! ## Rotations -/

section Rotations

variable (site : Site base directory top)

include site

/-- A rotation closes the last chapter and begins another. -/
theorem Filing.turned (h : Filing base disk directory top log slots active closed rows)
    (hrotates : Rotates log refusals disk (.ok ()) next after rest) :
    ∃ slots' active', Filing base after directory top next slots' active'
      (closed ++ [⟨active.inode, rows⟩]) [] := by
  cases hrotates with
  | @turned out fresh flushed retired after size rest flush retire opening =>
      have hflushed := h.flushed flush
      obtain ⟨gone, hgone, hmoved⟩ := hflushed.serving.shelved.of_retire_ok site
        hflushed.serving.directory hflushed.size retire
      obtain ⟨hopen, hnew⟩ := hgone.openActive_new site h.check hmoved.active
      rw [h.serving.directory, hopen] at opening
      cases opening
      have hlater : active.inode < retired.nextInode := by
        have hsame := sameBytes_retire { log with out } flushed
        rw [retire] at hsame
        rw [hsame.nextInode]
        exact hflushed.serving.shelved.numbered 0 ⟨active.inode, fileBytes rows⟩
          hflushed.serving.slot
      refine ⟨_, ⟨retired.nextInode, []⟩, ⟨hnew, rfl, rfl, h.serving.directory⟩, h.check, h.size,
        ?_, ?_, (hmoved.ordered hflushed.ordered).place ?_, ?_⟩
      · have hcontent := hnew.text 0 _ rfl
        exact (congrArg (· ++ headerBytes) hcontent).trans (List.append_nil _).symm
      · intro number stored hstored
        rw [gone.place_zero_of_pos _ (Nat.succ_pos number)] at hstored
        obtain ⟨other, hother⟩ := hmoved.rotated _ stored hstored
        rcases Slots.of_place hother with ⟨-, rfl⟩ | ⟨hne, hold⟩
        · exact ⟨⟨active.inode, rows⟩, by simp, rfl⟩
        · obtain ⟨before, rfl⟩ := Nat.exists_eq_succ_of_ne_zero hne
          obtain ⟨chapter, hmem, heq⟩ := h.rotated before stored hold
          exact ⟨chapter, List.mem_append_left _ hmem, heq⟩
      · exact fun number other hother => hgone.numbered _ other hother
      · rw [List.map_append, List.pairwise_append]
        refine ⟨h.ages, List.pairwise_singleton _ _, ?_⟩
        intro inode hmem fresh hfresh
        obtain rfl := List.mem_singleton.1 hfresh
        rcases List.mem_append.1 hmem with hclosed | hlast
        · have hbefore := (List.pairwise_append.1 h.ages).2.2 inode hclosed _ (List.mem_singleton.2 rfl)
          exact Nat.lt_trans hbefore hlater
        · obtain rfl := List.mem_singleton.1 hlast
          exact hlater

/-- A rotation that fails goes on with the last chapter, wherever it stopped. -/
theorem Filing.failed (h : Filing base disk directory top log slots active closed rows)
    {cause : SystemError} (hrotates : Rotates log refusals disk (.error cause) next after rest) :
    ∃ slots' active', Filing base after directory top next slots' active' closed rows := by
  cases hrotates with
  | refused flush =>
      have hmoved := (BufferedFile.flushUnder_moved h.serving.appends flush).1
      obtain ⟨text, hnext⟩ : ∃ text, Filing base after directory top { log with out := _ }
          (slots.place 0 ⟨active.inode, text⟩) ⟨active.inode, text⟩ closed rows :=
        h.moved hmoved rfl rfl (List.append_nil _)
      exact ⟨_, _, hnext⟩
  | stuck flush retire =>
      have hflushed := h.flushed flush
      obtain ⟨drawn, hshelved, hdrawn⟩ := hflushed.serving.shelved.of_retire_error site
        hflushed.serving.directory hflushed.size retire
      refine ⟨drawn, ⟨active.inode, fileBytes rows⟩, ⟨hshelved, hdrawn.active,
        hflushed.serving.handle, h.serving.directory⟩, h.check, h.size, ?_, ?_,
        hdrawn.ordered hflushed.ordered, h.ages⟩
      · exact (stream_of_retire h.serving.appends flush retire).2.2.trans h.stream
      · intro number stored hstored
        obtain ⟨other, hother⟩ := hdrawn.rotated number stored hstored
        exact hflushed.rotated other stored hother
  | unopened flush retire opening =>
      have hflushed := h.flushed flush
      obtain ⟨gone, hgone, hmoved⟩ := hflushed.serving.shelved.of_retire_ok site
        hflushed.serving.directory hflushed.size retire
      obtain ⟨hopen, -⟩ := hgone.openActive_new site h.check hmoved.active
      rw [h.serving.directory, hopen] at opening
      cases opening

end Rotations

/-! ## Runs -/

/-- The rows taken so far are those of the chapters, in order. -/
def Filed (base : Disk) (directory : Path) (top : Location) (taken : List Bytes) (log : TraceLog)
    (disk : Disk) : Prop :=
  ∃ slots active closed rows,
    Filing base disk directory top log slots active closed rows ∧
      closed.flatMap Chapter.rows ++ rows = taken

theorem Filed.moved (h : Filed base directory top taken log disk) {bytes : Bytes}
    (more : List Bytes) (hmoved : log.out.Moved disk bytes next.out after)
    (hdirectory : next.directory = log.directory) (hfiles : next.maxFiles = log.maxFiles)
    (hmore : bytes = more.flatten) : Filed base directory top (taken ++ more) next after := by
  obtain ⟨slots, active, closed, rows, hfiling, rfl⟩ := h
  have hrows : fileBytes rows ++ bytes = fileBytes (rows ++ more) := by
    rw [fileBytes, fileBytes, List.flatten_append, List.append_assoc, hmore]
  obtain ⟨text, hnext⟩ := hfiling.moved hmoved hdirectory hfiles hrows
  exact ⟨_, _, closed, _, hnext, (List.append_assoc _ _ _).symm⟩

theorem Filed.appends (h : Filed base directory top taken log disk) : log.out.handle.Appends := by
  obtain ⟨slots, active, closed, rows, hfiling, -⟩ := h
  exact hfiling.serving.appends

theorem Filed.rotate (site : Site base directory top) (h : Filed base directory top taken log disk)
    (hrotates : Rotates log refusals disk answer next after rest) :
    Filed base directory top taken next after := by
  obtain ⟨slots, active, closed, rows, hfiling, rfl⟩ := h
  cases answer with
  | error cause =>
      obtain ⟨slots', active', hnext⟩ := hfiling.failed site hrotates
      exact ⟨slots', active', closed, rows, hnext, rfl⟩
  | ok done =>
      obtain ⟨slots', active', hnext⟩ := hfiling.turned site hrotates
      exact ⟨slots', active', _, [], hnext, by simp⟩

/-- A row that the buffer takes comes behind the rest. -/
theorem Filed.written (h : Filed base directory top taken log disk) {row : Bytes}
    (hwrite : log.out.writeUnder refusals disk row = ((.ok (), out, after), rest)) :
    Filed base directory top (taken ++ [row]) (log.written out row) after :=
  h.moved [row] (BufferedFile.writeUnder_moved h.appends hwrite) rfl rfl List.flatten_singleton.symm

/-- A row that is taken stays behind the rest, whether or not a rotation follows. -/
theorem Filed.write_ok (site : Site base directory top)
    (h : Filed base directory top taken log disk) {row : Bytes} {outcome : Outcome}
    (hwrites : Writes log refusals disk row (.ok ()) next after rest outcome) :
    Filed base directory top (taken ++ [row]) next after := by
  cases hwrites with
  | kept write => exact h.written write
  | unturned write rotate => exact (h.written write).rotate site rotate
  | turned write rotate => exact (h.written write).rotate site rotate

theorem Filed.write_error (h : Filed base directory top taken log disk) {row : Bytes}
    {cause : SystemError} {outcome : Outcome}
    (hwrites : Writes log refusals disk row (.error cause) next after rest outcome) :
    Filed base directory top (taken ++ []) next after := by
  cases hwrites with
  | refused write =>
      exact h.moved [] (BufferedFile.writeUnder_moved h.appends write) rfl rfl rfl

theorem Filed.run (site : Site base directory top) (h : Filed base directory top taken log disk)
    {step : LogStep}
    (hrun : step.runUnder ((log, disk), refusals) = (answer, ((next, after), rest))) :
    Filed base directory top (taken ++ (step.taken? answer).toList) next after := by
  cases step with
  | flush =>
      have hflush := flushUnder_of_run hrun
      rcases hout : log.out.flushUnder refusals disk with ⟨⟨flushed, out, middle⟩, left⟩
      rw [flushUnder, hout] at hflush
      cases hflush
      have hnone : LogStep.taken? .flush answer = none := by
        cases answer <;> rfl
      rw [hnone]
      exact h.moved [] (BufferedFile.flushUnder_moved h.appends hout).1 rfl rfl rfl
  | write seen record path =>
      have hwrites := writes_of_writeRecordUnder (writeRecordUnder_of_run hrun)
      cases answer with
      | error cause => exact h.write_error hwrites
      | ok done => exact h.write_ok site hwrites

theorem Filed.runAll (site : Site base directory top) (steps : List LogStep)
    {answers : List (Except SystemError Unit)} (h : Filed base directory top taken log disk)
    (hrun : runAll LogStep.runUnder steps ((log, disk), refusals) =
      (answers, ((next, after), rest))) :
    Filed base directory top (taken ++ acknowledged steps answers) next after := by
  induction steps generalizing log disk refusals answers taken with
  | nil =>
      cases hrun
      rwa [acknowledged, List.zip_nil_left, List.filterMap_nil, List.append_nil]
  | cons step more ih =>
      rcases hstep : step.runUnder ((log, disk), refusals) with ⟨first, ⟨⟨fresh, middle⟩, left⟩⟩
      rcases hmore : DentryWatch.runAll LogStep.runUnder more ((fresh, middle), left) with
        ⟨others, ⟨⟨last, final⟩, unused⟩⟩
      rw [runAll_cons, hstep, hmore] at hrun
      cases hrun
      have hnext := ih (h.run site hstep) hmore
      rwa [List.append_assoc, ← acknowledged_cons] at hnext

/-! ## Opening -/

theorem Filed.openIn {maxSize maxFiles : Nat} (site : Site made directory top)
    (hmake : start.makeDirectories directory = (.ok (), made)) (hsize : maxFiles < UInt64.size)
    (hopen : openIn start directory maxSize maxFiles = (.ok log, opened)) :
    Filed made directory top [] log opened := by
  have hcheck : (fileIn directory 0).check = .ok () := by
    have hactive := hopen
    rw [TraceLog.openIn, hmake] at hactive
    dsimp only at hactive
    cases hbegins : openActive made directory with
    | error cause =>
        rw [hbegins] at hactive
        cases hactive
    | ok begun =>
        obtain ⟨out, size, disk⟩ := begun
        obtain ⟨location, hopens, -⟩ := openActive_output hbegins
        exact Disk.check_of_locate hopens.names.locate
  have hbegun := openIn_missing hmake site.leads hcheck (site.free 0)
    (site.sound.unused _ (Nat.le_refl _)) maxSize maxFiles
  cases hopen.symm.trans hbegun
  refine ⟨_, ⟨made.nextInode, []⟩, [], [], ⟨⟨site.shelved.create 0, rfl, rfl, rfl⟩, hcheck, hsize,
    ?_, ?_, ?_, List.pairwise_singleton _ _⟩, rfl⟩
  · have hcontent := (site.shelved.create 0).text 0 ⟨made.nextInode, []⟩ rfl
    exact (congrArg (· ++ headerBytes) hcontent).trans (List.append_nil _).symm
  · intro number stored hstored
    rcases Slots.of_place hstored with ⟨hzero, -⟩ | ⟨-, hnone⟩
    · cases hzero
    · cases hnone
  · have hnone : Slots.Ordered fun _ => none := by
      intro i j newer older _ hi
      cases hi
    refine hnone.place fun number other hother => ?_
    cases hother

/-! ## The files -/

/--
The files under the names of a log, each a chapter that falls into its header and its rows.
The larger its number the earlier a file was begun, and the active one was begun last.
-/
structure ShowsChapters (disk : Disk) (top : Location) (chapters : List Chapter) : Prop where
  ages : chapters.Pairwise fun older newer => older.inode < newer.inode
  active : ∃ last, chapters.getLast? = some last ∧
    disk.find? (fileAt top 0) = some (.file last.inode)
  file : ∀ number node, disk.find? (fileAt top number) = some node →
    ∃ chapter ∈ chapters, node = .file chapter.inode ∧
      disk.content chapter.inode = fileBytes chapter.rows ∧
      (disk.content chapter.inode).splitOn lineFeed =
        (headerBytes :: chapter.rows).map List.dropLast ++ [[]] ∧
      ∀ row ∈ chapter.rows, (cells row).length = 6
  ordered : ∀ i j newer older, i < j → disk.find? (fileAt top i) = some (.file newer) →
    disk.find? (fileAt top j) = some (.file older) → older < newer

theorem isRow_of_mem_acknowledged {steps : List LogStep}
    {answers : List (Except SystemError Unit)} {row : Bytes}
    (h : row ∈ acknowledged steps answers) : IsRow row := by
  obtain ⟨⟨step, answer⟩, -, hrow⟩ := List.mem_filterMap.1 h
  cases answer with
  | error cause => cases hrow
  | ok done =>
      cases step with
      | write seen record path => exact ⟨seen, record, path, (Option.some.inj hrow).symm⟩
      | flush => cases hrow

theorem length_cells {row : Bytes} (h : IsRow row) : (cells row).length = 6 := by
  obtain ⟨seen, record, path, rfl⟩ := h
  rw [cells_rowBytes]
  rfl

/-- Once the buffer is empty every file is a chapter, a closed one or the last. -/
theorem Filing.chapter_of_slot (h : Filing base disk directory top log slots active closed rows)
    (hempty : log.out.pending = []) {number : Nat} {stored : Stored}
    (hstored : slots number = some stored) :
    ∃ chapter ∈ closed ++ [⟨active.inode, rows⟩],
      stored = ⟨chapter.inode, fileBytes chapter.rows⟩ := by
  cases number with
  | zero =>
      obtain rfl : stored = active := Option.some.inj (hstored.symm.trans h.serving.slot)
      exact ⟨⟨stored.inode, rows⟩, by simp, by rw [← h.complete hempty]⟩
  | succ number =>
      obtain ⟨chapter, hmem, heq⟩ := h.rotated number stored hstored
      exact ⟨chapter, List.mem_append_left _ hmem, heq⟩

/-- Once the buffer is empty the last chapter stands on the disk like the others. -/
theorem Filing.shows (h : Filing base disk directory top log slots active closed rows)
    (hempty : log.out.pending = [])
    (hrows : ∀ row ∈ closed.flatMap Chapter.rows ++ rows, IsRow row) :
    ShowsChapters disk top (closed ++ [⟨active.inode, rows⟩]) := by
  have hshelved := h.serving.shelved
  have hinode : ∀ number inode, disk.find? (fileAt top number) = some (.file inode) →
      ∃ stored, slots number = some stored ∧ stored.inode = inode := by
    intro number inode hfind
    rw [hshelved.slot, Option.map_eq_some_iff] at hfind
    obtain ⟨stored, hstored, hnode⟩ := hfind
    exact ⟨stored, hstored, Node.file.inj hnode⟩
  refine ⟨?_, ⟨⟨active.inode, rows⟩, List.getLast?_concat, ?_⟩, ?_, ?_⟩
  · rw [← List.pairwise_map (f := Chapter.inode) (R := (· < ·)), List.map_append]
    exact h.ages
  · exact hshelved.find?_of_some 0 h.serving.slot
  · intro number node hfind
    rw [hshelved.slot, Option.map_eq_some_iff] at hfind
    obtain ⟨stored, hstored, rfl⟩ := hfind
    obtain ⟨chapter, hmem, heq⟩ := h.chapter_of_slot hempty hstored
    have hall : ∀ row ∈ chapter.rows, IsRow row := by
      intro row hrow
      refine hrows row ?_
      have hflat : row ∈ (closed ++ [(⟨active.inode, rows⟩ : Chapter)]).flatMap Chapter.rows :=
        List.mem_flatMap.2 ⟨chapter, hmem, hrow⟩
      simpa using hflat
    have hcontent : disk.content chapter.inode = fileBytes chapter.rows := by
      have htext := hshelved.text number stored hstored
      rwa [heq] at htext
    exact ⟨chapter, hmem, by rw [heq], hcontent, hcontent ▸ splitOn_fileBytes hall,
      fun row hrow => length_cells (hall row hrow)⟩
  · intro i j newer older hlt hi hj
    obtain ⟨stored, hstored, rfl⟩ := hinode i newer hi
    obtain ⟨stored', hstored', rfl⟩ := hinode j older hj
    exact h.ordered i j stored stored' hlt hstored hstored'

/-- What is flushed or closed with success falls into the chapters of all rows taken. -/
theorem Filed.shows_flush (h : Filed base directory top taken log disk)
    (hrows : ∀ row ∈ taken, IsRow row)
    (hflush : log.out.flushUnder refusals disk = ((.ok (), out, after), rest)) :
    ∃ chapters, chapters.flatMap Chapter.rows = taken ∧ ShowsChapters after top chapters := by
  obtain ⟨slots, active, closed, rows, hfiling, rfl⟩ := h
  have hempty := (BufferedFile.flushUnder_moved hfiling.serving.appends hflush).2 rfl
  exact ⟨_, by simp, (hfiling.flushed hflush).shows hempty hrows⟩

/-! ## The headline -/

/-- A row that is taken comes behind the stream, in the open file or in the one before it. -/
theorem Writes.appended {row : Bytes} {outcome : Outcome}
    (h : Writes log refusals disk row (.ok ()) next after rest outcome)
    (happends : log.out.handle.Appends) :
    (next.out.handle = log.out.handle ∧ next.stream after = log.stream disk ++ row) ∨
      after.held log.out.handle = log.stream disk ++ row := by
  cases h with
  | kept write =>
      have hmoved := BufferedFile.writeUnder_moved happends write
      exact .inl ⟨hmoved.handle, hmoved.stream happends⟩
  | unturned write rotate =>
      have hmoved := BufferedFile.writeUnder_moved happends write
      cases rotate.rotated (hmoved.appends happends) with
      | failed handle stream size rows =>
          exact .inl ⟨handle.trans hmoved.handle, stream.trans (hmoved.stream happends)⟩
  | turned write rotate =>
      have hmoved := BufferedFile.writeUnder_moved happends write
      cases rotate.rotated (hmoved.appends happends) with
      | succeeded appends held stream size rows =>
          exact .inr ((hmoved.handle ▸ held).trans (hmoved.stream happends))

/--
A row has one line feed, at its end, no carriage return and five tabs, between which its six
columns are read back; in the path each character that would break the frame is a space. A
write that goes well adds these bytes to the stream and no others. So after any calls on a
log that was opened in a directory without files of a log, whichever pushes were turned
away, a flush or a close that goes well leaves files that fall into the header and the rows
that were taken while they were open, and together the files begun have all rows taken.
-/
theorem rows_are_framed :
    (∀ (seen : Instant) (record : Record) (path : String),
      let row := rowBytes seen record path
      row.count lineFeed = 1 ∧ row.getLast? = some lineFeed ∧ carriageReturn ∉ row ∧
        row.count tab = 5 ∧
        cells row =
          [seen.nanosText, Text.decimal record.group.toNat, record.operation.name.toList,
            Text.decimal record.count, (toString record.rootReached).toList,
            path.toList.map fun c => if c = '\t' ∨ c = '\n' ∨ c = '\r' then ' ' else c].map
              Utf8.encodeChars) ∧
    (∀ (log next : TraceLog) (disk after : Disk) (refusals rest : Refusals) (seen : Instant)
      (record : Record) (path : String), log.out.handle.Appends →
      log.writeRecordUnder refusals disk seen record path = ((.ok (), next, after), rest) →
      (next.out.handle = log.out.handle ∧
          next.stream after = log.stream disk ++ rowBytes seen record path) ∨
        after.held log.out.handle = log.stream disk ++ rowBytes seen record path) ∧
    ∀ (start made opened : Disk) (directory : Path) (top : Location) (maxSize maxFiles : Nat)
      (log : TraceLog) (refusals : Refusals) (steps : List LogStep),
      start.makeDirectories directory = (.ok (), made) → Site made directory top →
      maxFiles < UInt64.size →
      openIn start directory maxSize maxFiles = (.ok log, opened) →
      ∃ answers log' disk left,
        runAll LogStep.runUnder steps ((log, opened), refusals) =
          (answers, ((log', disk), left)) ∧
        (∀ next after rest, log'.flushUnder left disk = ((.ok (), next, after), rest) →
          ∃ chapters, chapters.flatMap Chapter.rows = acknowledged steps answers ∧
            ShowsChapters after top chapters) ∧
        ∀ after rest, log'.closeUnder left disk = ((.ok (), after), rest) →
          ∃ chapters, chapters.flatMap Chapter.rows = acknowledged steps answers ∧
            ShowsChapters after top chapters := by
  refine ⟨fun seen record path => ?_, ?_, ?_⟩
  · exact ⟨count_lineFeed_rowBytes seen record path, getLast?_rowBytes seen record path,
      carriageReturn_not_mem_rowBytes seen record path, count_tab_rowBytes seen record path,
      cells_rowBytes_eq seen record path⟩
  · intro log next disk after refusals rest seen record path happends hwrite
    exact (writes_of_writeRecordUnder hwrite).appended happends
  · intro start made opened directory top maxSize maxFiles log refusals steps hmake site hsize hopen
    rcases hrun : runAll LogStep.runUnder steps ((log, opened), refusals) with
      ⟨answers, ⟨⟨log', disk⟩, left⟩⟩
    have hfiled := (Filed.openIn site hmake hsize hopen).runAll site steps hrun
    have hrows : ∀ row ∈ [] ++ acknowledged steps answers, IsRow row :=
      fun row hmem => isRow_of_mem_acknowledged hmem
    refine ⟨answers, log', disk, left, rfl, ?_, ?_⟩
    · intro next after rest hflush
      rcases hout : log'.out.flushUnder left disk with ⟨⟨flushed, out, middle⟩, unused⟩
      rw [flushUnder, hout] at hflush
      cases hflush
      exact hfiled.shows_flush hrows hout
    · intro after rest hclose
      rcases hout : log'.out.flushUnder left disk with ⟨⟨flushed, out, middle⟩, unused⟩
      rw [closeUnder, hout] at hclose
      cases flushed with
      | error cause => cases hclose
      | ok done =>
          have hempty := (BufferedFile.flushUnder_moved hfiled.appends hout).2 rfl
          dsimp only at hclose
          rw [BufferedFile.dropUnder_of_empty hempty] at hclose
          obtain rfl : middle = after := congrArg (fun closed => closed.1.2) hclose
          exact hfiled.shows_flush hrows hout

/-- A path that imitates a header and a row is in one row, also when a rotation fails behind it. -/
theorem rows_are_framed_imitation :
    let path : String := "/a\n" ++ String.ofList header ++ "now\t1\talloc\t1\ttrue\t/b\r\n"
    let row : Bytes := rowBytes ⟨0, 0⟩ {} path
    let steps : List LogStep := [.write ⟨0, 0⟩ {} path, .flush]
    let refusals : Refusals := [some .noSpace]
    let log : TraceLog := begun [] 1 1 1048576
    let opened : Disk := (({} : Disk).create (fileAt [] 0) .file).2
    openIn {} [] 1 1 = (.ok log, opened) ∧ row.count lineFeed = 1 ∧ row.count tab = 5 ∧
      (∃ next after rest,
        log.writeRecordUnder refusals opened ⟨0, 0⟩ {} path = ((.ok (), next, after), rest) ∧
        ((next.out.handle = log.out.handle ∧ next.stream after = log.stream opened ++ row) ∨
          after.held log.out.handle = log.stream opened ++ row)) ∧
      ∃ log' disk next after rest,
        runAll LogStep.runUnder steps ((log, opened), refusals) =
          ([.ok (), .ok ()], ((log', disk), [])) ∧
        log'.flushUnder [] disk = ((.ok (), next, after), rest) ∧
        ∃ chapters, chapters.flatMap Chapter.rows = [row] ∧ ShowsChapters after [] chapters := by
  intro path row steps refusals log opened
  have hcheck : (fileIn [] 0).check = .ok () := rfl
  have hmake : ({} : Disk).makeDirectories [] = (.ok (), {}) :=
    site_empty.leads.makeDirectories (Path.check_of_child proper_activeName hcheck)
  have hopen : openIn {} [] 1 1 = (.ok log, opened) :=
    openIn_missing hmake site_empty.leads hcheck (site_empty.free 0)
      (Disk.sound_empty.unused _ (Nat.le_refl _)) 1 1
  obtain ⟨hframed, happended, hruns⟩ := rows_are_framed
  obtain ⟨hfeeds, -, -, htabs, -⟩ := hframed ⟨0, 0⟩ {} path
  refine ⟨hopen, hfeeds, htabs, ?_, ?_⟩
  · have hok : (log.writeRecordUnder refusals opened ⟨0, 0⟩ {} path).1.1 = .ok () := by
      decide +kernel
    rcases hwrite : log.writeRecordUnder refusals opened ⟨0, 0⟩ {} path with
      ⟨⟨answer, next, after⟩, rest⟩
    rw [hwrite] at hok
    subst hok
    exact ⟨next, after, rest, rfl,
      happended log next opened after refusals rest ⟨0, 0⟩ {} path nofun hwrite⟩
  · have hanswers : (runAll LogStep.runUnder steps ((log, opened), refusals)).1 =
        [.ok (), .ok ()] := by
      decide +kernel
    have hleft : (runAll LogStep.runUnder steps ((log, opened), refusals)).2.2 = [] := by
      decide +kernel
    have hok : (TraceLog.flushUnder [] (runAll LogStep.runUnder steps ((log, opened), refusals)).2.1.1
        (runAll LogStep.runUnder steps ((log, opened), refusals)).2.1.2).1.1 = .ok () := by
      decide +kernel
    obtain ⟨answers, log', disk, left, hrun, hflushes, -⟩ :=
      hruns {} {} opened [] [] 1 1 log refusals steps hmake site_empty (by decide) hopen
    rw [hrun] at hanswers hleft hok
    subst hanswers hleft
    rcases hflush : log'.flushUnder [] disk with ⟨⟨answer, next, after⟩, rest⟩
    rw [hflush] at hok
    subst hok
    exact ⟨log', disk, next, after, rest, hrun, hflush, hflushes next after rest hflush⟩

end DentryWatch.TraceLog
