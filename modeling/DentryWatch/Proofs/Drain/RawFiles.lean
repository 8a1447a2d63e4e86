import DentryWatch.Drain
import DentryWatch.Proofs.Disk.Opened

/-!
# Files of raw records

A raw file takes records in order, as any output does. If there is none, nothing
is touched.
-/

namespace DentryWatch.Drain

/-- What the file of raw records has taken, if there is one. -/
inductive RawOutput (disk : Disk) : Option BufferedFile → Option Node → Bytes → Prop
  | absent {bytes : Bytes} : RawOutput disk none none bytes
  | present {file : BufferedFile} {node : Node} {bytes : Bytes} (output : file.Output disk node bytes)
      (capacity : file.capacity = rawBufferSize) : RawOutput disk (some file) (some node) bytes

/-- Opens a raw file if a path is given. -/
inductive RawOpened (disk : Disk) : Option Path → Option BufferedFile → Disk → Prop
  | absent : RawOpened disk none none disk
  | present {path : Path} {file : BufferedFile} {next : Disk}
      (opened : openRaw disk path = .ok (file, next)) :
      RawOpened disk (some path) (some file) next

variable {disk next : Disk} {raw : Option BufferedFile} {node : Option Node} {bytes : Bytes}

/-- The file that records are copied to; without one, as good as the full device. -/
abbrev target (node : Option Node) : Node := node.getD .full

theorem RawOutput.elsewhere (h : RawOutput disk raw node bytes)
    (hkept : ∀ inode, node = some (.file inode) → next.content inode = disk.content inode) :
    RawOutput next raw node bytes := by
  cases h with
  | absent => exact .absent
  | present output capacity =>
      have hsame := output.elsewhere fun inode hnode => hkept inode (congrArg _ hnode)
      exact .present hsame capacity

theorem RawOutput.touched (h : RawOutput disk raw node bytes) {other : Node}
    (htouched : disk.Touched other next) (hapart : (target node).Apart other) :
    RawOutput next raw node bytes := by
  refine h.elsewhere fun inode hnode => htouched.kept inode (hapart inode ?_)
  rw [hnode, target, Option.getD_some]

theorem RawOutput.write (h : RawOutput disk raw node bytes) (record : Record) :
    ∃ answer raw' next, writeRaw raw disk record = (answer, raw', next) ∧
      RawOutput next raw' node (bytes ++ record.encode) ∧ disk.Touched (target node) next ∧
      (node ≠ some .full → answer = .ok ()) := by
  cases h with
  | absent => exact ⟨.ok (), none, disk, rfl, .absent, .refl disk _, fun _ => rfl⟩
  | @present file node bytes output capacity =>
      have hfits : record.encode.length < file.capacity := by
        rw [Record.encode_length, capacity]
        decide
      obtain ⟨answer, out, next, hwrite, hout, hcapacity, htouched, hok⟩ :=
        output.write record.encode fun _ _ => hfits
      refine ⟨answer, some out, next, ?_, .present hout (hcapacity.trans capacity), htouched, ?_⟩
      · rw [writeRaw, hwrite]
      · exact fun hnode => hok fun hfull => hnode (congrArg _ hfull)

theorem RawOutput.flush (h : RawOutput disk raw node bytes) :
    ∃ raw' next,
      flushRaw raw disk =
        (if node = some .full ∧ bytes ≠ [] then .error .noSpace else .ok (), raw', next) ∧
      RawOutput next raw' node bytes ∧ disk.Touched (target node) next ∧
      (¬ (node = some .full ∧ bytes ≠ []) →
        ∀ inode, node = some (.file inode) → next.content inode = bytes) := by
  cases h with
  | absent => exact ⟨none, disk, by simp [flushRaw], .absent, .refl disk _, nofun⟩
  | @present file node bytes output capacity =>
      obtain ⟨out, next, hflush, hout, hcapacity, htouched, hempty⟩ := output.flush
      refine ⟨some out, next, ?_, .present hout (hcapacity.trans capacity), htouched, ?_⟩
      · rw [flushRaw, hflush]
        simp only [Option.some.injEq]
      · intro hgoes inode hnode
        obtain rfl := Option.some.inj hnode
        exact hout.content_of_empty (hempty (by simp))

/-! ## Opening -/

theorem exists_opens_openRaw {path : Path} {file : BufferedFile}
    (h : openRaw disk path = .ok (file, next)) :
    (∃ location, disk.Opens path .truncate location file.handle next) ∧ file.pending = [] ∧
      file.capacity = rawBufferSize := by
  unfold openRaw at h
  cases hopen : disk.openFile path .truncate with
  | error cause =>
      rw [hopen] at h
      cases h
  | ok answer =>
      rw [hopen] at h
      cases h
      exact ⟨Disk.exists_opens hopen, rfl, rfl⟩

/-- A file that was just cut to nothing has taken nothing. -/
theorem output_of_opens {path : Path} {location : Location} {file : BufferedFile}
    (h : disk.Opens path .truncate location file.handle next)
    (hunused : disk.content disk.nextInode = []) (hpending : file.pending = []) :
    file.Output next file.handle.node [] := by
  rcases h.fresh with hfull | ⟨inode, hfile⟩
  · rw [hfull]
    exact .full hfull (by simp [hpending])
  · have hnode : file.handle.node = .file inode := by rw [hfile, OpenMode.node_handle]
    have hempty := h.emptied rfl hunused inode hnode
    rw [hnode]
    refine .growing (.inr ?_) (by rw [hempty, hpending]; rfl)
    rw [hempty]
    exact hfile

namespace RawOpened

variable {rawPath : Option Path}

theorem output (h : RawOpened disk rawPath raw next)
    (hunused : disk.content disk.nextInode = []) :
    RawOutput next raw (raw.map fun file => file.handle.node) [] := by
  cases h with
  | absent => exact .absent
  | present opened =>
      obtain ⟨⟨location, hopens⟩, hpending, hcapacity⟩ := exists_opens_openRaw opened
      exact .present (output_of_opens hopens hunused hpending) hcapacity

/-- Whatever was open before stays as it was. -/
theorem kept (h : RawOpened disk rawPath raw next) {out : BufferedFile} {other : Node}
    (houtput : out.Output disk other bytes)
    (hapart : ∀ file, raw = some file → other.Apart file.handle.node) :
    out.Output next other bytes := by
  cases h with
  | absent => exact houtput
  | present opened =>
      obtain ⟨⟨location, hopens⟩, -, -⟩ := exists_opens_openRaw opened
      refine houtput.elsewhere fun inode hother => ?_
      exact hopens.kept inode (.inl (hapart _ rfl inode hother))

theorem names_kept (h : RawOpened disk rawPath raw next) {path : Path} {location : Location}
    {other : Node} (hnames : disk.Names path location other) : next.Names path location other := by
  cases h with
  | absent => exact hnames
  | present opened =>
      obtain ⟨⟨location', hopens⟩, -, -⟩ := exists_opens_openRaw opened
      exact hnames.mono hopens.includes (hopens.find?_of_some hnames.find?)

theorem names (h : RawOpened disk rawPath raw next) {path : Path} (hpath : rawPath = some path) :
    ∃ file location, raw = some file ∧ next.Names path location file.handle.node := by
  cases h with
  | absent => cases hpath
  | present opened =>
      obtain rfl := Option.some.inj hpath
      obtain ⟨⟨location, hopens⟩, -, -⟩ := exists_opens_openRaw opened
      exact ⟨_, location, rfl, hopens.names⟩

theorem readBytes_eq_iff (h : RawOpened disk rawPath raw next) {last : Disk}
    (hnodes : last.nodes = next.nodes)
    (hcontent : ∀ inode, (raw.map fun file => file.handle.node) = some (.file inode) →
      last.content inode = bytes) {path : Path} {file : BufferedFile} (hpath : rawPath = some path)
    (hfile : raw = some file) :
    last.readBytes path = .ok bytes ↔ (file.handle = .full → bytes = []) := by
  obtain ⟨file', location, hfile', hnames⟩ := h.names hpath
  obtain rfl := Option.some.inj (hfile'.symm.trans hfile)
  refine (hnames.of_nodes hnodes).readBytes_eq_iff fun inode hnode => hcontent inode ?_
  rw [hfile, Option.map_some, hnode]

end RawOpened

end DentryWatch.Drain
