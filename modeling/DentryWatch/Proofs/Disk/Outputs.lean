import DentryWatch.Proofs.Disk.Buffers

/-!
# Outputs

A buffered file that is only written at its end takes bytes in order: those in
the file and then those in the buffer are what it has taken. In front of the full
device the buffer is never empty again once it has taken a byte, so no flush from
then on goes well. Two outputs on different files do not see each other.
-/

namespace DentryWatch

/-- What an open file stands for. -/
def Handle.node : Handle → Node
  | .atEnd inode | .fromPosition inode _ => .file inode
  | .full => .full

theorem OpenMode.node_handle (mode : OpenMode) (inode : Nat) :
    (mode.handle inode).node = .file inode := by
  unfold OpenMode.handle
  split <;> rfl

theorem Handle.node_eq_full_iff (handle : Handle) : handle.node = .full ↔ handle = .full := by
  cases handle <;> simp [Handle.node]

theorem Handle.exists_inode {handle : Handle} (h : handle ≠ .full) :
    ∃ inode, handle.node = .file inode := by
  cases handle with
  | atEnd inode => exact ⟨inode, rfl⟩
  | fromPosition inode position => exact ⟨inode, rfl⟩
  | full => exact absurd rfl h

/-- Two nodes that are not the same file. -/
def Node.Apart (node other : Node) : Prop := ∀ inode, node = .file inode → other ≠ .file inode

theorem Node.Apart.symm {node other : Node} (h : node.Apart other) : other.Apart node :=
  fun inode hother hnode => h inode hnode hother

theorem Node.apart_full (node : Node) : node.Apart .full := nofun

/-- An open file whose next byte comes behind its last one. -/
def Handle.Ends (handle : Handle) (disk : Disk) (inode : Nat) : Prop :=
  handle = .atEnd inode ∨ handle = .fromPosition inode (disk.content inode).length

namespace Disk

variable {disk middle next : Disk} {node : Node} {inode : Nat} {bytes : Bytes}

theorem overlay_appended (disk : Disk) (inode : Nat) (bytes : Bytes) :
    disk.Appended inode bytes (disk.overlay inode (disk.content inode).length bytes) := by
  refine ⟨rfl, rfl, ?_, ?_⟩
  · rw [overlay, content_setContent, if_pos rfl, Bytes.overlay_length_self]
  · intro other hother
    rw [overlay, content_setContent, if_neg hother]

theorem write_ends {handle : Handle} (h : handle.Ends disk inode) (bytes : Bytes) :
    ∃ handle' next, disk.write handle bytes = .ok (handle', next) ∧
      handle'.Ends next inode ∧ disk.Appended inode bytes next := by
  rcases h with rfl | rfl
  · obtain ⟨next, hwrite, hnext⟩ := disk.write_atEnd inode bytes
    exact ⟨_, next, hwrite, .inl rfl, hnext⟩
  · by_cases hempty : bytes = []
    · subst hempty
      exact ⟨_, disk, rfl, .inr rfl, .refl disk inode⟩
    · have hnext := disk.overlay_appended inode bytes
      refine ⟨.fromPosition inode ((disk.content inode).length + bytes.length), _, ?_, .inr ?_,
        hnext⟩
      · rw [write, if_neg (by simpa using hempty)]
      · rw [hnext.grown, List.length_append]

end Disk

namespace BufferedFile

/-- What a buffered file has taken. -/
inductive Output (disk : Disk) (file : BufferedFile) : Node → Bytes → Prop
  | growing {inode : Nat} {text : Bytes} (ends : file.handle.Ends disk inode)
      (text_eq : disk.content inode ++ file.pending = text) : Output disk file (.file inode) text
  | full {text : Bytes} (handle : file.handle = .full)
      (pending : file.pending = [] ↔ text = []) : Output disk file .full text

variable {disk next : Disk} {file : BufferedFile} {node other : Node} {text : Bytes}

/-- What happens to other files makes no difference. -/
theorem Output.elsewhere (h : file.Output disk node text)
    (hkept : ∀ inode, node = .file inode → next.content inode = disk.content inode) :
    file.Output next node text := by
  cases h with
  | @growing inode text ends text_eq =>
      have hsame := hkept inode rfl
      refine .growing ?_ (by rw [hsame, text_eq])
      rwa [Handle.Ends, hsame]
  | full handle pending => exact .full handle pending

theorem Output.touched (h : file.Output disk node text) (htouched : disk.Touched other next)
    (hapart : node.Apart other) : file.Output next node text :=
  h.elsewhere fun inode hnode => htouched.kept inode (hapart inode hnode)

theorem Output.stuck (h : file.Output disk .full text) (hne : text ≠ []) : file.Stuck := by
  cases h with
  | full handle pending => exact ⟨handle, fun hempty => hne (pending.1 hempty)⟩

/-- A flush fails exactly if the device is full and has taken a byte. -/
theorem Output.flush (h : file.Output disk node text) :
    ∃ out next,
      file.flush disk =
        (if node = .full ∧ text ≠ [] then .error .noSpace else .ok (), out, next) ∧
      out.Output next node text ∧ out.capacity = file.capacity ∧ disk.Touched node next ∧
      (¬ (node = .full ∧ text ≠ []) → out.pending = []) := by
  cases h with
  | @growing inode text ends text_eq =>
      obtain ⟨handle', next, hwrite, hends, hnext⟩ := disk.write_ends ends file.pending
      refine ⟨{ file with handle := handle', pending := [] }, next, ?_, .growing hends ?_, rfl,
        hnext.touched, fun _ => rfl⟩
      · rw [BufferedFile.flush_eq, hwrite, if_neg (by simp)]
      · rw [hnext.grown, text_eq, List.append_nil]
  | full handle pending =>
      by_cases hne : text = []
      · have hempty := pending.2 hne
        have hwrite : disk.write file.handle file.pending = .ok (file.handle, disk) := by
          rw [hempty]
          rfl
        refine ⟨{ file with pending := [] }, disk, ?_, .full handle (by simpa using hne), rfl,
          .refl disk _, fun _ => rfl⟩
        rw [BufferedFile.flush_eq, hwrite, if_neg (by simp [hne])]
      · have hstuck : file.Stuck := ⟨handle, fun hempty => hne (pending.1 hempty)⟩
        refine ⟨file, disk, ?_, .full handle pending, rfl, .refl disk _, ?_⟩
        · rw [hstuck.flush, if_pos ⟨rfl, hne⟩]
        · exact fun hnot => absurd ⟨rfl, hne⟩ hnot

theorem Output.place (h : file.Output disk node text) (bytes : Bytes)
    (hroom : file.capacity ≤ bytes.length → file.pending = [] ∧ node ≠ .full) :
    ∃ out next, file.place disk bytes = (.ok (), out, next) ∧
      out.Output next node (text ++ bytes) ∧ out.capacity = file.capacity ∧
      disk.Touched node next := by
  rw [BufferedFile.place_eq]
  split
  · next hlarge =>
      obtain ⟨hempty, hnode⟩ := hroom hlarge
      cases h with
      | @growing inode text ends text_eq =>
          obtain ⟨handle', next, hwrite, hends, hnext⟩ := disk.write_ends ends bytes
          rw [hempty, List.append_nil] at text_eq
          refine ⟨{ file with handle := handle' }, next, by rw [hwrite], .growing hends ?_, rfl,
            hnext.touched⟩
          rw [hnext.grown, text_eq]
          exact (congrArg _ hempty).trans (List.append_nil _)
      | full handle pending => exact absurd rfl hnode
  · refine ⟨{ file with pending := file.pending ++ bytes }, disk, rfl, ?_, rfl, .refl disk node⟩
    cases h with
    | growing ends text_eq => exact .growing ends (by rw [← text_eq, List.append_assoc])
    | full handle pending => exact .full handle (by simp [pending])

/-- A write to a file goes well. One that fails leaves the bytes that wait before the device. -/
theorem Output.write (h : file.Output disk node text) (bytes : Bytes)
    (hfits : node = .full → text = [] → bytes.length < file.capacity) :
    ∃ answer out next, file.write disk bytes = (answer, out, next) ∧
      out.Output next node (text ++ bytes) ∧ out.capacity = file.capacity ∧
      disk.Touched node next ∧ (node ≠ .full → answer = .ok ()) := by
  rw [BufferedFile.write_eq]
  by_cases hover : file.capacity < file.pending.length + bytes.length
  · obtain ⟨out, middle, hflush, hout, hcapacity, htouched, hempty⟩ := h.flush
    rw [if_pos hover, hflush]
    by_cases hfull : node = .full ∧ text ≠ []
    · obtain ⟨rfl, hne⟩ := hfull
      have hstuck := hout.stuck hne
      refine ⟨.error .noSpace, out, middle, by simp [hne], .full hstuck.handle ?_, hcapacity,
        htouched, fun hnode => absurd rfl hnode⟩
      simp [hstuck.pending, hne]
    -- only bytes that do not fit the buffer go past it, and then it must be empty
    · have hroom : out.capacity ≤ bytes.length → out.pending = [] ∧ node ≠ .full := by
        intro hlarge
        refine ⟨hempty hfull, fun hnode => ?_⟩
        have htext : text = [] := by_contra fun hne => hfull ⟨hnode, hne⟩
        have hsmall := hfits hnode htext
        omega
      obtain ⟨last, next, hplace, hlast, hcapacity', hnext⟩ := hout.place bytes hroom
      rw [if_neg hfull]
      exact ⟨.ok (), last, next, hplace, hlast, hcapacity'.trans hcapacity, htouched.trans hnext,
        fun _ => rfl⟩
  · have hroom : file.capacity ≤ bytes.length → file.pending = [] ∧ node ≠ .full := by
      intro hlarge
      have hempty : file.pending = [] := List.eq_nil_of_length_eq_zero (by omega)
      refine ⟨hempty, ?_⟩
      rintro rfl
      cases h with
      | full handle pending =>
          have hsmall := hfits rfl (pending.1 hempty)
          omega
    obtain ⟨out, next, hplace, hout, hcapacity, hnext⟩ := h.place bytes hroom
    rw [if_neg hover]
    exact ⟨.ok (), out, next, hplace, hout, hcapacity, hnext, fun _ => rfl⟩

/-- Once the buffer is empty, a file has all that was taken. -/
theorem Output.content_of_empty {inode : Nat} (h : file.Output disk (.file inode) text)
    (hempty : file.pending = []) : disk.content inode = text := by
  cases h with
  | growing ends text_eq => rw [← text_eq, hempty, List.append_nil]

/-- However an output is released, a file has all that was taken. -/
theorem Output.drop (h : file.Output disk node text) :
    disk.Touched node (file.drop disk) ∧
      ∀ inode, node = .file inode → (file.drop disk).content inode = text := by
  obtain ⟨out, next, hflush, hout, -, htouched, hempty⟩ := h.flush
  rw [BufferedFile.drop_eq, hflush]
  refine ⟨htouched, ?_⟩
  rintro inode rfl
  exact hout.content_of_empty (hempty (by simp))

end BufferedFile

end DentryWatch
