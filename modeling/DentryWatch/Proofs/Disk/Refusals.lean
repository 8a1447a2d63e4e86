import DentryWatch.Proofs.Disk.Outputs

/-!
# Refused pushes

Whichever pushes are turned away, a buffered file that writes at the end of its file
has each byte it took once, in order: in the file, or in the buffer. A call that
fails takes nothing.
-/

namespace DentryWatch

/-- Every write goes to the end of the file. -/
def Handle.Appends (handle : Handle) : Prop :=
  ∀ inode position, handle ≠ .fromPosition inode position

namespace Disk

def held (disk : Disk) : Handle → Bytes
  | .atEnd inode | .fromPosition inode _ => disk.content inode
  | .full => []

theorem size_eq_length (disk : Disk) (handle : Handle) :
    disk.size handle = (disk.held handle).length := by
  cases handle <;> rfl

/-- The other disk has more bytes at the end of an open file and is the same otherwise. -/
structure Grown (disk : Disk) (handle : Handle) (bytes : Bytes) (next : Disk) : Prop where
  touched : disk.Touched handle.node next
  held : next.held handle = disk.held handle ++ bytes

variable {disk middle next : Disk} {handle : Handle} {bytes more : Bytes} {inode : Nat}

theorem Grown.refl (disk : Disk) (handle : Handle) : disk.Grown handle [] disk :=
  ⟨.refl disk _, (List.append_nil _).symm⟩

theorem Grown.trans (h : disk.Grown handle bytes middle) (hmore : middle.Grown handle more next) :
    disk.Grown handle (bytes ++ more) next := by
  refine ⟨h.touched.trans hmore.touched, ?_⟩
  rw [hmore.held, h.held, List.append_assoc]

theorem grown_of_appended (h : disk.Appended inode bytes next) :
    disk.Grown (.atEnd inode) bytes next :=
  ⟨h.touched, h.grown⟩

theorem Grown.appended (h : disk.Grown (.atEnd inode) bytes next) :
    disk.Appended inode bytes next := by
  refine ⟨h.touched.nodes, h.touched.nextInode, h.held, fun other hother => ?_⟩
  exact h.touched.kept other fun hnode => hother (Node.file.inj hnode).symm

theorem write_grown (happends : handle.Appends) (disk : Disk) (bytes : Bytes) :
    (∃ cause, disk.write handle bytes = .error cause) ∨
      ∃ next, disk.write handle bytes = .ok (handle, next) ∧ disk.Grown handle bytes next := by
  cases handle with
  | atEnd inode =>
      obtain ⟨next, hwrite, hnext⟩ := disk.write_atEnd inode bytes
      exact .inr ⟨next, hwrite, grown_of_appended hnext⟩
  | fromPosition inode position => exact absurd rfl (happends inode position)
  | full =>
      unfold write
      split
      · next hempty =>
          obtain rfl : bytes = [] := by simpa using hempty
          exact .inr ⟨disk, rfl, .refl disk _⟩
      · exact .inl ⟨_, rfl⟩

/-- A push takes all of its bytes to the end of the file or none of them. -/
theorem push_grown (happends : handle.Appends) (refusals : Refusals) (disk : Disk)
    (bytes : Bytes) :
    (∃ cause rest, disk.push refusals handle bytes = (.error cause, rest)) ∨
      ∃ next rest, disk.push refusals handle bytes = (.ok (handle, next), rest) ∧
        disk.Grown handle bytes next := by
  have hcarried : ∀ rest : Refusals,
      (∃ cause rest', (disk.write handle bytes, rest) = (.error cause, rest')) ∨
        ∃ next rest', (disk.write handle bytes, rest) = (.ok (handle, next), rest') ∧
          disk.Grown handle bytes next := by
    intro rest
    rcases write_grown happends disk bytes with ⟨cause, hwrite⟩ | ⟨next, hwrite, hnext⟩
    · exact .inl ⟨cause, rest, by rw [hwrite]⟩
    · exact .inr ⟨next, rest, by rw [hwrite], hnext⟩
  unfold push
  split
  · next hempty =>
      obtain rfl : bytes = [] := by simpa using hempty
      exact .inr ⟨disk, refusals, rfl, .refl disk _⟩
  · match refusals with
    | [] => exact hcarried []
    | none :: rest => exact hcarried rest
    | some cause :: rest => exact .inl ⟨cause, rest, rfl⟩

end Disk

namespace BufferedFile

/-- What a call with some bytes takes: all, or nothing if it fails. -/
def taken (answer : Except SystemError Unit) (bytes : Bytes) : Bytes :=
  match answer with
  | .ok () => bytes
  | .error _ => []

/-- Bytes were taken, and some from the front of the buffer moved to the end of the file. -/
structure Moved (file : BufferedFile) (disk : Disk) (bytes : Bytes) (next : BufferedFile)
    (after : Disk) : Prop where
  handle : next.handle = file.handle
  grown : ∃ pushed, disk.Grown file.handle pushed after ∧
    pushed ++ next.pending = file.pending ++ bytes

variable {file out next : BufferedFile} {disk middle after : Disk} {bytes more : Bytes}
  {refusals rest : Refusals} {answer : Except SystemError Unit}

theorem Moved.refl (file : BufferedFile) (disk : Disk) : file.Moved disk [] file disk :=
  ⟨rfl, [], .refl disk _, (List.append_nil _).symm⟩

theorem Moved.trans (h : file.Moved disk bytes out middle) (hmore : out.Moved middle more next after) :
    file.Moved disk (bytes ++ more) next after := by
  obtain ⟨pushed, hgrown, hsum⟩ := h.grown
  obtain ⟨pushed', hgrown', hsum'⟩ := hmore.grown
  rw [h.handle] at hgrown'
  refine ⟨hmore.handle.trans h.handle, pushed ++ pushed', hgrown.trans hgrown', ?_⟩
  rw [List.append_assoc, hsum', ← List.append_assoc, hsum, List.append_assoc]

theorem stream_of_appends (happends : file.handle.Appends) (disk : Disk) :
    file.stream disk = disk.held file.handle ++ file.pending := by
  unfold stream
  cases hhandle : file.handle with
  | atEnd inode => rfl
  | fromPosition inode position => exact absurd hhandle (happends inode position)
  | full => rfl

theorem Moved.appends (h : file.Moved disk bytes next after) (happends : file.handle.Appends) :
    next.handle.Appends := h.handle ▸ happends

theorem Moved.stream (h : file.Moved disk bytes next after) (happends : file.handle.Appends) :
    next.stream after = file.stream disk ++ bytes := by
  obtain ⟨pushed, hgrown, hsum⟩ := h.grown
  rw [stream_of_appends (h.appends happends), stream_of_appends happends, h.handle, hgrown.held,
    List.append_assoc, hsum, List.append_assoc]

/-! ## Calls -/

theorem flushUnder_moved (happends : file.handle.Appends)
    (hflush : file.flushUnder refusals disk = ((answer, next, after), rest)) :
    file.Moved disk [] next after ∧ (answer = .ok () → next.pending = []) := by
  unfold flushUnder at hflush
  rcases disk.push_grown happends refusals file.pending with
    ⟨cause, left, hpush⟩ | ⟨pushed, left, hpush, hgrown⟩
  · rw [hpush] at hflush
    cases hflush
    exact ⟨.refl file disk, nofun⟩
  · rw [hpush] at hflush
    cases hflush
    exact ⟨⟨rfl, file.pending, hgrown, rfl⟩, fun _ => rfl⟩

theorem placeUnder_moved (happends : file.handle.Appends)
    (hroom : file.capacity ≤ bytes.length → file.pending = [])
    (hplace : file.placeUnder refusals disk bytes = ((answer, next, after), rest)) :
    file.Moved disk (taken answer bytes) next after := by
  unfold placeUnder at hplace
  split at hplace
  · next hlarge =>
      rcases disk.push_grown happends refusals bytes with
        ⟨cause, left, hpush⟩ | ⟨pushed, left, hpush, hgrown⟩
      · rw [hpush] at hplace
        cases hplace
        exact .refl file disk
      · rw [hpush] at hplace
        cases hplace
        refine ⟨rfl, bytes, hgrown, ?_⟩
        show bytes ++ file.pending = file.pending ++ bytes
        rw [hroom hlarge, List.append_nil, List.nil_append]
  · cases hplace
    exact ⟨rfl, [], .refl disk _, rfl⟩

/-- A row may find the buffer in its way, and then pass it by: it is taken whole or not at all. -/
theorem writeUnder_moved (happends : file.handle.Appends)
    (hwrite : file.writeUnder refusals disk bytes = ((answer, next, after), rest)) :
    file.Moved disk (taken answer bytes) next after := by
  unfold writeUnder at hwrite
  split at hwrite
  · rcases hflush : file.flushUnder refusals disk with ⟨⟨flushed, out, middle⟩, left⟩
    obtain ⟨hmoved, hempty⟩ := flushUnder_moved happends hflush
    rw [hflush] at hwrite
    cases flushed with
    | error cause =>
        cases hwrite
        exact hmoved
    | ok done =>
        have happends' := hmoved.appends happends
        exact hmoved.trans (placeUnder_moved happends' (fun _ => hempty rfl) hwrite)
  · next hfits =>
      refine placeUnder_moved happends (fun hlarge => ?_) hwrite
      have hlength : file.pending.length = 0 := by omega
      exact List.eq_nil_of_length_eq_zero hlength

theorem dropUnder_of_empty (hempty : file.pending = []) (refusals : Refusals) (disk : Disk) :
    file.dropUnder refusals disk = (disk, refusals) := by
  rw [dropUnder, flushUnder, hempty]
  rfl

end BufferedFile

end DentryWatch
