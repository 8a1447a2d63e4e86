import DentryWatch.Disk.Lookup
import DentryWatch.Lineage
import DentryWatch.Proofs.Record.Wire
import DentryWatch.Proofs.Text.Decoding
import DentryWatch.Proofs.Text.Utf8
import DentryWatch.Record.Path

/-!
# From walks to paths and back

A record that holds a walk gives its names back as far as a slot holds them. Its
path is these names from the top down. Where no name has a slash of its own, the
path splits into the names again, and its first character tells whether the walk
reached the root.
-/

namespace DentryWatch

theorem NameSlot.name_ofName {name : Bytes} (h : 0 ∉ name) :
    (ofName name).name = name.take maxNameBytes := by
  have hstored : slotWidth - stored name = slotWidth - stored name - 1 + 1 := by
    simp only [stored, maxNameBytes, slotWidth]
    omega
  have hkept : ∀ byte ∈ name.take maxNameBytes, (byte != 0) = true := by
    intro byte hbyte
    have hmem := List.mem_of_mem_take hbyte
    exact bne_iff_ne.2 fun hzero => h (hzero ▸ hmem)
  rw [NameSlot.name, ofName, fill_raw, List.takeWhile_append_of_pos hkept, hstored,
    List.replicate_succ, List.takeWhile_cons_of_neg (by simp), List.append_nil]

namespace Record

/-! ## The names of a walk -/

/-- The record holds a walk: its slots are filled with the names and its depth counts them. -/
structure Holds (record : Record) (walk : Walk) : Prop where
  depth : record.depth = walk.depth
  slots : ∀ i (hi : i < maxDepth), record.slots[i] = (walk.slots[i]?).getD NameSlot.empty
  names_le : walk.names.length ≤ maxDepth

section Holds

variable {record : Record} {walk : Walk}

theorem Holds.count (h : record.Holds walk) : record.count = walk.names.length := by
  have hle := h.names_le
  rw [Record.count, h.depth, Walk.depth, Depth.count_pack]
  omega

theorem Holds.rootReached (h : record.Holds walk) : record.rootReached = walk.rootReached := by
  rw [Record.rootReached, h.depth, Walk.depth, Depth.rootReached_pack]

theorem Holds.decode (h : record.Holds walk) : decode record.encode = .ok record := by
  have hcount : record.count ≤ maxDepth := by
    rw [h.count]
    exact h.names_le
  rw [decode_encode, if_pos hcount]

theorem Holds.taken (h : record.Holds walk) :
    record.slots.toList.take record.count = walk.slots := by
  have hle := h.names_le
  have hlength : walk.slots.length = walk.names.length := by simp [Walk.slots]
  rw [h.count]
  apply List.ext_getElem
  · simp only [List.length_take, Vector.length_toList, hlength]
    omega
  · intro i hi hwalk
    rw [hlength] at hwalk
    have hslot := h.slots i (by omega)
    rw [List.getElem?_eq_getElem (by omega), Option.getD_some] at hslot
    simpa using hslot

theorem Holds.components (h : record.Holds walk) (hnul : ∀ name ∈ walk.names, 0 ∉ name) :
    record.components = walk.names.map (List.take maxNameBytes) := by
  rw [Record.components, h.taken, Walk.slots, List.map_map]
  apply List.map_congr_left
  intro name hname
  exact NameSlot.name_ofName (hnul name hname)

/-- Mount roots are left out, and nothing else. -/
theorem Holds.pathParts (h : record.Holds walk)
    (hnames : ∀ name ∈ walk.names, name ≠ [] ∧ 0 ∉ name) :
    record.pathParts =
      (walk.names.filter (· ≠ [Path.slash])).reverse.map (List.take maxNameBytes) := by
  rw [Record.pathParts, h.components fun name hname => (hnames name hname).2, List.filter_map,
    List.map_reverse]
  congr 2
  apply List.filter_congr
  intro name hname
  obtain ⟨hne, -⟩ := hnames name hname
  -- a cut name has one byte only if it had one before
  rw [Bool.eq_iff_iff]
  rcases name with _ | ⟨byte, _ | ⟨next, rest⟩⟩
  · exact absurd rfl hne
  · simp [isPathPart, Path.slash, maxNameBytes, slotWidth]
  · simp [isPathPart, maxNameBytes, slotWidth]

end Holds

/-! ## Joined paths -/

section Joined

variable {root : Bool} {parts : List (List Char)}

theorem joinPath_of_ne_nil (hne : parts ≠ []) :
    joinPath root parts = ['/'].intercalate ((if root then [[]] else []) ++ parts) := by
  rw [joinPath, if_neg (by simpa using hne)]
  cases root with
  | false => rfl
  | true =>
      obtain ⟨part, rest, rfl⟩ := List.exists_cons_of_ne_nil hne
      simp

theorem splitOn_joinPath (hne : parts ≠ []) (hparts : ∀ part ∈ parts, '/' ∉ part) :
    (joinPath root parts).splitOn '/' = (if root then [[]] else []) ++ parts := by
  rw [joinPath_of_ne_nil hne]
  apply List.splitOn_intercalate
  · intro part hpart
    rcases List.mem_append.1 hpart with hroot | hmem
    · cases root <;> simp_all
    · exact hparts part hmem
  · simp [hne]

theorem head?_joinPath (hne : parts ≠ []) (hparts : ∀ part ∈ parts, part ≠ [] ∧ '/' ∉ part) :
    (joinPath root parts).head? = some '/' ↔ root = true := by
  rw [joinPath, if_neg (by simpa using hne)]
  cases root with
  | true => simp
  | false =>
      obtain ⟨part, rest, rfl⟩ := List.exists_cons_of_ne_nil hne
      obtain ⟨hpart, hslash⟩ := hparts part List.mem_cons_self
      obtain ⟨c, more, rfl⟩ := List.exists_cons_of_ne_nil hpart
      have hc : c ≠ '/' := fun h => hslash (h ▸ List.mem_cons_self)
      cases rest <;> simp [hc]

end Joined

/-! ## Names that can be read off -/

def shown (name : Bytes) : List Char := Utf8.lossyChars (name.take maxNameBytes)

/-- A name that is shown as it is, without a slash in it. -/
structure Legible (name : Bytes) : Prop where
  ne_nil : name ≠ []
  slash : Path.slash ∉ name
  length_le : name.length ≤ maxNameBytes
  text : ∃ text, Utf8.encode text = name

theorem Legible.shown {name : Bytes} (h : Legible name) :
    Utf8.encodeChars (shown name) = name ∧ Record.shown name ≠ [] ∧ '/' ∉ Record.shown name := by
  obtain ⟨text, rfl⟩ := h.text
  have hshown : Record.shown (Utf8.encode text) = text.toList := by
    rw [Record.shown, List.take_of_length_le h.length_le]
    exact Utf8.lossyChars_encodeChars text.toList
  rw [hshown]
  refine ⟨rfl, ?_, ?_⟩
  · intro hnil
    apply h.ne_nil
    rw [Utf8.encode, hnil, Utf8.encodeChars_nil]
  · intro hmem
    have hascii : '/'.toNat < 0x80 := by decide
    exact h.slash ((Utf8.mem_encodeChars_iff hascii).2 hmem)

/--
The record is read back from its bytes, and its path is made of these names, root
first: joined by slashes, behind a slash if the walk reached the root. Legible
names and the flag can be read off the path.
-/
structure Tells (record : Record) (root : Bool) (names : List Bytes) : Prop where
  decoded : decode record.encode = .ok record
  rootReached : record.rootReached = root
  path : record.path.toList =
    if names = [] then ['/']
    else (if root then ['/'] else []) ++ ['/'].intercalate (names.map shown)
  recovered : names ≠ [] → (∀ name ∈ names, Legible name) →
    (record.path.toList.splitOn '/').map Utf8.encodeChars =
        (if root then [[]] else []) ++ names ∧
      (record.path.toList.head? = some '/' ↔ root = true)

theorem Holds.tells {record : Record} {walk : Walk} (h : record.Holds walk)
    (hnames : ∀ name ∈ walk.names, name ≠ [] ∧ 0 ∉ name) :
    record.Tells walk.rootReached (walk.names.filter (· ≠ [Path.slash])).reverse := by
  have hpath : record.path.toList = joinPath walk.rootReached
      ((walk.names.filter (· ≠ [Path.slash])).reverse.map shown) := by
    rw [Record.path, String.toList_ofList, h.pathParts hnames, h.rootReached, List.map_map]
    rfl
  generalize (walk.names.filter (· ≠ [Path.slash])).reverse = names at hpath
  refine ⟨h.decode, h.rootReached, ?_, ?_⟩
  · rw [hpath, joinPath]
    simp only [List.isEmpty_iff, List.map_eq_nil_iff]
  · intro hne hlegible
    have hparts : ∀ part ∈ names.map shown, part ≠ [] ∧ '/' ∉ part := by
      intro part hpart
      obtain ⟨name, hname, rfl⟩ := List.mem_map.1 hpart
      exact (hlegible name hname).shown.2
    have hback : (names.map shown).map Utf8.encodeChars = names := by
      rw [List.map_map]
      refine (List.map_congr_left ?_).trans (List.map_id names)
      intro name hname
      exact (hlegible name hname).shown.1
    have hne' : names.map shown ≠ [] := by simpa using hne
    rw [hpath, splitOn_joinPath hne' fun part hpart => (hparts part hpart).2, List.map_append, hback]
    refine ⟨?_, head?_joinPath hne' hparts⟩
    cases walk.rootReached <;> rfl

end Record

end DentryWatch
