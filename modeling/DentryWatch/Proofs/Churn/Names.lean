import DentryWatch.Churn
import DentryWatch.Proofs.Disk.Children
import DentryWatch.Proofs.Text.Decoding
import DentryWatch.Proofs.Text.Utf8

/-!
# Names of a churn

The directories and files of a churn have a letter and a number for a name.
Different ones have different names, and below a base whose path is not too long
all paths with 64-bit numbers can be looked up.
-/

namespace DentryWatch.Churn

def dirPath (base : Path) (i : Nat) : Path := base.child (label 'd' i)

def namePath (base : Path) (perDir k : Nat) : Path :=
  (dirPath base (k / perDir)).child (label 'f' (k % perDir))

theorem index_div {perDir i j : Nat} (hj : j < perDir) : (i * perDir + j) / perDir = i := by
  have hpos : 0 < perDir := Nat.lt_of_le_of_lt (Nat.zero_le j) hj
  rw [Nat.add_comm, Nat.add_mul_div_right _ _ hpos, Nat.div_eq_of_lt hj, Nat.zero_add]

theorem index_mod {perDir i j : Nat} (hj : j < perDir) : (i * perDir + j) % perDir = j := by
  rw [Nat.add_comm, Nat.add_mul_mod_self_right, Nat.mod_eq_of_lt hj]

theorem namePath_eq {perDir i j : Nat} (base : Path) (hj : j < perDir) :
    namePath base perDir (i * perDir + j) = (dirPath base i).child (label 'f' j) := by
  rw [namePath, index_div hj, index_mod hj]

variable {letter other : Char} {n m : Nat}

theorem ascii_label (hletter : letter.toNat < 0x80) (n : Nat) :
    ∀ c ∈ letter :: Text.decimal n, c.toNat < 0x80 :=
  List.forall_mem_cons.2 ⟨hletter, Text.ascii_decimal n⟩

theorem ofText_label (letter : Char) (n : Nat) :
    Path.ofText (label letter n) = Utf8.encodeChars (letter :: Text.decimal n) := by
  simp [Path.ofText, Utf8.encode, label]

theorem label_inj (h : Path.ofText (label letter n) = Path.ofText (label other m)) :
    letter = other ∧ n = m := by
  rw [ofText_label, ofText_label] at h
  obtain ⟨hhead, hdigits⟩ := List.cons_eq_cons.1 (Utf8.encodeChars_inj h)
  exact ⟨hhead, Text.decimal_inj hdigits⟩

theorem dir_label_inj (h : Path.ofText (label 'd' n) = Path.ofText (label 'd' m)) : n = m :=
  (label_inj h).2

theorem file_label_inj (h : Path.ofText (label 'f' n) = Path.ofText (label 'f' m)) : n = m :=
  (label_inj h).2

theorem dir_label_ne_file_label (n m : Nat) :
    Path.ofText (label 'd' n) ≠ Path.ofText (label 'f' m) := by
  intro h
  exact absurd (label_inj h).1 (by decide)

theorem not_mem_label {mark : Char} (hmark : mark.toNat < 0x80) (hletter : mark ≠ letter)
    (hdigit : mark.isDigit = false) (n : Nat) :
    UInt8.ofNat mark.toNat ∉ Path.ofText (label letter n) := by
  rw [ofText_label, Utf8.mem_encodeChars_iff hmark]
  intro hmem
  rcases List.mem_cons.1 hmem with rfl | hmem
  · exact hletter rfl
  · rw [Text.isDigit_of_mem_decimal hmem] at hdigit
    cases hdigit

theorem nul_not_mem_label (hletter : '\x00' ≠ letter) (n : Nat) :
    0 ∉ Path.ofText (label letter n) := by
  have hnot : UInt8.ofNat ('\x00').toNat ∉ Path.ofText (label letter n) :=
    not_mem_label (by decide) hletter (by decide) n
  exact hnot

theorem length_label (hletter : letter.toNat < 0x80) (n : Nat) :
    (Path.ofText (label letter n)).length = 1 + (Text.decimal n).length := by
  rw [ofText_label, Utf8.encodeChars_of_ascii (ascii_label hletter n), List.length_map,
    List.length_cons, Nat.add_comm]

theorem length_label_le (hletter : letter.toNat < 0x80) (hn : n < UInt64.size) :
    (Path.ofText (label letter n)).length ≤ 21 := by
  have hdigits : (Text.decimal n).length ≤ 20 :=
    (Nat.length_toDigits_le_iff (by decide) (by decide)).2 (Nat.lt_trans hn (by decide))
  rw [length_label hletter]
  omega

theorem proper_label (hletter : letter.toNat < 0x80) (hdot : letter ≠ '.') (hslash : letter ≠ '/')
    (hn : n < UInt64.size) : FileName.Proper (Path.ofText (label letter n)) := by
  have hpos : 0 < (Text.decimal n).length := List.length_pos_iff.2 (Text.decimal_ne_nil n)
  have hlength := length_label hletter n
  have hnodot : UInt8.ofNat ('.').toNat ∉ Path.ofText (label letter n) :=
    not_mem_label (by decide) hdot.symm (by decide) n
  refine ⟨?_, ?_, ?_, not_mem_label (by decide) hslash.symm (by decide) n, ?_⟩
  · intro h
    simp [h] at hlength
    omega
  · intro h
    rw [h] at hnodot
    exact hnodot (by decide)
  · intro h
    rw [h] at hnodot
    exact hnodot (by decide)
  · exact Nat.le_trans (length_label_le hletter hn) (by decide)

theorem proper_dir_label (hn : n < UInt64.size) : FileName.Proper (Path.ofText (label 'd' n)) :=
  proper_label (by decide) (by decide) (by decide) hn

theorem proper_file_label (hn : n < UInt64.size) : FileName.Proper (Path.ofText (label 'f' n)) :=
  proper_label (by decide) (by decide) (by decide) hn

theorem proper_source : FileName.Proper (Path.ofText ".src") :=
  ⟨by decide, by decide, by decide, by decide, by decide⟩

/-! ## Paths that can be looked up -/

/-- A path that stays one that can be looked up with so many more bytes. -/
structure Roomy (path : Path) (bytes : Nat) : Prop where
  nul : 0 ∉ path
  room : path.length + bytes < Path.maxLength

variable {path : Path} {name : String} {bytes : Nat}

theorem Roomy.child (h : Roomy path bytes) (hname : FileName.Proper (Path.ofText name))
    (hnul : 0 ∉ Path.ofText name) (hroom : (Path.ofText name).length + 1 ≤ bytes) :
    Roomy (path.child name) (bytes - 1 - (Path.ofText name).length) ∧
      (path.child name).check = .ok () := by
  have hslash : (0 : UInt8) ≠ Path.slash := by decide
  have hsmall : (path.child name).length ≤ path.length + 1 + (Path.ofText name).length ∧
      0 ∉ path.child name ∧ path.child name ≠ [] := by
    rw [Path.child, Path.join, if_neg (Path.head?_ne_slash hname)]
    split
    · simp [h.nul, hnul, hname.ne_nil]
    · simp [h.nul, hnul, hslash]
      omega
  obtain ⟨hlength, hfree, hne⟩ := hsmall
  have hroom' := h.room
  refine ⟨⟨hfree, by omega⟩, ?_⟩
  rw [Path.check, if_neg (by simpa using hfree), if_neg (by simpa using hne), if_neg (by omega)]

theorem nul_not_mem_of_check (h : path.check = .ok ()) : 0 ∉ path := by
  intro hmem
  rw [Path.check, if_pos (List.contains_iff_mem.2 hmem)] at h
  cases h

/-- The paths of a churn can be looked up below a base with room for two names. -/
structure Fits (base : Path) : Prop where
  nul : 0 ∉ base
  room : base.length + 44 < Path.maxLength

variable {base : Path}

theorem Fits.dir (h : Fits base) (hn : n < UInt64.size) :
    Roomy (dirPath base n) 22 ∧ (dirPath base n).check = .ok () := by
  have hle : (Path.ofText (label 'd' n)).length ≤ 21 := length_label_le (by decide) hn
  have hroomy : Roomy base 44 := ⟨h.nul, h.room⟩
  obtain ⟨hdir, hcheck⟩ := hroomy.child (proper_dir_label hn)
    (nul_not_mem_label (by decide) n) (by omega)
  exact ⟨⟨hdir.nul, by have := hdir.room; unfold dirPath; omega⟩, hcheck⟩

theorem Fits.check_dir (h : Fits base) (hn : n < UInt64.size) : (dirPath base n).check = .ok () :=
  (h.dir hn).2

theorem Fits.check_file (h : Fits base) (hn : n < UInt64.size) (hm : m < UInt64.size) :
    ((dirPath base n).child (label 'f' m)).check = .ok () := by
  have hle : (Path.ofText (label 'f' m)).length ≤ 21 := length_label_le (by decide) hm
  exact ((h.dir hn).1.child (proper_file_label hm)
    (nul_not_mem_label (by decide) m) (by omega)).2

theorem Fits.check_source (h : Fits base) : (base.child ".src").check = .ok () := by
  have hroomy : Roomy base 44 := ⟨h.nul, h.room⟩
  exact (hroomy.child proper_source (by decide) (by decide)).2

end DentryWatch.Churn
