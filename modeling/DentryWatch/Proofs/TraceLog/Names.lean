import DentryWatch.Proofs.Disk.Children
import DentryWatch.Proofs.Text.Decoding
import DentryWatch.Proofs.Text.Utf8
import DentryWatch.TraceLog.Basic

/-!
# Names of the files of a log

The files of a log are numbered from the active one. Different numbers give
different names, and each is a name that an entry can have.
-/

namespace DentryWatch.TraceLog

def fileName : Nat → String
  | 0 => activeName
  | number + 1 => rotatedName (number + 1)

def fileIn (directory : Path) (number : Nat) : Path := directory.child (fileName number)

def fileAt (top : Location) (number : Nat) : Location := top ++ [Path.ofText (fileName number)]

theorem fileIn_zero (directory : Path) : fileIn directory 0 = activeIn directory := rfl

theorem fileIn_succ (directory : Path) (number : Nat) :
    fileIn directory (number + 1) = rotatedIn directory (number + 1) := rfl

theorem ofText_activeName :
    Path.ofText activeName = [0x74, 0x72, 0x61, 0x63, 0x65, 0x73, 0x2E, 0x74, 0x73, 0x76] := by
  decide

theorem ofText_rotatedName (number : Nat) :
    Path.ofText (rotatedName number) =
      Path.ofText activeName ++ 0x2E :: Utf8.encodeChars (Text.decimal number) := by
  have hname : rotatedName number = activeName ++ "." ++ number.repr := by rfl
  rw [hname, Path.ofText, Utf8.encode_append, Utf8.encode_append, List.append_assoc]
  simp only [Utf8.encode, Nat.toList_repr]
  rfl

theorem length_rotatedName (number : Nat) :
    (Path.ofText (rotatedName number)).length = 11 + (Text.decimal number).length := by
  rw [ofText_rotatedName, ofText_activeName, Utf8.encodeChars_of_ascii (Text.ascii_decimal number)]
  simp only [List.length_append, List.length_cons, List.length_nil, List.length_map]
  omega

theorem rotatedName_ne_activeName (number : Nat) :
    Path.ofText (rotatedName number) ≠ Path.ofText activeName := by
  intro heq
  have hlength := congrArg List.length heq
  rw [length_rotatedName, ofText_activeName] at hlength
  simp only [List.length_cons, List.length_nil] at hlength
  omega

theorem rotatedName_inj {i j : Nat}
    (h : Path.ofText (rotatedName i) = Path.ofText (rotatedName j)) : i = j := by
  rw [ofText_rotatedName, ofText_rotatedName] at h
  have hdigits := (List.cons_eq_cons.1 (List.append_cancel_left h)).2
  exact Text.decimal_inj (Utf8.encodeChars_inj hdigits)

/-- Files with different numbers have different names. -/
theorem fileName_inj {i j : Nat} (h : Path.ofText (fileName i) = Path.ofText (fileName j)) :
    i = j := by
  cases i with
  | zero =>
      cases j with
      | zero => rfl
      | succ j => exact absurd h.symm (rotatedName_ne_activeName _)
  | succ i =>
      cases j with
      | zero => exact absurd h (rotatedName_ne_activeName _)
      | succ j => exact rotatedName_inj h

theorem fileAt_inj {top : Location} {i j : Nat} (h : fileAt top i = fileAt top j) : i = j := by
  have hlast := List.append_cancel_left h
  exact fileName_inj (List.cons_eq_cons.1 hlast).1

/-- There is no file with the number of the active one behind its name. -/
theorem rotatedName_zero_ne (top : Location) (number : Nat) :
    top ++ [Path.ofText (rotatedName 0)] ≠ fileAt top number := by
  intro heq
  have hname := (List.cons_eq_cons.1 (List.append_cancel_left heq)).1
  cases number with
  | zero => exact rotatedName_ne_activeName 0 hname
  | succ number => exact absurd (rotatedName_inj hname) (by omega)

theorem proper_rotatedName {number : Nat} (h : number < UInt64.size) :
    FileName.Proper (Path.ofText (rotatedName number)) := by
  have hlength := length_rotatedName number
  have hdigits : (Text.decimal number).length ≤ 20 :=
    (Nat.length_toDigits_le_iff (by decide) (by decide)).2 (Nat.lt_trans h (by decide))
  refine ⟨?_, ?_, ?_, ?_, ?_⟩
  · intro heq
    rw [heq] at hlength
    simp only [List.length_nil] at hlength
    omega
  · intro heq
    rw [heq] at hlength
    simp only [List.length_cons, List.length_nil] at hlength
    omega
  · intro heq
    rw [heq] at hlength
    simp only [List.length_cons, List.length_nil] at hlength
    omega
  · intro hmem
    rw [ofText_rotatedName, ofText_activeName] at hmem
    rcases List.mem_append.1 hmem with hfront | hback
    · revert hfront
      decide
    · rcases List.mem_cons.1 hback with hdot | hdigit
      · revert hdot
        decide
      · have hslash : '/' ∈ Text.decimal number := (Utf8.mem_encodeChars_iff (by decide)).1 hdigit
        have hisDigit := Text.isDigit_of_mem_decimal hslash
        revert hisDigit
        decide
  · rw [hlength]
    show _ ≤ 255
    omega

theorem proper_activeName : FileName.Proper (Path.ofText activeName) := by
  rw [ofText_activeName]
  exact ⟨by decide, by decide, by decide, by decide, by decide⟩

theorem proper_fileName {number : Nat} (h : number < UInt64.size) :
    FileName.Proper (Path.ofText (fileName number)) := by
  cases number with
  | zero => exact proper_activeName
  | succ number => exact proper_rotatedName h

end DentryWatch.TraceLog
