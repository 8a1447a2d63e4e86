/-!
# Byte strings and little-endian words

File names, wire records and file contents are byte strings. A word is stored
least significant byte first, and reading a stored word back gives the word.
-/

namespace DentryWatch

abbrev Bytes := List UInt8

namespace Bytes

/-- The number a byte string stands for, least significant byte first. -/
def toNatLE : Bytes → Nat
  | [] => 0
  | byte :: rest => byte.toNat + 256 * toNatLE rest

/-- The `width` least significant bytes of a number, least significant first. -/
def ofNatLE : Nat → Nat → Bytes
  | 0, _ => []
  | width + 1, n => UInt8.ofNat n :: ofNatLE width (n / 256)

@[simp] theorem ofNatLE_length (width n : Nat) : (ofNatLE width n).length = width := by
  induction width generalizing n with
  | zero => rfl
  | succ width ih => simp [ofNatLE, ih]

theorem toNatLE_ofNatLE_of_lt {width n : Nat} (hbound : n < Nat.pow 256 width) :
    toNatLE (ofNatLE width n) = n := by
  induction width generalizing n with
  | zero =>
      have hn : n = 0 := by simpa using hbound
      simp [ofNatLE, toNatLE, hn]
  | succ width ih =>
      have hpow : Nat.pow 256 (width + 1) = Nat.pow 256 width * 256 := rfl
      have hrest : n / 256 < Nat.pow 256 width := by omega
      simp only [ofNatLE, toNatLE, ih hrest, UInt8.toNat_ofNat']
      omega

theorem toNatLE_lt (bytes : Bytes) : toNatLE bytes < Nat.pow 256 bytes.length := by
  induction bytes with
  | nil => simp [toNatLE]
  | cons byte rest ih =>
      have hbyte : byte.toNat < 256 := byte.toNat_lt
      have hpow : Nat.pow 256 (rest.length + 1) = Nat.pow 256 rest.length * 256 := rfl
      simp only [toNatLE, List.length_cons]
      omega

theorem ofNatLE_toNatLE (bytes : Bytes) : ofNatLE bytes.length (toNatLE bytes) = bytes := by
  induction bytes with
  | nil => rfl
  | cons byte rest ih =>
      have hbyte : byte.toNat < 256 := byte.toNat_lt
      have hdiv : (byte.toNat + 256 * toNatLE rest) / 256 = toNatLE rest := by omega
      have hhead : UInt8.ofNat (byte.toNat + 256 * toNatLE rest) = byte := by
        apply UInt8.toNat_inj.1
        rw [UInt8.toNat_ofNat']
        omega
      simp [ofNatLE, toNatLE, hdiv, hhead, ih]

def ofWord32 (word : UInt32) : Bytes := ofNatLE 4 word.toNat

def ofWord64 (word : UInt64) : Bytes := ofNatLE 8 word.toNat

def word32At (bytes : Bytes) (offset : Nat) : UInt32 :=
  UInt32.ofNat (toNatLE ((bytes.drop offset).take 4))

def word64At (bytes : Bytes) (offset : Nat) : UInt64 :=
  UInt64.ofNat (toNatLE ((bytes.drop offset).take 8))

@[simp] theorem ofWord32_length (word : UInt32) : (ofWord32 word).length = 4 := by
  simp [ofWord32]

@[simp] theorem ofWord64_length (word : UInt64) : (ofWord64 word).length = 8 := by
  simp [ofWord64]

theorem word32At_append (before rest : Bytes) (word : UInt32) :
    word32At (before ++ (ofWord32 word ++ rest)) before.length = word := by
  have htake : (ofWord32 word ++ rest).take 4 = ofWord32 word := by
    rw [← ofWord32_length word]
    exact List.take_left
  rw [word32At, List.drop_left, htake, ofWord32,
    toNatLE_ofNatLE_of_lt (by simpa using word.toNat_lt), UInt32.ofNat_toNat]

theorem word64At_append (before rest : Bytes) (word : UInt64) :
    word64At (before ++ (ofWord64 word ++ rest)) before.length = word := by
  have htake : (ofWord64 word ++ rest).take 8 = ofWord64 word := by
    rw [← ofWord64_length word]
    exact List.take_left
  rw [word64At, List.drop_left, htake, ofWord64,
    toNatLE_ofNatLE_of_lt (by simpa using word.toNat_lt), UInt64.ofNat_toNat]

/-- A byte string with another put over it from a position on; a gap between is filled with zeros. -/
def overlay (bytes : Bytes) (position : Nat) (patch : Bytes) : Bytes :=
  if patch.isEmpty then bytes
  else
    bytes.take position ++ List.replicate (position - bytes.length) 0 ++ patch ++
      bytes.drop (position + patch.length)

@[simp] theorem overlay_nil (bytes : Bytes) (position : Nat) :
    bytes.overlay position [] = bytes := rfl

theorem overlay_length_self (bytes patch : Bytes) :
    bytes.overlay bytes.length patch = bytes ++ patch := by
  cases patch <;> simp [overlay]

end Bytes

end DentryWatch
