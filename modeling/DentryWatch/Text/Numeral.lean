/-!
# Decimal numerals

A numeral is a non-empty run of the digits `0` to `9`. Signed readers take one
sign in front, and every reader refuses a value outside its range.
-/

namespace DentryWatch.Text

/-- The digits of a number, most significant first, without leading zeros. -/
def decimal (n : Nat) : List Char := Nat.toDigits 10 n

def readDigits? (s : List Char) : Option Nat :=
  if s.isEmpty || !s.all Char.isDigit then none else some (Nat.ofDigitChars 10 s 0)

/-- The value of a numeral below a bound, with at most one `+` in front. -/
def readBelow? (bound : Nat) (s : List Char) : Option Nat :=
  let digits := match s with
    | '+' :: rest => rest
    | _ => s
  (readDigits? digits).filter (· < bound)

/-- The value of a digit up to `f`, in capitals or small letters. -/
def digitValue? (c : Char) : Option Nat :=
  if c.isDigit then some (c.toNat - 48)
  else if 'a' ≤ c && c ≤ 'f' then some (c.toNat - 87)
  else if 'A' ≤ c && c ≤ 'F' then some (c.toNat - 55)
  else none

/-- The value of a non-empty run of digits in a base up to sixteen. -/
def readBase? (base : Nat) (s : List Char) : Option Nat := do
  let digits ← s.mapM digitValue?
  if digits.isEmpty || !digits.all (· < base) then none
  else some (digits.foldl (base * · + ·) 0)

def readWord32? (s : List Char) : Option UInt32 :=
  (readBelow? UInt32.size s).map UInt32.ofNat

def readWord64? (s : List Char) : Option UInt64 :=
  (readBelow? UInt64.size s).map UInt64.ofNat

def int64Bound : Nat := 9223372036854775808

/-- A 64-bit signed number, with at most one sign in front. -/
def readInt64? (s : List Char) : Option Int :=
  match s with
  | '-' :: digits => ((readDigits? digits).filter (· ≤ int64Bound)).map (fun n => -(n : Int))
  | _ => (readBelow? int64Bound s).map Int.ofNat

theorem isDigit_of_mem_decimal {n : Nat} {c : Char} (h : c ∈ decimal n) : c.isDigit = true :=
  Nat.isDigit_of_mem_toDigits (by omega) (by omega) h

theorem decimal_ne_nil (n : Nat) : decimal n ≠ [] :=
  Nat.toDigits_ne_nil

theorem readDigits?_decimal (n : Nat) : readDigits? (decimal n) = some n := by
  have hall : (decimal n).all Char.isDigit = true :=
    List.all_eq_true.2 fun _ => isDigit_of_mem_decimal
  rw [readDigits?, hall, if_neg (by simp [decimal_ne_nil]), decimal,
    Nat.ofDigitChars_ten_toDigits]

theorem decimal_inj {n m : Nat} (h : decimal n = decimal m) : n = m := by
  have hread := readDigits?_decimal n
  rw [h, readDigits?_decimal] at hread
  exact (Option.some.inj hread).symm

theorem ascii_of_isDigit {c : Char} (h : c.isDigit = true) : c.toNat < 0x80 := by
  simp only [Char.isDigit, Bool.and_eq_true, decide_eq_true_eq, UInt32.le_iff_toNat_le] at h
  exact Nat.lt_of_le_of_lt h.2 (by decide)

theorem ascii_decimal (n : Nat) : ∀ c ∈ decimal n, c.toNat < 0x80 :=
  fun _ hmem => ascii_of_isDigit (isDigit_of_mem_decimal hmem)

end DentryWatch.Text
