import DentryWatch.Decimal.Range
import DentryWatch.Decimal.Shortest

/-!
# Decimals cut to a word

A decimal is read with as many of its leading digits as fit a 64-bit word. Whole
digits after those raise the power of ten, places after those are dropped. The
word and the power are rounded to doubles one by one, and their product decides
whether the decimal is out of range, so that it may differ from the exact answer
close to the limit.
-/

namespace DentryWatch.Decimal

/-- The number `digits * 10 ^ exponent`. -/
structure WordDecimal where
  /-- The digits, less than `2 ^ 64`. -/
  digits : Nat
  /-- The power of ten. -/
  exponent : Int
deriving DecidableEq, Repr

namespace WordDecimal

/-- Appends digits to a word as long as it does not overflow. The answer tells the digits left. -/
def append (word : Nat) (digits : List Char) : Nat × List Char :=
  match digits with
  | [] => (word, [])
  | digit :: rest =>
      let next := 10 * word + (digit.toNat - '0'.toNat)
      if next < UInt64.size then append next rest else (word, digits)

/-- The decimal with these digits before and after the point, times a power of ten. -/
def ofDigits (whole places : List Char) (power : Int) : WordDecimal :=
  let (word, beyond) := append 0 whole
  let (word, dropped) := append word places
  { digits := word
    exponent := power + beyond.length - (places.length - dropped.length : Nat) }

/-- The largest power of ten that is a finite double. -/
def maxExponent : Nat := 308

def overflows (decimal : WordDecimal) : Bool :=
  decimal.digits ≠ 0 && 0 ≤ decimal.exponent &&
    (maxExponent < decimal.exponent ||
      limit ≤ (WholeDouble.nearest decimal.digits).value *
        (WholeDouble.nearest (Nat.pow 10 decimal.exponent.toNat)).value)

end WordDecimal

end DentryWatch.Decimal
