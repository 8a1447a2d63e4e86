import DentryWatch.Text.Numeral

/-!
# Decimals out of range

A decimal is too large for a 64-bit floating-point number if it rounds past the
largest finite one.
-/

namespace DentryWatch.Decimal

/-- The least number that no longer rounds to a finite 64-bit floating-point number. -/
def limit : Nat := (1 <<< 1024) - (1 <<< 970)

/--
Whether `digits * 10 ^ exponent` reaches the limit. The number of digits settles
exponents far from it without a large power.
-/
def tooLarge (digits : Nat) (exponent : Int) : Bool :=
  let magnitude := ((Text.decimal digits).length : Int) + exponent
  if digits = 0 || magnitude < 300 then false
  else if 320 < magnitude then true
  else if 0 ≤ exponent then limit ≤ digits * Nat.pow 10 exponent.toNat
  else limit * Nat.pow 10 exponent.natAbs ≤ digits

end DentryWatch.Decimal
