import DentryWatch.Text.Numeral

/-!
# Shortest decimals of whole doubles

A whole number is first rounded to a binary floating-point number with 53
significant bits, a half to the even neighbour. Of the decimals that round back
to that number, one with the fewest digits is shown, and of those the nearest.
-/

namespace DentryWatch.Decimal

/-- A whole floating-point number, `mantissa * 2 ^ exponent`. -/
structure WholeDouble where
  /-- The significant bits, at most 53 of them. -/
  mantissa : Nat
  exponent : Nat
deriving DecidableEq, Repr

namespace WholeDouble

def precision : Nat := 53

/-- The least mantissa with all its bits in use. -/
def leadingBit : Nat := 1 <<< (precision - 1)

def value (x : WholeDouble) : Nat := x.mantissa <<< x.exponent

/-- The floating-point number nearest to a whole number, a half going to the even one. -/
def nearest (n : Nat) : WholeDouble :=
  if n < 2 * leadingBit then ⟨n, 0⟩
  else
    let exponent := Nat.log2 n + 1 - precision
    let unit := 1 <<< exponent
    let floor := n / unit
    let rest := n % unit
    let up := unit < 2 * rest || (2 * rest == unit && floor % 2 == 1)
    let mantissa := if up then floor + 1 else floor
    if mantissa = 2 * leadingBit then ⟨leadingBit, exponent + 1⟩ else ⟨mantissa, exponent⟩

/-- Whether a whole number lies among those that round to `x`. Halves belong to an even mantissa. -/
def admits (x : WholeDouble) (n : Nat) : Bool :=
  let above := 1 <<< x.exponent
  let below := if x.mantissa = leadingBit then above / 2 else above
  let low := 2 * x.value - below
  let high := 2 * x.value + above
  if x.mantissa % 2 = 0 then low ≤ 2 * n && 2 * n ≤ high else low < 2 * n && 2 * n < high

/-- The multiple of a power of ten nearest to `x` among those that round to it. -/
def onGrid? (x : WholeDouble) (places : Nat) : Option Nat :=
  let unit := Nat.pow 10 places
  let low := x.value / unit * unit
  let high := low + unit
  match x.admits low, x.admits high with
  | true, true => some (if x.value - low < high - x.value then low else high)
  | true, false => some low
  | false, true => some high
  | false, false => none

/-- The decimal with the fewest digits that rounds to `x`, and the nearest of those. -/
def shortest (x : WholeDouble) : Nat :=
  let places := (Text.decimal x.value).length
  ((List.range places).reverse.findSome? x.onGrid?).getD x.value

end WholeDouble

/-- A whole number as a floating-point number is shown. -/
def shown (n : Nat) : List Char := Text.decimal (WholeDouble.nearest n).shortest

def shownInt (n : Int) : List Char :=
  if n < 0 then '-' :: shown n.natAbs else shown n.natAbs

example : WholeDouble.shortest (.nearest (UInt64.size - 1)) = 18446744073709552000 := by
  decide +kernel

example : WholeDouble.shortest (.nearest 9007199254740993) = 9007199254740992 := by
  decide +kernel

end DentryWatch.Decimal
