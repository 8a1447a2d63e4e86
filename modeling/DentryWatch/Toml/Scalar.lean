import DentryWatch.Decimal.Range
import DentryWatch.Toml.Quoted
import DentryWatch.Toml.Value

/-!
# Bare scalars in TOML

Truth values, numbers, dates and times stand without quotes. Single underscores
may part the digits of a number. A whole number has 64 bits; a floating-point
number may be too small but not too large for its 64 bits.
-/

namespace DentryWatch.Toml

/-- The digits of a numeral, without the underscores between them. -/
def digits? (isDigit : Char → Bool) (s : List Char) : Option (List Char) :=
  let groups := s.splitOn '_'
  if groups.all fun group => !group.isEmpty && group.all isDigit then some groups.flatten
  else none

/-- Decimal digits without a zero in front of others. -/
def wholeDigits? (s : List Char) : Option (List Char) :=
  (digits? Char.isDigit s).filter fun digits => digits.length = 1 || digits.head? ≠ some '0'

/-- Whether a sign asks for the opposite, and what follows it. -/
def readSign : List Char → Bool × List Char
  | '-' :: rest => (true, rest)
  | '+' :: rest => (false, rest)
  | s => (false, s)

def readBased? (base : Nat) (isDigit : Char → Bool) (s : List Char) : Option Int := do
  let value := digitsValue base (← digits? isDigit s)
  if value < Text.int64Bound then some value else none

def readWhole? (s : List Char) : Option Int := do
  let (negative, s) := readSign s
  let value := digitsValue 10 (← wholeDigits? s)
  if negative then if value ≤ Text.int64Bound then some (-value) else none
  else if value < Text.int64Bound then some value else none

def readInteger? : List Char → Option Int
  | '0' :: 'x' :: s => readBased? 16 isHexDigit s
  | '0' :: 'o' :: s => readBased? 8 (fun c => '0' ≤ c && c ≤ '7') s
  | '0' :: 'b' :: s => readBased? 2 (fun c => c = '0' || c = '1') s
  | s => readWhole? s

/-- The fraction digits after a number, if there is a fraction. -/
def readFraction? : List Char → Option (List Char)
  | [] => some []
  | '.' :: s => digits? Char.isDigit s
  | _ => none

def readExponent? : List Char → Option Int
  | [] => some 0
  | _ :: s => do
      let (negative, s) := readSign s
      let value := digitsValue 10 (← digits? Char.isDigit s)
      some (if negative then -value else value)

def isReal (word : List Char) : Bool :=
  let (negative, s) := readSign word
  if s = ['i', 'n', 'f'] || s = ['n', 'a', 'n'] then true
  else
    let (number, exponent) := s.span fun c => c ≠ 'e' && c ≠ 'E'
    let (whole, fraction) := number.span (· ≠ '.')
    match wholeDigits? whole, readFraction? fraction, readExponent? exponent with
    | some whole, some places, some power =>
        !(fraction.isEmpty && exponent.isEmpty) &&
          (negative || !Decimal.tooLarge (digitsValue 10 (whole ++ places)) (power - places.length))
    | _, _, _ => false

/-- The number that digits of a fixed width give, and the rest. -/
def readFixed? (width : Nat) (s : List Char) : Option (Nat × List Char) :=
  let digits := s.take width
  if digits.length = width && digits.all Char.isDigit then
    some (digitsValue 10 digits, s.drop width)
  else none

/-- A number of a fixed width within bounds, and the rest. -/
def readWithin? (width low high : Nat) (s : List Char) : Option (Nat × List Char) :=
  (readFixed? width s).filter fun (n, _) => low ≤ n && n ≤ high

def expect? (mark : Char) : List Char → Option (List Char)
  | c :: rest => if c = mark then some rest else none
  | [] => none

def monthLength (year month : Nat) : Nat :=
  if month = 2 then
    if year % 4 = 0 && (year % 100 ≠ 0 || year % 400 = 0) then 29 else 28
  else if month = 4 || month = 6 || month = 9 || month = 11 then 30
  else 31

def afterDate? (s : List Char) : Option (List Char) := do
  let (year, s) ← readFixed? 4 s
  let (month, s) ← readWithin? 2 1 12 (← expect? '-' s)
  let (_, s) ← readWithin? 2 1 (monthLength year month) (← expect? '-' s)
  some s

/-- What follows the digits of a fraction of a second, if there is one. -/
def afterFraction? : List Char → Option (List Char)
  | '.' :: s => if (s.takeWhile Char.isDigit).isEmpty then none else some (s.dropWhile Char.isDigit)
  | s => some s

/-- What follows a time of day; a minute may have a leap second. -/
def afterTime? (s : List Char) : Option (List Char) := do
  let (_, s) ← readWithin? 2 0 23 s
  let (_, s) ← readWithin? 2 0 59 (← expect? ':' s)
  let (_, s) ← readWithin? 2 0 60 (← expect? ':' s)
  afterFraction? s

def isOffset : List Char → Bool
  | [] | ['Z'] | ['z'] => true
  | sign :: s =>
      (sign = '+' || sign = '-') && ((do
        let (_, s) ← readWithin? 2 0 23 s
        let (_, s) ← readWithin? 2 0 59 (← expect? ':' s)
        some s.isEmpty).getD false)

def isZonedTime (word : List Char) : Bool := ((afterTime? word).map isOffset).getD false

def isDate (word : List Char) : Bool := afterDate? word = some []

def isMoment (word : List Char) : Bool :=
  afterTime? word = some [] ||
    match afterDate? word with
    | some [] => true
    | some (mark :: time) => (mark = 'T' || mark = 't') && isZonedTime time
    | none => false

def scalarOfWord? (word : List Char) : Option Value :=
  if word = ['t', 'r', 'u', 'e'] then some (.boolean true)
  else if word = ['f', 'a', 'l', 's', 'e'] then some (.boolean false)
  else if isMoment word then some (.moment word)
  else if isReal word then some (.real word)
  else (readInteger? word).map .integer

def isWordChar (c : Char) : Bool :=
  c.isAlphanum || c = '_' || c = '-' || c = '+' || c = '.' || c = ':'

/-- Reads a scalar without quotes. A blank may part a date from a time. -/
def readBare (s : List Char) : Option (Value × List Char) :=
  let (word, rest) := s.span isWordChar
  let (time, after) := (rest.drop 1).span isWordChar
  if isDate word && rest.head? = some ' ' && isZonedTime time then
    some (.moment (word ++ ' ' :: time), after)
  else (scalarOfWord? word).map fun value => (value, rest)

example : readInteger? ['1', '_', '0'] = some 10 := by decide

example : readInteger? ['0', '7'] = none := by decide

example : isReal ['1', '.', '5', 'e', '+', '3'] = true := by decide

end DentryWatch.Toml
