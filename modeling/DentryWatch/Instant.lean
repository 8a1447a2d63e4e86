import DentryWatch.Text.Numeral

/-!
# Instants

A point in time counts seconds since 1970-01-01T00:00:00Z and nanoseconds within
the second. A leap second counts as part of the second before it, so that its
nanoseconds begin at a whole second. An instant is written in UTC in the form of
RFC 3339. Years outside `0000` to `9999` carry a sign.
-/

namespace DentryWatch

structure Instant where
  /-- Seconds since the beginning of 1970 in UTC. -/
  seconds : Int
  /-- Nanoseconds within the second, and within the leap second after it. -/
  nanos : Nat := 0
deriving DecidableEq, Repr

structure CalendarDate where
  year : Int
  month : Nat
  day : Nat
deriving DecidableEq, Repr

namespace CalendarDate

/--
The date that many days after 1970-01-01. Eras of 400 years, each of 146097
days, are counted from 0000-03-01, so that a leap day ends its year.
-/
def ofDays (days : Int) : CalendarDate :=
  let shifted := days + 719468
  let era := shifted / 146097
  let dayOfEra := (shifted % 146097).toNat
  let yearOfEra := (dayOfEra - dayOfEra / 1460 + dayOfEra / 36524 - dayOfEra / 146096) / 365
  let dayOfYear := dayOfEra - (365 * yearOfEra + yearOfEra / 4 - yearOfEra / 100)
  let monthIndex := (5 * dayOfYear + 2) / 153
  let month := if monthIndex < 10 then monthIndex + 3 else monthIndex - 9
  { year := (yearOfEra : Int) + era * 400 + if month ≤ 2 then 1 else 0
    month
    day := dayOfYear - (153 * monthIndex + 2) / 5 + 1 }

example : ofDays 0 = ⟨1970, 1, 1⟩ := by decide

example : ofDays 11016 = ⟨2000, 2, 29⟩ := by decide

example : ofDays (-719529) = ⟨-1, 12, 31⟩ := by decide

end CalendarDate

namespace Instant

def nanosPerSecond : Nat := 1000000000

def second (instant : Instant) : Nat :=
  (instant.seconds % 60).toNat + instant.nanos / nanosPerSecond

def fraction (instant : Instant) : Nat := instant.nanos % nanosPerSecond

def padded (width n : Nat) : List Char := (Text.decimal n).leftpad width '0'

def yearText (year : Int) : List Char :=
  if 0 ≤ year ∧ year ≤ 9999 then padded 4 year.toNat
  else (if year < 0 then '-' else '+') :: padded 4 year.natAbs

/-- Writes date and time of day, without fraction and zone. -/
def secondsText (instant : Instant) : List Char :=
  let date := CalendarDate.ofDays (instant.seconds / 86400)
  let time := (instant.seconds % 86400).toNat
  yearText date.year ++ '-' :: padded 2 date.month ++ '-' :: padded 2 date.day ++
    'T' :: padded 2 (time / 3600) ++ ':' :: padded 2 (time / 60 % 60) ++
    ':' :: padded 2 instant.second

def nanosText (instant : Instant) : List Char :=
  instant.secondsText ++ '.' :: padded 9 instant.fraction ++ ['Z']

/-- The instant with as many groups of three fraction digits as it needs. -/
def shortText (instant : Instant) : List Char :=
  let n := instant.fraction
  let digits :=
    if n = 0 then []
    else if n % 1000000 = 0 then '.' :: padded 3 (n / 1000000)
    else if n % 1000 = 0 then '.' :: padded 6 (n / 1000)
    else '.' :: padded 9 n
  instant.secondsText ++ digits ++ ['Z']

end Instant

end DentryWatch
