import LogAdmission.Instant
import LogAdmission.Text.Numeral

/-!
# Timestamps

The date and time of an instant in the proleptic Gregorian calendar, at
Greenwich, and its written form `2024-05-01T12:00:00.25Z`. The calendar has the
years -9999 to 9999; the written form has no room for years below zero.
-/

namespace LogAdmission

/-- A day of the calendar. -/
structure Date where
  year : Int
  month : Nat
  day : Nat
  deriving DecidableEq

/-- Why an instant has no timestamp. -/
inductive TimestampError where
  /-- The year is negative. -/
  | negativeYear
  /-- The instant lies outside the calendar. -/
  | outsideCalendar
  deriving DecidableEq

namespace Date

/-- The date a number of days after the first of January 1970. Years are counted
from March in cycles of 146097 days, so that the leap day ends a year. -/
def ofEpochDays (days : Int) : Date :=
  let shifted := days + 719468
  let cycle := shifted.fdiv 146097
  let dayOfCycle := (shifted.fmod 146097).toNat
  let yearOfCycle :=
    (dayOfCycle - dayOfCycle / 1460 + dayOfCycle / 36524 - dayOfCycle / 146096) / 365
  let dayOfYear := dayOfCycle - (365 * yearOfCycle + yearOfCycle / 4 - yearOfCycle / 100)
  let monthFromMarch := (5 * dayOfYear + 2) / 153
  let day := dayOfYear - (153 * monthFromMarch + 2) / 5 + 1
  let month := if monthFromMarch < 10 then monthFromMarch + 3 else monthFromMarch - 9
  let year := cycle * 400 + yearOfCycle
  ⟨if month ≤ 2 then year + 1 else year, month, day⟩

end Date

namespace Instant

/-- The fraction of a second, without zeros at the end and empty if it is zero. -/
def fractionText (nanos : Nat) : String :=
  if nanos = 0 then ""
  else
    let digits := (Numeral.padded 9 nanos).toList
    "." ++ String.ofList (digits.reverse.dropWhile (· = '0')).reverse

/-- The written date and time. -/
def timestamp (t : Instant) : Except TimestampError String :=
  let seconds := t.nanos.fdiv nanosPerSecond
  let nanos := (t.nanos.fmod nanosPerSecond).toNat
  let date := Date.ofEpochDays (seconds.fdiv 86400)
  let clock := (seconds.fmod 86400).toNat
  if date.year < -9999 ∨ 9999 < date.year then .error .outsideCalendar
  else if date.year < 0 then .error .negativeYear
  else
    .ok <| Numeral.padded 4 date.year.toNat
      ++ "-" ++ Numeral.padded 2 date.month
      ++ "-" ++ Numeral.padded 2 date.day
      ++ "T" ++ Numeral.padded 2 (clock / 3600)
      ++ ":" ++ Numeral.padded 2 (clock / 60 % 60)
      ++ ":" ++ Numeral.padded 2 (clock % 60)
      ++ fractionText nanos ++ "Z"

end Instant

end LogAdmission
