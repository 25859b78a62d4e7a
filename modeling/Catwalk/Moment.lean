import Catwalk.Text.Basic

/-!
# Moments

A moment is a number of microseconds since the start of 1900, in universal time. A civil time is
its date and time of day in the Gregorian calendar, extended to all years, at some offset from
universal time.
-/

namespace Catwalk

/-- Microseconds since the start of 1900. -/
abbrev Moment := Int

/-- A date and a time of day. -/
structure CivilTime where
  year : Int
  month : Int
  day : Int
  hour : Int := 0
  minute : Int := 0
  second : Int := 0
  microsecond : Int := 0
  /-- Minutes by which the time is ahead of universal time. -/
  offset : Int := 0
deriving DecidableEq, Repr

namespace Moment

/-- Days from the start of March of the year 0 to the start of 1900. -/
def daysTo1900 : Int := 693901

/-- Days from the start of 1900 to a date. Years are taken to start in March, so that the leap day
is the last of its year. -/
def daysOfDate (year month day : Int) : Int :=
  let y := if month ≤ 2 then year - 1 else year
  let m := if month ≤ 2 then month + 9 else month - 3
  365 * y + y / 4 - y / 100 + y / 400 + (153 * m + 2) / 5 + day - 1 - daysTo1900

/-- The moment of a civil time. -/
def ofCivil (t : CivilTime) : Moment :=
  let seconds := ((daysOfDate t.year t.month t.day * 24 + t.hour) * 60 + t.minute - t.offset) * 60
    + t.second
  seconds * 1000000 + t.microsecond

/-- The date of a day, as year, month and day of the month. -/
def dateOfDays (days : Int) : Int × Int × Int :=
  let z := days + daysTo1900
  let era := z / 146097
  let dayOfEra := z % 146097
  let yearOfEra := (dayOfEra - dayOfEra / 1460 + dayOfEra / 36524 - dayOfEra / 146096) / 365
  let dayOfYear := dayOfEra - (365 * yearOfEra + yearOfEra / 4 - yearOfEra / 100)
  let m := (5 * dayOfYear + 2) / 153
  let day := dayOfYear - (153 * m + 2) / 5 + 1
  let year := yearOfEra + era * 400
  if m < 10 then (year, m + 3, day) else (year + 1, m - 9, day)

/-- The civil time of a moment in universal time. -/
def civil (moment : Moment) : CivilTime :=
  let seconds := moment / 1000000
  let (year, month, day) := dateOfDays (seconds / 86400)
  let second := seconds % 86400
  { year, month, day
    hour := second / 3600
    minute := second / 60 % 60
    second := second % 60
    microsecond := moment % 1000000 }

end Moment

/-- A number in decimal, padded with zeros to a width. -/
private def padded (width : Nat) (n : Int) : Text :=
  let digits := Nat.toDigits 10 n.toNat
  (List.replicate (width - digits.length) '0' ++ digits).map CodePoint.ofChar

open Text in
/-- The date and the time of day to the microsecond, with a `T` between them. -/
def CivilTime.text (t : CivilTime) : Text :=
  padded 4 t.year ++ "-" ++ padded 2 t.month ++ "-" ++ padded 2 t.day ++ "T" ++
    padded 2 t.hour ++ ":" ++ padded 2 t.minute ++ ":" ++ padded 2 t.second ++ "." ++
    padded 6 t.microsecond

end Catwalk
