/-!
# Date — calendar

The proleptic Gregorian calendar.  Days are numbered from 1970-01-01; `dayNumber` and `ofDayNumber`
go from a date to its number and back.
-/

namespace SqlEngine.Date

/-- A day of the calendar; `year` may be zero or negative. -/
structure Day where
  year : Int
  month : Nat
  day : Nat
deriving DecidableEq, Repr

/-- Every fourth year, but of the full centuries only every fourth. -/
def isLeap (year : Int) : Bool :=
  year % 4 == 0 && (year % 100 != 0 || year % 400 == 0)

/-- The number of days of a month. -/
def monthLength (year : Int) : Nat → Nat
  | 2                => if isLeap year then 29 else 28
  | 4 | 6 | 9 | 11   => 30
  | _                => 31

/-- The earliest and the latest year a date may have. -/
def firstYear : Int := -262143

/-- The latest year a date may have. -/
def lastYear : Int := 262142

/-- The day exists in the calendar and its year is in range. -/
def Day.isValid (d : Day) : Bool :=
  firstYear ≤ d.year && d.year ≤ lastYear && 1 ≤ d.month && d.month ≤ 12 &&
    1 ≤ d.day && d.day ≤ monthLength d.year d.month

/-- Days since 1970-01-01.  Years are counted from March, so that a leap day ends its year. -/
def Day.number (d : Day) : Int :=
  let year := if d.month ≤ 2 then d.year - 1 else d.year
  let month : Nat := if d.month ≤ 2 then d.month + 9 else d.month - 3
  365 * year + year / 4 - year / 100 + year / 400 + (153 * month + 2) / 5 + d.day - 719469

/-- The day with the given number. -/
def Day.ofNumber (n : Int) : Day :=
  let shifted := n + 719468
  let era := shifted / 146097
  let dayOfEra := (shifted % 146097).toNat
  let yearOfEra := (dayOfEra - dayOfEra / 1460 + dayOfEra / 36524 - dayOfEra / 146096) / 365
  let dayOfYear := dayOfEra - (365 * yearOfEra + yearOfEra / 4 - yearOfEra / 100)
  let shiftedMonth := (5 * dayOfYear + 2) / 153
  let day := dayOfYear - (153 * shiftedMonth + 2) / 5 + 1
  let month := if shiftedMonth < 10 then shiftedMonth + 3 else shiftedMonth - 9
  let year := (yearOfEra : Int) + era * 400
  ⟨if month ≤ 2 then year + 1 else year, month, day⟩

end SqlEngine.Date
