import SqlEngine.Date.Calendar

/-!
# Date — instants

A point in time in UTC, its order and its text.
-/

namespace SqlEngine.Date

/-- Seconds since 1970-01-01 00:00:00 and nanoseconds; within a leap second, which shares its number
with the second before it, the nanoseconds go on from `10 ^ 9`. -/
structure Instant where
  seconds : Int
  nanos : Nat
deriving DecidableEq, Repr, Inhabited

/-- Earlier seconds first, then fewer nanoseconds. -/
def Instant.compare (a b : Instant) : Ordering :=
  (Ord.compare a.seconds b.seconds).then (Ord.compare a.nanos b.nanos)

/-- A number in decimal with at least `width` digits. -/
def padded (width n : Nat) : String :=
  let digits := Nat.toDigits 10 n
  String.ofList (List.replicate (width - digits.length) '0' ++ digits)

/-- A year: four digits from 0 to 9999, otherwise a sign and at least four digits. -/
def yearText (year : Int) : String :=
  if 0 ≤ year && year ≤ 9999 then padded 4 year.toNat
  else (if year < 0 then "-" else "+") ++ padded 4 year.natAbs

/-- The text of an instant, `year-month-day hour:minute:second`; a leap second is second 60. -/
def Instant.text (i : Instant) : String :=
  let day := Day.ofNumber (i.seconds / 86400)
  let time := (i.seconds % 86400).toNat
  let second := time % 60 + i.nanos / 1000000000
  yearText day.year ++ "-" ++ padded 2 day.month ++ "-" ++ padded 2 day.day ++ " " ++
    padded 2 (time / 3600) ++ ":" ++ padded 2 (time / 60 % 60) ++ ":" ++ padded 2 second

end SqlEngine.Date
