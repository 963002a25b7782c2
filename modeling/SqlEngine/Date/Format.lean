import SqlEngine.Text.Blank
import SqlEngine.Date.Instant

/-!
# Date — formats

A date format is a list of items, and reading a text by a format fills in `Fields`.  `read?` tries
the accepted formats in order and takes the first that reads the whole text as an existing date.
-/

namespace SqlEngine.Date

/-- An item of a date format. -/
inductive Item
  | year | month | day | hour | minute | second
  | fraction                -- an optional point and digits
  | zone                    -- a signed distance from UTC in hours and minutes
  | blanks                  -- any number of blanks, none included
  | mark (c : Char)         -- the character itself

/-- What a format has read so far. -/
structure Fields where
  year : Int := 0
  month : Nat := 1
  day : Nat := 1
  hour : Nat := 0
  minute : Nat := 0
  second : Nat := 0
  nanos : Nat := 0
  zone : Option Int := none

/-- Reads between one and `width` ASCII digits. -/
def digits? (width : Nat) (cs : List Char) : Option (Nat × List Char) :=
  let digits := (cs.take width).takeWhile Char.isDigit
  if digits.isEmpty then none
  else some (Nat.ofDigitChars 10 digits 0, cs.drop digits.length)

/-- Reads a number of at most `width` digits within bounds; blanks may come before it. -/
def number? (width low high : Nat) (cs : List Char) : Option (Nat × List Char) := do
  let (n, rest) ← digits? width (Text.dropBlanks cs)
  if low ≤ n && n ≤ high then some (n, rest) else none

/-- Reads a year: at most four digits, or a sign and any number of digits. -/
def year? (cs : List Char) : Option (Int × List Char) :=
  match Text.dropBlanks cs with
  | '-' :: rest => (digits? rest.length rest).map fun p => (-(p.1 : Int), p.2)
  | '+' :: rest => (digits? rest.length rest).map fun p => ((p.1 : Int), p.2)
  | rest        => (digits? 4 rest).map fun p => ((p.1 : Int), p.2)

/-- Reads digits after a point as nanoseconds; from the tenth on they are skipped. -/
def nanos? (cs : List Char) : Option (Nat × List Char) := do
  let (n, rest) ← digits? 9 cs
  some (n * Nat.pow 10 (9 - (cs.length - rest.length)), rest.dropWhile Char.isDigit)

/-- Reads exactly two digits. -/
def twoDigits? : List Char → Option (Nat × List Char)
  | a :: b :: rest =>
    if a.isDigit && b.isDigit then some (Nat.ofDigitChars 10 [a, b] 0, rest) else none
  | _ => none

/-- Reads a distance from UTC in seconds: a sign, two digits of hours, colons or blanks, two digits
of minutes. -/
def zone? (cs : List Char) : Option (Int × List Char) := do
  let (sign, rest) ← match Text.dropBlanks cs with
    | '+' :: rest => some ((1 : Int), rest)
    | '-' :: rest => some (-1, rest)
    | '−' :: rest => some (-1, rest)
    | _           => none
  let (hours, rest) ← twoDigits? rest
  let (minutes, rest) ← twoDigits? (rest.dropWhile fun c => c == ':' || Text.isBlank c)
  if minutes < 60 then some (sign * (hours * 3600 + minutes * 60 : Nat), rest) else none

/-- Reads one item. -/
def Item.read? (f : Fields) (cs : List Char) : Item → Option (Fields × List Char)
  | .year     => (year? cs).map fun p => ({ f with year := p.1 }, p.2)
  | .month    => (number? 2 1 12 cs).map fun p => ({ f with month := p.1 }, p.2)
  | .day      => (number? 2 1 31 cs).map fun p => ({ f with day := p.1 }, p.2)
  | .hour     => (number? 2 0 23 cs).map fun p => ({ f with hour := p.1 }, p.2)
  | .minute   => (number? 2 0 59 cs).map fun p => ({ f with minute := p.1 }, p.2)
  | .second   => (number? 2 0 60 cs).map fun p => ({ f with second := p.1 }, p.2)
  | .fraction =>
    match cs with
    | '.' :: rest => (nanos? rest).map fun p => ({ f with nanos := p.1 }, p.2)
    | _           => some (f, cs)
  | .zone     => (zone? cs).map fun p => ({ f with zone := some p.1 }, p.2)
  | .blanks   => some (f, Text.dropBlanks cs)
  | .mark c   =>
    match cs with
    | d :: rest => if d == c then some (f, rest) else none
    | []        => none

/-- Reads the whole text by a format. -/
def readItems? (f : Fields) (cs : List Char) : List Item → Option Fields
  | []            => if cs.isEmpty then some f else none
  | item :: items => (item.read? f cs).bind fun p => readItems? p.1 p.2 items

/-- The instant the fields name, the distance from UTC taken off where it is below a day and leaves
the date in range, and ignored otherwise.  Second 60 is the leap second after second 59. -/
def Fields.instant? (f : Fields) : Option Instant :=
  let day : Day := ⟨f.year, f.month, f.day⟩
  if day.isValid then
    let leap := f.second == 60
    let time := f.hour * 3600 + f.minute * 60 + (if leap then 59 else f.second)
    let seconds := day.number * 86400 + time
    let nanos := f.nanos + (if leap then 1000000000 else 0)
    let shifted := seconds - f.zone.getD 0
    let inDay := (f.zone.getD 0).natAbs < 86400
    if inDay && (Day.ofNumber (shifted / 86400)).isValid then some ⟨shifted, nanos⟩
    else some ⟨seconds, nanos⟩
  else none

/-- `year-month-day`, with the given character between. -/
def dayItems (c : Char) : List Item :=
  [.year, .mark c, .month, .mark c, .day]

/-- `hour:minute:second`. -/
def timeItems : List Item :=
  [.hour, .mark ':', .minute, .mark ':', .second]

/-- The accepted formats, in the order in which they are tried. -/
def formats : List (List Item) :=
  [ dayItems '-' ++ .mark 'T' :: timeItems ++ [.fraction, .zone],
    dayItems '-' ++ .mark 'T' :: timeItems ++ [.zone],
    dayItems '-' ++ .mark 'T' :: timeItems ++ [.mark 'Z'],
    dayItems '-' ++ .mark 'T' :: timeItems,
    dayItems '-' ++ .blanks :: timeItems ++ [.fraction],
    dayItems '-' ++ .blanks :: timeItems,
    dayItems '/' ++ .blanks :: timeItems,
    dayItems '-',
    dayItems '/' ]

/-- Reads a date or a date with a time; blanks around it do not count. -/
def read? (s : String) : Option Instant :=
  let cs := Text.trim s.toList
  formats.findSome? fun items => (readItems? {} cs items).bind Fields.instant?

end SqlEngine.Date
