import SqlEngine.Number.Parts

/-!
# Number — shortest digits

`shortest m e closeBelow` gives the fewest decimal digits that read back as `m · 2 ^ e`, and of
those the nearest.  A decimal reads back when it lies in the interval of reals that round to the
number; the ends belong to it when the mantissa is even.  All arithmetic is exact.
-/

namespace SqlEngine.Number

/-- A positive decimal `digits · 10 ^ exponent`. -/
structure Decimal where
  digits : Nat
  exponent : Int
deriving DecidableEq, Repr

/-- The reals that round to a number, in units of `1 / unit`. -/
structure Interval where
  low : Nat
  value : Nat
  high : Nat
  unit : Nat
  closed : Bool

/-- The interval of `m · 2 ^ e`; below a power of two the neighbour is half as far away. -/
def Interval.of (m : Nat) (e : Int) (closeBelow : Bool) : Interval :=
  let up := Nat.pow 2 e.toNat
  let unit := 4 * Nat.pow 2 (-e).toNat
  { low := (if closeBelow then 4 * m - 1 else 4 * m - 2) * up
    value := 4 * m * up
    high := (4 * m + 2) * up
    unit := unit
    closed := m % 2 == 0 }

/-- The decimal lies in the interval. -/
def Interval.contains (i : Interval) (d : Decimal) : Bool :=
  let point := d.digits * Nat.pow 10 d.exponent.toNat * i.unit
  let scale := Nat.pow 10 (-d.exponent).toNat
  if i.closed then i.low * scale ≤ point && point ≤ i.high * scale
  else i.low * scale < point && point < i.high * scale

/-- The distance of a decimal from the value, for comparison on one grid. -/
def Interval.distance (i : Interval) (d : Decimal) : Nat :=
  let point := d.digits * Nat.pow 10 d.exponent.toNat * i.unit
  let here := i.value * Nat.pow 10 (-d.exponent).toNat
  (point - here) + (here - point)

/-- The neighbour of the value from below on the grid of the multiples of `10 ^ exponent`. -/
def Interval.below (i : Interval) (exponent : Int) : Decimal :=
  ⟨i.value * Nat.pow 10 (-exponent).toNat / (i.unit * Nat.pow 10 exponent.toNat), exponent⟩

/-- The exponent of the value's leading digit. -/
def Interval.leading (i : Interval) : Int :=
  if i.unit ≤ i.value then ((Nat.toDigits 10 (i.value / i.unit)).length : Int) - 1
  else -(((List.range 400).find? fun j => i.unit ≤ i.value * Nat.pow 10 j).getD 400 : Int)

/-- The better of the value's two neighbours on a grid, if one reads back; a tie goes up. -/
def Interval.pick? (i : Interval) (exponent : Int) : Option Decimal :=
  let below := i.below exponent
  let above : Decimal := ⟨below.digits + 1, exponent⟩
  match i.contains below, i.contains above with
  | true,  true  => some (if i.distance below < i.distance above then below else above)
  | true,  false => some below
  | false, true  => some above
  | false, false => none

/-- The fewest digits that read back as `m · 2 ^ e`, for a positive mantissa. -/
def shortest (m : Nat) (e : Int) (closeBelow : Bool) : Decimal :=
  let i := Interval.of m e closeBelow
  let top := i.leading
  ((List.range 17).findSome? fun (n : Nat) => i.pick? (top - n)).getD (i.below (top - 16))

end SqlEngine.Number
