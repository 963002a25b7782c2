import SqlEngine.Number.Parts

/-!
# Number — arithmetic

The operations on numbers that the hardware does not provide: the exact remainder, powers of ten by
repeated squaring, rounding to decimal places, and a total comparison.
-/

namespace SqlEngine.Number

/-- The remainder of `x` by a nonzero `y`, with the sign of `x`: `x` less the multiple of `y` next
to it toward zero.  The result is exact. -/
def remainder (x y : Float) : Float :=
  if x.isNaN || y.isNaN || x.isInf || y == 0 then 0 / 0
  else if y.isInf then x
  else
    let a := parts x
    let b := parts y
    let e := min a.exponent b.exponent
    let n := a.mantissa * Nat.pow 2 (a.exponent - e).toNat
    let d := b.mantissa * Nat.pow 2 (b.exponent - e).toNat
    ofParts ⟨a.negative, n % d, e⟩

/-- `acc · base ^ n` by repeated squaring, from the low bit of `n` up. -/
def powerFrom (acc base : Float) (n : Nat) : Float :=
  let acc := if n % 2 = 1 then acc * base else acc
  if n / 2 = 0 then acc else powerFrom acc (base * base) (n / 2)
termination_by n

/-- `base ^ n` for a whole exponent; a negative one gives the reciprocal. -/
def wholePower (base : Float) (n : Int) : Float :=
  let size := powerFrom 1 base n.natAbs
  if n < 0 then 1 / size else size

/-- Rounds to decimal places, a half away from zero. -/
def roundTo (x : Float) (places : Int) : Float :=
  let factor := wholePower 10 places
  (x * factor).round / factor

/-- The order of numbers; NaN equals itself and comes after every other number. -/
def compare (a b : Float) : Ordering :=
  match a.isNaN, b.isNaN with
  | true,  true  => .eq
  | true,  false => .gt
  | false, true  => .lt
  | false, false => if a < b then .lt else if a == b then .eq else .gt

/-- Equality of numbers in which NaN equals itself. -/
def same (a b : Float) : Bool :=
  (a.isNaN && b.isNaN) || a == b

end SqlEngine.Number
