/-!
# Number — parts

The sign, mantissa and exponent of a 64-bit floating-point number, and the finite number that
given parts stand for.
-/

namespace SqlEngine.Number

/-- A finite number as `± mantissa · 2 ^ exponent`. -/
structure Parts where
  negative : Bool
  mantissa : Nat
  exponent : Int
deriving DecidableEq, Repr

/-- The sign bit. -/
def isNegative (x : Float) : Bool :=
  x.toBits >>> 63 == 1

/-- The parts of a finite number; those of infinity and of NaN have no meaning. -/
def parts (x : Float) : Parts :=
  let bits := x.toBits.toNat
  let scale : Nat := bits / Nat.pow 2 52 % Nat.pow 2 11
  let fraction : Nat := bits % Nat.pow 2 52
  if scale = 0 then ⟨isNegative x, fraction, -1074⟩
  else ⟨isNegative x, Nat.pow 2 52 + fraction, (scale : Int) - 1075⟩

/-- The number the parts stand for, exact whenever it is a 64-bit number. -/
def ofParts (p : Parts) : Float :=
  let size := (Float.ofNat p.mantissa).scaleB p.exponent
  if p.negative then -size else size

/-- The number has no fraction; infinity and NaN do not count. -/
def isWhole (x : Float) : Bool :=
  x.isFinite && x.floor == x

end SqlEngine.Number
