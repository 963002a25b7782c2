import SqlEngine.Number.Shortest

/-!
# Number — texts

`text` writes a number as the engine displays it, always positional; `listing` writes it as a
program listing does; `ofText?` reads a number, and `ofLiteral?` one that a statement spells.
-/

namespace SqlEngine.Number

/-- The shortest decimal of a positive finite number, without zeros at the end. -/
def decimal (x : Float) : Decimal :=
  let p := parts x
  let d := shortest p.mantissa p.exponent (p.mantissa == Nat.pow 2 52 && p.exponent != -1074)
  let digits := Nat.toDigits 10 d.digits
  let kept := (digits.reverse.dropWhile (· == '0')).reverse
  ⟨Nat.ofDigitChars 10 kept 0, d.exponent + (digits.length - kept.length : Nat)⟩

/-- A positive decimal in positional notation. -/
def Decimal.positional (d : Decimal) : String :=
  let digits := Nat.toDigits 10 d.digits
  let places := (-d.exponent).toNat
  if 0 ≤ d.exponent then String.ofList (digits ++ List.replicate d.exponent.toNat '0')
  else if places < digits.length then
    let whole := digits.length - places
    String.ofList (digits.take whole ++ '.' :: digits.drop whole)
  else String.ofList ('0' :: '.' :: List.replicate (places - digits.length) '0' ++ digits)

/-- A positive decimal with one digit before the point and an exponent. -/
def Decimal.scientific (d : Decimal) : String :=
  let digits := Nat.toDigits 10 d.digits
  let point := match digits.drop 1 with
    | []   => []
    | rest => '.' :: rest
  String.ofList (digits.take 1 ++ point) ++ "e" ++ toString (d.exponent + (digits.length - 1 : Nat))

/-- NaN, or the sign and what `finite` writes for the size. -/
def signed (x : Float) (zero : String) (finite : Decimal → String) : String :=
  if x.isNaN then "NaN" else
  let sign := if isNegative x then "-" else ""
  if x.isInf then sign ++ "inf"
  else if x == 0 then sign ++ zero
  else sign ++ finite (decimal x.abs)

/-- The text of a number: the fewest digits that read back, in positional notation. -/
def text (x : Float) : String :=
  signed x "0" Decimal.positional

/-- The text of a number in a program listing: whole numbers keep a zero after the point, and sizes
from `10 ^ 16` on or below `10 ^ -4` have an exponent. -/
def listing (x : Float) : String :=
  signed x "0.0" fun d =>
    if 1e16 ≤ x.abs || x.abs < 1e-4 then d.scientific
    else if 0 ≤ d.exponent then d.positional ++ ".0"
    else d.positional

/-- `digits · 10 ^ exponent`, rounded to the nearest number; sizes beyond the range of finite
numbers are decided by the place of the leading digit. -/
def ofDecimal (digits : List Char) (exponent : Int) : Float :=
  let kept := digits.dropWhile (· == '0')
  let place := (kept.length : Int) + exponent
  if kept.isEmpty || place < -330 then 0
  else if 310 < place then 1 / 0
  else Float.ofScientific (Nat.ofDigitChars 10 kept 0) (exponent < 0) exponent.natAbs

/-- Reads an exponent after its marker: a sign and at least one digit, to the end. -/
def exponent? (cs : List Char) : Option Int :=
  let (negative, digits) := match cs with
    | '-' :: rest => (true, rest)
    | '+' :: rest => (false, rest)
    | _           => (false, cs)
  if digits.isEmpty || !digits.all Char.isDigit then none
  else
    let n := Nat.ofDigitChars 10 digits 0
    some (if negative then -n else n)

/-- Reads digits with an optional fraction and exponent, to the end. -/
def unsigned? (cs : List Char) : Option Float :=
  let whole := cs.takeWhile Char.isDigit
  let (fraction, rest) := match cs.dropWhile Char.isDigit with
    | '.' :: r => (r.takeWhile Char.isDigit, r.dropWhile Char.isDigit)
    | r        => ([], r)
  if whole.isEmpty && fraction.isEmpty then none else
  match rest with
  | []     => some (ofDecimal (whole ++ fraction) (-fraction.length))
  | c :: r =>
    if c == 'e' || c == 'E' then
      (exponent? r).map fun e => ofDecimal (whole ++ fraction) (e - fraction.length)
    else none

/-- Reads a number literal; literals start with a digit. -/
def ofLiteral? (literal : String) : Option Float :=
  unsigned? literal.toList

/-- Reads a number: an optional sign, then a decimal, `inf`, `infinity` or `nan` in any case. -/
def ofText? (s : String) : Option Float :=
  let (negative, cs) := match s.toList with
    | '-' :: rest => (true, rest)
    | '+' :: rest => (false, rest)
    | cs          => (false, cs)
  let word := String.ofList (cs.map Char.toLower)
  let size :=
    if word == "inf" || word == "infinity" then some (1 / 0)
    else if word == "nan" then some (0 / 0)
    else unsigned? cs
  size.map fun x => if negative then -x else x

end SqlEngine.Number
