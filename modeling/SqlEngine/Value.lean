import SqlEngine.Date.Format
import SqlEngine.Error
import SqlEngine.Number.Arithmetic
import SqlEngine.Number.Text

/-!
# Values

The values of the engine and what every operator does with them.  `apply` is the operators' table:
nothing is coerced, and a pair of kinds that is not in it is a type mismatch.  `compare` is the
total order of ORDER BY, MIN and MAX; `same` is the equality of DISTINCT and GROUP BY.
-/

namespace SqlEngine

inductive Value
  | null
  | number (x : Float)
  | text (s : String)
  | boolean (b : Bool)
  | date (instant : Date.Instant)
deriving Inhabited

namespace Value

/-- The kind of a value. -/
def kind : Value → DataType
  | null      => .null
  | number _  => .number
  | text _    => .text
  | boolean _ => .boolean
  | date _    => .date

def isNull : Value → Bool
  | null => true
  | _    => false

/-- Only the Boolean TRUE is true. -/
def isTrue : Value → Bool
  | boolean b => b
  | _         => false

def number? : Value → Option Float
  | number x => some x
  | _        => none

def text? : Value → Option String
  | text s => some s
  | _      => none

def date? : Value → Option Date.Instant
  | date i => some i
  | _      => none

/-- The value may stand in a column of the type: NULL everywhere, and anything where the type is not
known. -/
def fits (v : Value) (t : DataType) : Bool :=
  v.isNull || t.isNull || v.kind == t

/-- The text of a value. -/
def display : Value → String
  | null          => "NULL"
  | number x      => Number.text x
  | text s        => s
  | boolean true  => "true"
  | boolean false => "false"
  | date i        => i.text

/-! ### Operators -/

/-- The error of an operator that does not take the two kinds. -/
def mismatch (op : Operator) (a b : Value) : Error :=
  .typeMismatch op a.kind b.kind

/-- Addition of numbers, joining of texts. -/
def add : Value → Value → Except Error Value
  | number a, number b => .ok (number (a + b))
  | text a,   text b   => .ok (text (a ++ b))
  | a,        b        => .error (mismatch .plus a b)

/-- Joining of texts. -/
def concat : Value → Value → Except Error Value
  | text a, text b => .ok (text (a ++ b))
  | a,      b      => .error (mismatch .concat a b)

/-- An operation on numbers. -/
def arithmetic (op : Operator) (f : Float → Float → Except Error Float) :
    Value → Value → Except Error Value
  | number a, number b => (f a b).map number
  | a,        b        => .error (mismatch op a b)

/-- A number as divisor: zero of either sign is refused. -/
def divisor (f : Float → Float → Float) (a b : Float) : Except Error Float :=
  if b == 0 then .error .divisionByZero else .ok (f a b)

/-- Equality within a kind; NULL equals NULL and nothing else. -/
def equals : Value → Value → Except Error Bool
  | null,      null      => .ok true
  | null,      _         => .ok false
  | _,         null      => .ok false
  | number a,  number b  => .ok (a == b)
  | text a,    text b    => .ok (a == b)
  | boolean a, boolean b => .ok (a == b)
  | date a,    date b    => .ok (a == b)
  | a,         b         => .error (mismatch .equal a b)

/-- The order of numbers; NULL comes before everything. -/
def order (op : Operator) : Value → Value → Except Error Ordering
  | null,     null     => .ok .eq
  | null,     _        => .ok .lt
  | _,        null     => .ok .gt
  | number a, number b => .ok (Number.compare a b)
  | a,        b        => .error (mismatch op a b)

/-- A connective of Booleans. -/
def logical (op : Operator) (f : Bool → Bool → Bool) : Value → Value → Except Error Value
  | boolean a, boolean b => .ok (boolean (f a b))
  | a,         b         => .error (mismatch op a b)

/-- The result of `a op b`. -/
def apply (op : Operator) (a b : Value) : Except Error Value :=
  match op with
  | .plus         => add a b
  | .minus        => arithmetic op (fun x y => .ok (x - y)) a b
  | .times        => arithmetic op (fun x y => .ok (x * y)) a b
  | .divide       => arithmetic op (divisor (· / ·)) a b
  | .power        => arithmetic op (fun x y => .ok (x.pow y)) a b
  | .remainder    => arithmetic op (divisor Number.remainder) a b
  | .concat       => concat a b
  | .equal        => (equals a b).map boolean
  | .notEqual     => (equals a b).map fun e => boolean (!e)
  | .less         => (order op a b).map fun o => boolean o.isLT
  | .greater      => (order op a b).map fun o => boolean o.isGT
  | .lessEqual    => (order op a b).map fun o => boolean o.isLE
  | .greaterEqual => (order op a b).map fun o => boolean o.isGE
  | .and          => logical op (· && ·) a b
  | .or           => logical op (· || ·) a b

/-! ### Order and equality -/

/-- The place of a kind in the order of values. -/
def rank : Value → Nat
  | null      => 0
  | boolean _ => 1
  | number _  => 2
  | text _    => 3
  | date _    => 4

/-- Order of texts by code point. -/
def compareText (a b : String) : Ordering :=
  compareOfLessAndEq a b

/-- The total order of values: by kind, then by the natural order of the kind. -/
def compare : Value → Value → Ordering
  | number a,  number b  => Number.compare a b
  | text a,    text b    => compareText a b
  | boolean a, boolean b => Ord.compare a b
  | date a,    date b    => a.compare b
  | a,         b         => Ord.compare a.rank b.rank

/-- Equality that never fails: values of different kinds differ, and NaN equals itself. -/
def same : Value → Value → Bool
  | null,      null      => true
  | number a,  number b  => Number.same a b
  | text a,    text b    => a == b
  | boolean a, boolean b => a == b
  | date a,    date b    => a == b
  | _,         _         => false

/-- Equality of rows of values. -/
def sameAll : List Value → List Value → Bool
  | [],      []      => true
  | a :: as, b :: bs => same a b && sameAll as bs
  | _,       _       => false

end Value

end SqlEngine
