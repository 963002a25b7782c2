import SqlEngine.DataType
import SqlEngine.Text.Blank

/-!
# Operators

The binary operators, their symbols, the tier each binds in, and the static typing of an
application (`resultType`).
-/

namespace SqlEngine

inductive Operator
  | plus | minus | times | divide | power | remainder | concat
  | equal | notEqual | less | greater | lessEqual | greaterEqual
  | and | or
deriving DecidableEq, Repr

/-- How tightly an operator binds, loosest first. -/
inductive Tier
  | lowest | or | and | comparison | sum | product
deriving DecidableEq, Repr

/-- The rank of a tier, from 1. -/
def Tier.rank : Tier → Nat
  | lowest     => 1
  | or         => 2
  | and        => 3
  | comparison => 4
  | sum        => 5
  | product    => 6

namespace Operator

def symbol : Operator → String
  | plus         => "+"
  | minus        => "-"
  | times        => "*"
  | divide       => "/"
  | power        => "^"
  | remainder    => "%"
  | concat       => "||"
  | equal        => "="
  | notEqual     => "<>"
  | less         => "<"
  | greater      => ">"
  | lessEqual    => "<="
  | greaterEqual => ">="
  | and          => "AND"
  | or           => "OR"

/-- The operator a symbol stands for; `!=` is a second spelling, and words go by any case. -/
def ofSymbol? (s : String) : Option Operator :=
  match s with
  | "+"         => some plus
  | "-"         => some minus
  | "*"         => some times
  | "/"         => some divide
  | "^"         => some power
  | "%"         => some remainder
  | "||"        => some concat
  | "="         => some equal
  | "<>" | "!=" => some notEqual
  | "<"         => some less
  | ">"         => some greater
  | "<="        => some lessEqual
  | ">="        => some greaterEqual
  | _           =>
    if Text.sameName s "AND" then some and
    else if Text.sameName s "OR" then some or
    else none

def tier : Operator → Tier
  | or                                                               => .or
  | and                                                              => .and
  | equal | notEqual | less | greater | lessEqual | greaterEqual     => .comparison
  | plus | minus | concat                                            => .sum
  | times | divide | remainder | power                               => .product

/-- The operators of the tightest tier. -/
def isMultiplicative : Operator → Bool
  | times | divide | power | remainder => true
  | _                                  => false

def isComparison : Operator → Bool
  | equal | notEqual | less | greater | lessEqual | greaterEqual => true
  | _                                                            => false

def isLogical : Operator → Bool
  | and | or => true
  | _        => false

/-- An operator takes the operand type when both sides go together; `oneNull` says that a side is
of unknown type. -/
def takes (operand : DataType) (oneNull : Bool) : Operator → Bool
  | plus                                       => (operand matches .null | .number | .text)
  | minus | times | divide | power | remainder => (operand matches .null | .number)
  | concat                                     => (operand matches .null | .text)
  | equal | notEqual                           => true
  | less | greater | lessEqual | greaterEqual  => (operand matches .null | .number) || oneNull
  | and | or                                   => (operand matches .null | .boolean)

/-- The type of `left op right`, or the operand type that the operator does not take. -/
def resultType (op : Operator) (left right : DataType) : Except DataType DataType :=
  let operand := left.unify right
  if left.compatible right && op.takes operand (left.isNull || right.isNull) then
    .ok (if op.isComparison || op.isLogical then .boolean
         else if op == concat then .text
         else operand)
  else .error operand

theorem isMultiplicative_iff (op : Operator) : op.isMultiplicative = true ↔ op.tier = .product := by
  cases op <;> simp [isMultiplicative, tier]

theorem ofSymbol?_symbol (op : Operator) : ofSymbol? op.symbol = some op := by
  cases op <;> rfl

end Operator

end SqlEngine
