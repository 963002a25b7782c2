import SqlEngine.Text.Case

/-!
# Data types

The kinds of values.  `null` is the kind of NULL and also the type of an expression that is not yet
known; it goes with every other type.
-/

namespace SqlEngine

inductive DataType
  | null | number | text | boolean | date
deriving DecidableEq, Repr, Inhabited

namespace DataType

/-- The name of a type. -/
def name : DataType → String
  | null    => "NULL"
  | number  => "NUMBER"
  | text    => "TEXT"
  | boolean => "BOOLEAN"
  | date    => "DATE"

/-- The type a column declaration names, in any case of letters. -/
def ofName? (s : String) : Option DataType :=
  match Text.upper s with
  | "TEXT"                         => some text
  | "INT" | "INTEGER" | "NUMBER"   => some number
  | "DATE" | "DATETIME"            => some date
  | "BOOL" | "BOOLEAN"             => some boolean
  | _                              => none

def isNull (t : DataType) : Bool :=
  t == null

/-- Two types go together when they are equal or one is unknown. -/
def compatible (a b : DataType) : Bool :=
  a == b || a.isNull || b.isNull

/-- The known one of two types, the left one first. -/
def unify (a b : DataType) : DataType :=
  if a.isNull then b else a

theorem compatible_comm (a b : DataType) : a.compatible b = b.compatible a := by
  cases a <;> cases b <;> rfl

end DataType

end SqlEngine
