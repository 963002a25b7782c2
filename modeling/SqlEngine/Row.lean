import SqlEngine.Value

/-!
# Rows

A row is the list of a table's values in the order of its columns.
-/

namespace SqlEngine

abbrev Row := List Value

namespace Row

/-- A row of NULLs. -/
def blank (width : Nat) : Row :=
  List.replicate width .null

/-- Replaces the value at a position the row has. -/
def put (row : Row) (i : Nat) (v : Value) : Except Error Row :=
  if i < row.length then .ok (row.set i v) else .error (.internal (.rowWidth i row.length))

/-- The value at a position; NULL beyond the end. -/
def read (row : Row) (i : Nat) : Value :=
  row[i]?.getD .null

/-- Every value of the row is NULL. -/
def isBlank (row : Row) : Bool :=
  row.all Value.isNull

/-- The text of a row. -/
def display (row : Row) : String :=
  "(" ++ ", ".intercalate (row.map Value.display) ++ ")"

end Row

end SqlEngine
