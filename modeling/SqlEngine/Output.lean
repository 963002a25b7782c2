import SqlEngine.Program.Machine

/-!
# Output

The result of a statement: the rows of a SELECT under named columns, or the number of rows that a
change came to.
-/

namespace SqlEngine

structure Output where
  columns : Columns
  rows : List OutputRow
  affected : Nat

namespace Output

/-- The result of a statement without rows. -/
def ofAffected (n : Nat) : Output :=
  ⟨[], [], n⟩

/-- The value in a row and a column. -/
def value? (o : Output) (row column : Nat) : Option Value :=
  o.rows[row]?.bind fun r => r.values[column]?

/-- The values of a column from the first row to the last. -/
def columnValues (o : Output) (column : Nat) : List Value :=
  o.rows.map fun r => Row.read r.values column

/-- A line of texts with tabs between them. -/
def line (items : List String) : String :=
  "\t".intercalate items ++ "\n"

/-- The result as a table: the names of the columns, and then the rows. -/
def display (o : Output) : String :=
  line (o.columns.map Column.name) ++
    String.join (o.rows.map fun r => line (r.values.map Value.display))

end Output

end SqlEngine
