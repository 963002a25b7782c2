import SqlEngine.Resolution.Expression
import SqlEngine.Statement.Parser

/-!
# Resolution — statements

`Statement.resolve` resolves any statement, and `Statement.prepare` reads it from a text first.
-/

namespace SqlEngine

/-- The value may go into a column of the type. -/
def Expr.requireType (type : DataType) (e : Expr) : Except Error Unit :=
  if type.compatible e.type then .ok () else .error (.typeMismatch .equal type e.type)

namespace Table

/-- The table as the sources of a statement that changes it. -/
def scope (t : Table) : Scope :=
  [⟨t.name, some t.name, t.columns⟩]

/-- The column of the table at a position, as a type. -/
def typeAt (t : Table) (position : Nat) : DataType :=
  (t.columns[position]?.map Column.type).getD .null

/-- The position of a column that a statement names. -/
def expectColumn (t : Table) (column : String) (offset : Nat) : Except Error Nat :=
  match t.columns.index? column with
  | some i => .ok i
  | none   => .error (.unresolved (t.name ++ "." ++ column) offset)

end Table

namespace Catalog

/-- The table that a statement changes. -/
def expectNamed (c : Catalog) (name : String) (offset : Nat) : Except Error (Nat × Table) :=
  match c.findTable? name with
  | some found => .ok found
  | none       => .error (.unresolved name offset)

end Catalog

namespace Insert

/-- The positions of the columns, which have to differ; `seen` are the positions before. -/
def positionsOf (t : Table) (offset : Nat) (seen : List Nat) :
    List String → Except Error (List Nat)
  | []              => .ok seen
  | column :: names => do
    let i ← t.expectColumn column offset
    if seen.contains i then .error (.duplicateColumn t.name column)
    else positionsOf t offset (seen ++ [i]) names

/-- The values of a row, each for the column at its position. -/
def resolveRow (c : Catalog) (t : Table) : List Nat → List Expr → Except Error (List Expr)
  | i :: positions, e :: es => do
    let e ← e.resolve c [[]] false
    e.requireType (t.typeAt i)
    .ok (e :: (← resolveRow c t positions es))
  | _,              _       => .ok []

/-- A row has a value for every position. -/
def requireWidth (s : Insert) (row : List Expr) : Except Error Unit :=
  if row.length == s.positions.length then .ok ()
  else .error (.parse (.valueCount s.positions.length row.length) s.table
    ((row.head?.map Expr.offset).getD s.offset))

/-- Values see no columns. -/
def resolve (c : Catalog) (s : Insert) : Except Error Insert := do
  let (id, t) ← c.expectNamed s.table s.offset
  let positions ← if s.columns.isEmpty then .ok (List.range t.columns.length)
    else positionsOf t s.offset [] s.columns
  let s := { s with id := some id, positions }
  let rows ← s.rows.mapM fun row => do
    s.requireWidth row
    resolveRow c t positions row
  .ok { s with rows }

end Insert

/-- The assignment to a column of the table. -/
def Assignment.resolve (c : Catalog) (t : Table) (a : Assignment) : Except Error Assignment := do
  let position ← t.expectColumn a.column a.offset
  let value ← a.value.resolve c [t.scope] false
  value.requireType (t.typeAt position)
  .ok { a with position, value }

def Update.resolve (c : Catalog) (s : Update) : Except Error Update := do
  let (id, t) ← c.expectNamed s.table s.offset
  let assignments ← s.assignments.mapM (Assignment.resolve c t)
  let filter ← Expr.resolveFilter c [t.scope] s.filter
  .ok { s with id := some id, assignments, filter }

def Delete.resolve (c : Catalog) (s : Delete) : Except Error Delete := do
  let (id, t) ← c.expectNamed s.table s.offset
  let filter ← Expr.resolveFilter c [t.scope] s.filter
  .ok { s with id := some id, filter }

def Create.resolve (c : Catalog) (s : Create) : Except Error Create := do
  c.checkNew s.table (s.columns.map ColumnClause.name)
  .ok s

namespace Statement

/-- The statement with the meaning of its names in a catalog. -/
def resolve (c : Catalog) : Statement → Except Error Statement
  | select s => do .ok (select (← s.resolve c []))
  | insert s => do .ok (insert (← s.resolve c))
  | update s => do .ok (update (← s.resolve c))
  | delete s => do .ok (delete (← s.resolve c))
  | create s => do .ok (create (← s.resolve c))

/-- Reads and resolves a statement. -/
def prepare (o : ParserOptions) (c : Catalog) (text : String) : Except Error Statement := do
  (← parse o text).resolve c

end Statement

end SqlEngine
