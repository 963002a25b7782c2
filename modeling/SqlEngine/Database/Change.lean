import SqlEngine.Plan.Compiler
import SqlEngine.Plan.Execution

/-!
# Database — changes

INSERT, UPDATE, DELETE and CREATE TABLE.  A statement first evaluates everything that it needs in
the catalog as it was, and changes the provider only then, one row after the other.  What the
provider has done up to an error stays done.
-/

namespace SqlEngine

/-- The result of a statement, and the catalog after it. -/
abbrev Outcome := Except Error Output × Catalog

/-- Makes changes one by one, up to the first that fails. -/
def Provider.changeAll {α : Type} (change : Provider → α → Except Error Provider) (p : Provider) :
    List α → Except Error Unit × Provider
  | []      => (.ok (), p)
  | a :: as =>
    match change p a with
    | .ok next => next.changeAll change as
    | .error e => (.error e, p)

/-- The column at a position. -/
def Table.expectColumnAt (t : Table) (position : Nat) : Except Error Column :=
  match t.columns[position]? with
  | some column => .ok column
  | none        => .error (.internal (.noColumn position t.name))

/-- A value may be stored in a column whose type it fits. -/
def Column.requireFit (column : Column) (v : Value) : Except Error Unit :=
  if v.fits column.type then .ok () else .error (.typeMismatch .equal column.type v.kind)

namespace Catalog

/-- The table that a resolved statement changes, with its id. -/
def expectTarget (c : Catalog) (id : Option Nat) (name : String) : Except Error (Nat × Table) :=
  match id with
  | none    => .error (.internal (.unresolvedTarget name))
  | some id => do .ok (id, ← c.expectTable id)

/-- The provider of a table with the given name. -/
def expectProvider (c : Catalog) (id : Nat) (name : String) : Except Error Provider :=
  match c.provider? id with
  | some p => .ok p
  | none   => .error (.notSupported (.noProvider name))

/-- The catalog after changes to the rows of a table. -/
def changeRows {α : Type} (c : Catalog) (id : Nat) (p : Provider)
    (change : Provider → α → Except Error Provider) (changes : List α) : Outcome :=
  let (result, p) := p.changeAll change changes
  (result.map fun _ => .ofAffected changes.length, c.setProvider id p)

/-- The outcome of a statement that is prepared first. -/
def outcome {α : Type} (c : Catalog) (prepared : Except Error α) (run : α → Outcome) : Outcome :=
  match prepared with
  | .ok a    => run a
  | .error e => (.error e, c)

end Catalog

/-- The value of an expression for a column. -/
def Column.evaluate (column : Column) (p : Program Query) (env : Env) : Except Error Value := do
  let v ← p.value env
  column.requireFit v
  .ok v

/-! ### INSERT -/

namespace Insert

/-- The values of a row with their positions; the expressions see no rows. -/
def rowChange (c : Catalog) (now : Date.Instant) (t : Table) :
    List Expr → List Nat → Except Error Change
  | e :: es, i :: positions => do
    let p ← e.program c
    let v ← (p.withQueries c now).value ((Setting.mk c [] [] now).env [] 0 beforeFirst)
    let column ← t.expectColumnAt i
    column.requireFit v
    .ok ((i, v) :: (← rowChange c now t es positions))
  | _,       _              => .ok []

/-- The provider of the table, its id and the rows to add. -/
def prepareRows (c : Catalog) (now : Date.Instant) (s : Insert) :
    Except Error (Nat × Provider × List Change) := do
  let (id, t) ← c.expectTarget s.id s.table
  let rows ← s.rows.mapM fun row => rowChange c now t row s.positions
  .ok (id, ← c.expectProvider id s.table, rows)

def execute (c : Catalog) (now : Date.Instant) (s : Insert) : Outcome :=
  c.outcome (s.prepareRows c now) fun (id, p, rows) =>
    c.changeRows id p (fun p change => (p.insert change).map Prod.snd) rows

end Insert

/-! ### UPDATE and DELETE -/

namespace Table

/-- The rows of a table, and those of them that a WHERE clause keeps. -/
def matchingRows (c : Catalog) (now : Date.Instant) (id : Nat) (t : Table) (filter : Option Expr) :
    Except Error (Setting × List Combination) := do
  let p ← c.expectProvider id t.name
  let here : Setting := ⟨c, [], [p], now⟩
  let filter ← Expr.programOption c filter
  let kept ← keep here (Program.queriesOption c now filter) (← combine here [])
  .ok (here, kept)

end Table

namespace Update

/-- The column of an assignment and the program for its value. -/
def assignment (c : Catalog) (now : Date.Instant) (t : Table) (a : Assignment) :
    Except Error (Nat × Column × Program Query) := do
  let column ← t.expectColumnAt a.position
  let p ← a.value.program c
  .ok (a.position, column, p.withQueries c now)

/-- The new values of a row. -/
def rowChange (here : Setting) (assignments : List (Nat × Column × Program Query))
    (row : Combination) : Except Error (RowId × Change) := do
  let env ← here.envAt row
  let change ← assignments.mapM fun (i, column, p) => do .ok (i, ← column.evaluate p env)
  .ok (primaryId env.positions, change)

/-- The provider of the table, its id and the rows to change. -/
def prepareRows (c : Catalog) (now : Date.Instant) (s : Update) :
    Except Error (Nat × Provider × List (RowId × Change)) := do
  let (id, t) ← c.expectTarget s.id s.table
  let assignments ← s.assignments.mapM (assignment c now t)
  let (here, kept) ← t.matchingRows c now id s.filter
  let changes ← kept.mapM (rowChange here assignments)
  .ok (id, ← c.expectProvider id s.table, changes)

def execute (c : Catalog) (now : Date.Instant) (s : Update) : Outcome :=
  c.outcome (s.prepareRows c now) fun (id, p, changes) =>
    c.changeRows id p (fun p r => p.update r.1 r.2) changes

end Update

namespace Delete

/-- The provider of the table, its id and the rows to remove. -/
def prepareRows (c : Catalog) (now : Date.Instant) (s : Delete) :
    Except Error (Nat × Provider × List RowId) := do
  let (id, t) ← c.expectTarget s.id s.table
  let (_, kept) ← t.matchingRows c now id s.filter
  .ok (id, ← c.expectProvider id s.table, kept.filterMap fun row => row.head?.join)

def execute (c : Catalog) (now : Date.Instant) (s : Delete) : Outcome :=
  c.outcome (s.prepareRows c now) fun (id, p, ids) =>
    c.changeRows id p (fun p row => (p.delete row).map Prod.snd) ids

end Delete

/-! ### CREATE TABLE -/

def Create.execute (c : Catalog) (s : Create) : Outcome :=
  let columns : Columns := s.columns.map fun column => ⟨column.name, column.type⟩
  c.outcome (c.createTable s.table columns (.memory .empty)) fun (_, c) => (.ok (.ofAffected 0), c)

end SqlEngine
