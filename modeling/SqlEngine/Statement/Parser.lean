import SqlEngine.Statement.Expression

/-!
# Statements — parser

`Statement.parse` reads a text as one statement, and `Expr.parse` reads an expression at the front
of a text.
-/

namespace SqlEngine

namespace Read

/-- Values in parentheses. -/
def valueRow (o : ParserOptions) (ts : Tokens) : Parsed (List Expr) ts := do
  let ⟨inside, hInside⟩ ← expectMark .openParen ts
  let (row, ⟨afterRow, hRow⟩) ← expressions o 0 inside
  let rest ← expectMark .closeParen afterRow
  .ok (row, (rest.since hRow).since hInside)

/-- An assignment of UPDATE. -/
def assignment (o : ParserOptions) (ts : Tokens) : Parsed Assignment ts := do
  let (column, ⟨afterName, hName⟩) ← expectName ts
  let ⟨afterSign, hSign⟩ ← expectMark .equal afterName
  let (value, rest) ← expression o 0 false afterSign
  .ok (⟨column, 0, value, ts.start⟩, (rest.since hSign).since hName)

/-- The type of a column. -/
def columnType (ts : Tokens) : Parsed DataType ts := do
  let type? := match ts.current with
    | .keyword word => DataType.ofName? word.text
    | .name text _  => DataType.ofName? text
    | _             => none
  match type?, ← takeIf (fun _ => type?.isSome) ts with
  | some type, some rest => .ok (type, rest)
  | _,         _         => .error (ts.fault .expectedType)

/-- A column of CREATE TABLE. -/
def columnClause (ts : Tokens) : Parsed ColumnClause ts := do
  let (name, ⟨afterName, hName⟩) ← expectName ts
  let (type, rest) ← columnType afterName
  .ok (⟨name, type, ts.start⟩, rest.since hName)

/-- `INSERT INTO t [(c, …)] VALUES (v, …), …` -/
def insert (o : ParserOptions) (ts : Tokens) : Except Error (Insert × Tokens) := do
  let afterInsert ← expectKeyword .insert ts
  let afterInto ← expectKeyword .into afterInsert
  let (table, afterTable) ← expectName afterInto
  let (columns, afterColumns) ← show Except Error (List String × Tokens) from do
    match ← takeIf (· == .mark .openParen) afterTable with
    | none        => .ok ([], afterTable)
    | some inside => do
      let (list, afterList) ← separated expectName inside
      .ok (list, (← expectMark .closeParen afterList).1)
  let afterWord ← expectKeyword .values afterColumns
  let (rows, rest) ← separated (valueRow o) afterWord
  .ok (⟨ts.textUntil rest, table, none, columns, [], rows, ts.start⟩, rest)

/-- `UPDATE t SET c = v, … [WHERE e]` -/
def update (o : ParserOptions) (ts : Tokens) : Except Error (Update × Tokens) := do
  let afterUpdate ← expectKeyword .update ts
  let (table, afterTable) ← expectName afterUpdate
  let afterSet ← expectKeyword .set afterTable
  let (list, afterList) ← separated (assignment o) afterSet
  let (filter, rest) ← clause o 0 .whereWord afterList
  .ok (⟨ts.textUntil rest, table, none, list, filter, ts.start⟩, rest)

/-- `DELETE FROM t [WHERE e]` -/
def delete (o : ParserOptions) (ts : Tokens) : Except Error (Delete × Tokens) := do
  let afterDelete ← expectKeyword .delete ts
  let afterFrom ← expectKeyword .fromWord afterDelete
  let (table, afterTable) ← expectName afterFrom
  let (filter, rest) ← clause o 0 .whereWord afterTable
  .ok (⟨ts.textUntil rest, table, none, filter, ts.start⟩, rest)

/-- `CREATE TABLE t (c type, …)` -/
def create (ts : Tokens) : Except Error (Create × Tokens) := do
  let afterCreate ← expectKeyword .create ts
  let afterWord ← expectKeyword .table afterCreate
  let (table, afterTable) ← expectName afterWord
  let inside ← expectMark .openParen afterTable
  let (columns, afterColumns) ← separated columnClause inside
  let rest ← expectMark .closeParen afterColumns
  .ok (⟨ts.textUntil rest, table, columns, ts.start⟩, rest)

/-- Any statement, by its first word. -/
def statement (o : ParserOptions) (ts : Tokens) : Except Error (Statement × Tokens) :=
  match ts.current with
  | .keyword .select => do
    let (s, rest) ← select o 0 ts
    .ok (.select s, rest)
  | .keyword .insert => (insert o ts).map fun p => (.insert p.1, p.2)
  | .keyword .update => (update o ts).map fun p => (.update p.1, p.2)
  | .keyword .delete => (delete o ts).map fun p => (.delete p.1, p.2)
  | .keyword .create => (create ts).map fun p => (.create p.1, p.2)
  | _                => .error (ts.fault .expectedStatement)

end Read

/-- Reads a text as one statement, which a semicolon may end. -/
def Statement.parse (o : ParserOptions) (text : String) : Except Error Statement := do
  let ts := Tokens.ofText text
  ts.check
  let (s, rest) ← Read.statement o ts
  let rest ← match ← Read.takeIf (· == .semicolon) rest with
    | some after => .ok after.1
    | none       => .ok rest
  if rest.current == .finish then .ok s else .error (rest.fault .expectedEnd)

/-- Reads an expression at the front of a text; what follows it is left. -/
def Expr.parse (o : ParserOptions) (wildcard : Bool) (text : String) : Except Error Expr := do
  let ts := Tokens.ofText text
  ts.check
  let (e, _) ← Read.expression o 0 wildcard ts
  .ok e

end SqlEngine
