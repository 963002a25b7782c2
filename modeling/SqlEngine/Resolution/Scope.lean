import SqlEngine.Catalog
import SqlEngine.Statement.Basic

/-!
# Resolution — scopes

What the names of a clause can mean.  A scope holds the sources of one statement that the clause
sees, in the order of their declaration; the scopes of the statements around it follow, the
innermost first.  A reference is bound in the first scope that has a match, and two matches there are
an error.
-/

namespace SqlEngine

/-- A source as references see it: the name it goes by, the name of its table, and its columns. -/
structure ScopeSource where
  name : String
  table : Option String
  columns : Columns

/-- The resolved source as references see it. -/
def Source.scopeSource (c : Catalog) : Source → ScopeSource
  | .table name a id _ =>
    match id.bind (c.tables[·]?) with
    | some t => ⟨a.getD name, some t.name, t.columns⟩
    | none   => ⟨a.getD name, none, []⟩
  | .select s a _      => ⟨a.getD "", none, s.output.map fun e => ⟨e.name, e.type⟩⟩

abbrev Scope := List ScopeSource

namespace Scope

/-- The sources that a qualifier names: the one that goes by it, else all of the table it names. -/
def named (scope : Scope) (qualifier : String) : List Nat :=
  match scope.findIdx? fun s => Text.sameName s.name qualifier with
  | some i => [i]
  | none   =>
    (scope.zipIdx.filter fun p => p.1.table.any (Text.sameName · qualifier)).map Prod.snd

/-- The sources that a reference can be about. -/
def candidates (scope : Scope) (r : ColumnRef) : Except Error (List Nat) :=
  match r.qualifier with
  | none   => .ok (List.range scope.length)
  | some q =>
    if (scope.named q).length > 1 then .error (.ambiguous r.text r.offset) else .ok (scope.named q)

/-- The reference bound in the source at a position. -/
def bindAt? (scope : Scope) (r : ColumnRef) (i : Nat) : Option ColumnRef := do
  let source ← scope[i]?
  let j ← source.columns.index? r.column
  let column ← source.columns[j]?
  some { r.qualify source.name with type := column.type, binding := some ⟨i, j⟩ }

/-- The reference bound in the scope, if it has a match there. -/
def bind? (scope : Scope) (r : ColumnRef) : Except Error (Option ColumnRef) := do
  match (← scope.candidates r).filterMap (scope.bindAt? r) with
  | []      => .ok none
  | [bound] => .ok (some bound)
  | _       => .error (.ambiguous r.text r.offset)

/-- The reference bound in the first scope that has a match; `level` counts the scopes before. -/
def bindIn? (r : ColumnRef) (level : Nat) : List Scope → Except Error (Option ColumnRef)
  | []             => .ok none
  | scope :: outer => do
    match ← scope.bind? r with
    | some bound => .ok (some { bound with level := level })
    | none       => bindIn? r (level + 1) outer

/-- The columns of a source, each as an expression at a place of the text. -/
def columnsOf (source : ScopeSource) (i offset : Nat) : List Expr :=
  source.columns.zipIdx.map fun p => .ofColumn
    { qualifier := some source.name, column := p.1.name, type := p.1.type,
      binding := some ⟨i, p.2⟩, offset }

/-- The columns that a wildcard stands for. -/
def expand (scope : Scope) (r : ColumnRef) : Except Error (List Expr) := do
  match ← scope.candidates r with
  | []      => .error (.unresolved r.text r.offset)
  | sources => .ok (sources.flatMap fun i => (scope[i]?.map (columnsOf · i r.offset)).getD [])

/-- The output list with the columns in the place of the wildcards. -/
def expandAll (scope : Scope) : List Expr → Except Error (List Expr)
  | []      => .ok []
  | e :: es => do
    let columns ← match e.column? with
      | some r => if r.isWildcard then scope.expand r else .ok [e]
      | none   => .ok [e]
    .ok (columns ++ (← scope.expandAll es))

end Scope

end SqlEngine
