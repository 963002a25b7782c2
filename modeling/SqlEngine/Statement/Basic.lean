import SqlEngine.Function.Overload

/-!
# Statements

Statements and expressions.  An expression is the sequence of its nodes from left to right, with
parentheses as nodes of their own; how the operators group is decided by the linearizer.  Parsing
fills in what the text says, and resolving what it means in a catalog: the binding of each column,
the overload of each call, and the types.
-/

namespace SqlEngine

/-- Where the values of a column are found: the source among those of its statement, and the column
among those of the source. -/
structure Binding where
  source : Nat
  column : Nat
deriving DecidableEq, Repr

/-- The name of a column, with or without the name of a source before it.  `level` says how many
statements further out the column was found. -/
structure ColumnRef where
  qualifier : Option String
  column : String
  type : DataType := .null
  level : Nat := 0
  binding : Option Binding := none
  offset : Nat

namespace ColumnRef

/-- The reference as it is written in messages. -/
def text (r : ColumnRef) : String :=
  match r.qualifier with
  | some q => if q.isEmpty then r.column else q ++ "." ++ r.column
  | none   => r.column

/-- The column name `*` stands for all columns, also where it was quoted. -/
def isWildcard (r : ColumnRef) : Bool :=
  r.column == "*"

/-- Names the source. -/
def qualify (r : ColumnRef) (source : String) : ColumnRef :=
  { r with qualifier := some source }

end ColumnRef

/-- How a join treats rows without a partner. -/
inductive JoinKind
  | inner | left | right | full
deriving DecidableEq, Repr

namespace JoinKind

/-- Left rows without a partner are kept. -/
def keepsLeft : JoinKind → Bool
  | left | full => true
  | _           => false

/-- Right rows without a partner are kept. -/
def keepsRight : JoinKind → Bool
  | right | full => true
  | _            => false

end JoinKind

mutual

/-- An expression; `source` is its text, and `aliasName` its name in an output list. -/
structure Expr where
  nodes : List Node
  type : DataType
  isBoolean : Bool
  hasAggregate : Bool
  source : String
  aliasName : Option String
  offset : Nat

/-- A node of an expression. -/
inductive Node
  | operator (op : Operator)
  | openParen
  | closeParen
  | number (x : Float)
  | text (s : String)
  | boolean (b : Bool)
  | null
  | column (reference : ColumnRef)
  | call (call : Call)
  | select (select : Select)

/-- A function call; `target` is the overload chosen for it. -/
structure Call where
  function : String
  arguments : List Expr
  target : Option Overload
  type : DataType
  isAggregate : Bool
  offset : Nat

/-- A table or a parenthesized SELECT that rows come from. -/
inductive Source
  | table (name : String) (aliasName : Option String) (id : Option Nat) (offset : Nat)
  | select (select : Select) (aliasName : Option String) (offset : Nat)

/-- A source joined to those before it. -/
structure Join where
  source : Source
  kind : JoinKind
  condition : Option Expr

/-- A key of ORDER BY. -/
structure OrderKey where
  expr : Expr
  ascending : Bool

structure Select where
  text : String
  distinct : Bool
  output : List Expr
  origin : Option Source
  joins : List Join
  filter : Option Expr
  groupBy : List Expr
  orderBy : List OrderKey
  limit : Option Nat
  offset : Nat

end

structure Insert where
  text : String
  table : String
  id : Option Nat
  columns : List String
  positions : List Nat
  rows : List (List Expr)
  offset : Nat

/-- `column = value` in UPDATE. -/
structure Assignment where
  column : String
  position : Nat
  value : Expr
  offset : Nat

structure Update where
  text : String
  table : String
  id : Option Nat
  assignments : List Assignment
  filter : Option Expr
  offset : Nat

structure Delete where
  text : String
  table : String
  id : Option Nat
  filter : Option Expr
  offset : Nat

/-- A column of CREATE TABLE. -/
structure ColumnClause where
  name : String
  type : DataType
  offset : Nat

structure Create where
  text : String
  table : String
  columns : List ColumnClause
  offset : Nat

inductive Statement
  | select (s : Select)
  | insert (s : Insert)
  | update (s : Update)
  | delete (s : Delete)
  | create (s : Create)

/-! ### Expressions -/

namespace Node

/-- The node is a value of its own. -/
def isValue : Node → Bool
  | operator _ | openParen | closeParen => false
  | _                                   => true

/-- The node is a wildcard. -/
def isWildcard : Node → Bool
  | column r => r.isWildcard
  | _        => false

end Node

namespace Expr

/-- An expression of unknown type. -/
def ofNodes (nodes : List Node) (source : String) (offset : Nat) : Expr :=
  ⟨nodes, .null, false, false, source, none, offset⟩

/-- The expression that is one column. -/
def ofColumn (r : ColumnRef) : Expr :=
  ⟨[.column r], r.type, r.type == .boolean, false, r.text, none, r.offset⟩

/-- The column, when the expression is nothing else. -/
def column? (e : Expr) : Option ColumnRef :=
  match e.nodes with
  | [.column r] => some r
  | _           => none

/-- The expression is a wildcard. -/
def isWildcard (e : Expr) : Bool :=
  e.column?.any ColumnRef.isWildcard

/-- A wildcard is among the nodes. -/
def containsWildcard (e : Expr) : Bool :=
  e.nodes.any Node.isWildcard

/-- The name of the expression as an output column. -/
def name (e : Expr) : String :=
  match e.aliasName, e.column? with
  | some a, _      => a
  | none,   some r => r.column
  | none,   none   => e.source

end Expr

mutual

/-- The calls of an expression, those in the arguments of a call after it; calls of sub-selects do
not count. -/
def Expr.calls : Expr → List Call
  | ⟨nodes, _, _, _, _, _, _⟩ => Node.callsOf nodes

def Node.callsOf : List Node → List Call
  | []                 => []
  | .call c :: nodes   => c :: (c.nested ++ Node.callsOf nodes)
  | _ :: nodes         => Node.callsOf nodes

/-- The calls in the arguments. -/
def Call.nested : Call → List Call
  | ⟨_, arguments, _, _, _, _⟩ => Expr.callsOf arguments

def Expr.callsOf : List Expr → List Call
  | []      => []
  | e :: es => e.calls ++ Expr.callsOf es

end

/-! ### Sources and statements -/

namespace Source

def aliasName? : Source → Option String
  | table _ a _ _ | select _ a _ => a

/-- The name references go by: the alias, else the table's name; a sub-select without alias has the
empty name. -/
def name : Source → String
  | table name a _ _ => a.getD name
  | select _ a _     => a.getD ""

/-- The name of the table. -/
def table? : Source → Option String
  | table name _ _ _ => some name
  | select ..        => none

def offset : Source → Nat
  | table _ _ _ offset | select _ _ offset => offset

end Source

namespace Select

/-- All sources in the order of their declaration. -/
def sources (s : Select) : List Source :=
  s.origin.toList ++ s.joins.map Join.source

/-- Rows are folded into groups. -/
def isAggregate (s : Select) : Bool :=
  !s.groupBy.isEmpty || s.output.any Expr.hasAggregate || s.orderBy.any fun k => k.expr.hasAggregate

end Select

namespace Statement

/-- The first word of a statement. -/
def kind : Statement → String
  | select _ => "SELECT"
  | insert _ => "INSERT"
  | update _ => "UPDATE"
  | delete _ => "DELETE"
  | create _ => "CREATE"

/-- The text of a statement. -/
def text : Statement → String
  | select s => s.text
  | insert s => s.text
  | update s => s.text
  | delete s => s.text
  | create s => s.text

/-- The WHERE expression. -/
def filter? : Statement → Option Expr
  | select s => s.filter
  | update s => s.filter
  | delete s => s.filter
  | _        => none

end Statement

end SqlEngine
