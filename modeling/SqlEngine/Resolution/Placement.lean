import SqlEngine.Statement.Equality

/-!
# Resolution — placement rules

What a SELECT may combine, beyond the meaning of its names.  Sources need different names, and a
table that comes twice needs an alias each time (`Select.joinFault?`).  Outputs and sort keys of an
aggregating SELECT read columns only through group keys and aggregate calls (`Select.groupFault?`).
-/

namespace SqlEngine

/-! ### Joins -/

namespace Source

/-- The source has an alias that is not empty. -/
def isAliased (s : Source) : Bool :=
  s.aliasName?.any fun a => !a.isEmpty

/-- The two sources are of one table and not both aliased. -/
def sharesTable (s other : Source) : Bool :=
  match s.table?, other.table? with
  | some a, some b => Text.sameName a b && !(s.isAliased && other.isAliased)
  | _,      _      => false

/-- What keeps a source from standing beside one before it. -/
def clash? (s before : Source) : Option JoinFault :=
  if s.sharesTable before then some (.repeatedTable (s.table?.getD ""))
  else if Text.sameName s.name before.name then some (.repeatedName s.name)
  else none

/-- The first clash in a list of sources, `seen` being the sources before. -/
def clashIn? (seen : List Source) : List Source → Option JoinFault
  | []      => none
  | s :: ss => (seen.findSome? s.clash?).or (clashIn? (seen ++ [s]) ss)

end Source

/-- The join lacks a condition. -/
def Join.isBare (j : Join) : Bool :=
  j.condition.all fun e => e.nodes.isEmpty

/-- What is wrong with the joins of a SELECT. -/
def Select.joinFault? (s : Select) : Option JoinFault :=
  (Source.clashIn? [] s.sources).or
    ((s.joins.find? Join.isBare).map fun j => .noCondition j.source.name)

/-! ### Grouping -/

/-- The first argument of an aggregate call that is a group key. -/
def Call.keyArgument? (keys : List Expr) (c : Call) : Option Expr :=
  if c.isAggregate then c.arguments.find? fun a => (a.indexIn? keys).isSome else none

mutual

/-- The first column of the statement itself that is read outside of aggregate calls and of group
keys. -/
def Expr.ungrouped? (keys : List Expr) : Expr → Option ColumnRef
  | e@⟨nodes, _, _, _, _, _, _⟩ =>
    if (e.indexIn? keys).isSome then none else Node.ungrouped? keys nodes

def Node.ungrouped? (keys : List Expr) : List Node → Option ColumnRef
  | []                => none
  | .column r :: rest =>
    if ((Node.column r).indexIn? keys).isNone && r.level == 0 then some r
    else Node.ungrouped? keys rest
  | .call c :: rest   =>
    (if ((Node.call c).indexIn? keys).isSome then none else Call.ungrouped? keys c).or
      (Node.ungrouped? keys rest)
  | _ :: rest         => Node.ungrouped? keys rest

def Call.ungrouped? (keys : List Expr) : Call → Option ColumnRef
  | ⟨_, arguments, _, _, isAggregate, _⟩ =>
    if isAggregate then none else Expr.ungroupedIn? keys arguments

def Expr.ungroupedIn? (keys : List Expr) : List Expr → Option ColumnRef
  | []      => none
  | e :: es => (e.ungrouped? keys).or (Expr.ungroupedIn? keys es)

end

/-- What is wrong with an output or a sort key of a SELECT with these group keys. -/
def Expr.groupFault? (keys : List Expr) (e : Expr) : Option AggregateFault :=
  if e.containsWildcard then some .groupedWildcard else
  (e.calls.findSome? (Call.keyArgument? keys)).map (fun a => .argumentIsKey a.source)
    |>.or ((e.ungrouped? keys).map fun r => .notGrouped r.text)

/-- What is wrong with an output or a sort key of a SELECT that aggregates without group keys. -/
def Expr.aggregateFault? (e : Expr) : Option AggregateFault :=
  if e.containsWildcard then some (.notAggregated e.source)
  else (e.ungrouped? []).map fun r => .notAggregated r.text

/-- What is wrong with the outputs and the sort keys of a SELECT. -/
def Select.groupFault? (s : Select) : Option AggregateFault :=
  let exprs := s.output ++ s.orderBy.map OrderKey.expr
  if !s.groupBy.isEmpty then exprs.findSome? (Expr.groupFault? s.groupBy)
  else if s.isAggregate then exprs.findSome? Expr.aggregateFault?
  else none

end SqlEngine
