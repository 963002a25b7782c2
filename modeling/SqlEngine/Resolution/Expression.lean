import SqlEngine.Formula
import SqlEngine.Resolution.Placement
import SqlEngine.Resolution.Scope

/-!
# Resolution — expressions and SELECT

Fills in what the names of an expression mean: bindings, overloads and types.  An expression is
resolved under the scopes around it, the innermost first.  A sub-select in FROM sees the scopes
around its statement only, and the condition of a join the sources up to its own.
-/

namespace SqlEngine

/-- The type of a sub-select as a value. -/
def Select.valueType (s : Select) : DataType :=
  (s.output.head?.map Expr.type).getD .null

/-- The node as a part of a formula of types. -/
def Node.typed : Node → Item DataType
  | .operator op => .operator op
  | .openParen   => .openParen
  | .closeParen  => .closeParen
  | .number _    => .value .number
  | .text _      => .value .text
  | .boolean _   => .value .boolean
  | .null        => .value .null
  | .column r    => .value r.type
  | .call c      => .value c.type
  | .select s    => .value s.valueType

/-- A call with resolved arguments gets the overload that their types choose. -/
def Call.choose (id : Nat) (f : Function) (aggregates : Bool) (c : Call) : Except Error Call :=
  let types := c.arguments.map Expr.type
  match f.variantFor? types with
  | none   => .error (.noOverload c.function types)
  | some i =>
    match f.variants[i]? with
    | none   => .error (.noOverload c.function types)
    | some v =>
      if v.isAggregate && !aggregates then .error (.aggregateMisuse (.notAllowed c.function))
      else .ok { c with target := some ⟨id, i⟩, type := v.result, isAggregate := v.isAggregate }

/-- A bare name that is no column is the call of a function that takes no arguments. -/
def ColumnRef.asCall (c : Catalog) (aggregates : Bool) (r : ColumnRef) : Except Error Call :=
  let unknown : Error := .unresolved r.text r.offset
  if r.qualifier.isSome then .error unknown else
  match c.findFunction? r.column with
  | none         => .error unknown
  | some (id, f) =>
    if f.variants.any fun v => v.arguments.isEmpty then
      Call.choose id f aggregates ⟨Text.upper r.column, [], none, .null, false, r.offset⟩
    else .error unknown

/-- The node that a reference becomes. -/
def ColumnRef.resolve (c : Catalog) (scopes : List Scope) (aggregates : Bool) (r : ColumnRef) :
    Except Error Node := do
  if r.isWildcard then throw (.parse .wildcardInside r.text r.offset)
  match ← Scope.bindIn? r 0 scopes with
  | some bound => .ok (.column bound)
  | none       => (r.asCall c aggregates).map .call

/-- A clause asks for a truth value. -/
def Expr.requireBoolean (clause : Keyword) (e : Expr) : Except Error Unit :=
  if e.isBoolean || e.type.isNull then .ok ()
  else .error (.parse (.notBoolean clause) e.source e.offset)

/-- A condition of a join asks for a truth value. -/
def Expr.requireCondition (e : Expr) : Except Error Unit :=
  if e.isBoolean || e.type.isNull then .ok ()
  else .error (.invalidJoin (.notBoolean e.source))

/-- A sub-select as a value has one column. -/
def Select.requireOneColumn (s : Select) : Except Error Unit :=
  if s.output.length == 1 then .ok () else .error (.parse .subSelectWidth s.text s.offset)

/-- The output that a sort key names by its alias. -/
def OrderKey.namedOutput? (output : List Expr) (key : Expr) : Option Expr := do
  let r ← key.column?
  if r.qualifier.isSome then none else
  let e ← output.find? fun e => e.aliasName.any (Text.sameName · r.column)
  some { e with aliasName := none }

mutual

def Expr.resolve (c : Catalog) (scopes : List Scope) (aggregates : Bool) :
    Expr → Except Error Expr
  | ⟨nodes, _, _, _, source, aliasName, offset⟩ => do
    let nodes ← Node.resolveAll c scopes aggregates nodes
    let type ← Formula.typeOf (nodes.map Node.typed)
    let hasAggregate := (Node.callsOf nodes).any Call.isAggregate
    .ok ⟨nodes, type, type == .boolean, hasAggregate, source, aliasName, offset⟩

def Node.resolve (c : Catalog) (scopes : List Scope) (aggregates : Bool) :
    Node → Except Error Node
  | .column r => r.resolve c scopes aggregates
  | .call f   => do .ok (.call (← f.resolve c scopes aggregates))
  | .select s => do
    let s ← s.resolve c scopes
    s.requireOneColumn
    .ok (.select s)
  | node      => .ok node

def Node.resolveAll (c : Catalog) (scopes : List Scope) (aggregates : Bool) :
    List Node → Except Error (List Node)
  | []      => .ok []
  | n :: ns => do
    let n ← n.resolve c scopes aggregates
    .ok (n :: (← Node.resolveAll c scopes aggregates ns))

/-- Aggregates do not nest: the arguments of a function with aggregate overloads have none. -/
def Call.resolve (c : Catalog) (scopes : List Scope) (aggregates : Bool) :
    Call → Except Error Call
  | ⟨function, arguments, target, type, isAggregate, offset⟩ =>
    match c.findFunction? function with
    | none         => .error (.unresolved function offset)
    | some (id, f) => do
      let arguments ← Expr.resolveAll c scopes (aggregates && !f.hasAggregate) arguments
      Call.choose id f aggregates ⟨function, arguments, target, type, isAggregate, offset⟩

def Expr.resolveAll (c : Catalog) (scopes : List Scope) (aggregates : Bool) :
    List Expr → Except Error (List Expr)
  | []      => .ok []
  | e :: es => do
    let e ← e.resolve c scopes aggregates
    .ok (e :: (← Expr.resolveAll c scopes aggregates es))

/-- Output lists keep their wildcards for now. -/
def Expr.resolveOutputs (c : Catalog) (scopes : List Scope) : List Expr → Except Error (List Expr)
  | []      => .ok []
  | e :: es => do
    let e ← if e.isWildcard then .ok e else e.resolve c scopes true
    .ok (e :: (← Expr.resolveOutputs c scopes es))

def Expr.resolveFilter (c : Catalog) (scopes : List Scope) :
    Option Expr → Except Error (Option Expr)
  | none   => .ok none
  | some e => do
    let e ← e.resolve c scopes false
    e.requireBoolean .whereWord
    .ok (some e)

def Source.resolve (c : Catalog) (scopes : List Scope) : Source → Except Error Source
  | .table name aliasName _ offset =>
    match c.findTable? name with
    | some (id, _) => .ok (.table name aliasName (some id) offset)
    | none         => .error (.unresolved name offset)
  | .select s aliasName offset => do
    .ok (.select (← s.resolve c scopes) aliasName offset)

def Source.resolveOption (c : Catalog) (scopes : List Scope) :
    Option Source → Except Error (Option Source)
  | none   => .ok none
  | some s => do .ok (some (← s.resolve c scopes))

/-- The joined sources, with the conditions as they were. -/
def Join.resolveSources (c : Catalog) (scopes : List Scope) : List Join → Except Error (List Join)
  | []                             => .ok []
  | ⟨source, kind, condition⟩ :: js => do
    let source ← source.resolve c scopes
    .ok (⟨source, kind, condition⟩ :: (← Join.resolveSources c scopes js))

/-- The conditions, each one seeing the given number of sources, and the next one more. -/
def Join.resolveConditions (c : Catalog) (scope : Scope) (outer : List Scope) (visible : Nat) :
    List Join → Except Error (List Expr)
  | []                            => .ok []
  | ⟨_, _, none⟩ :: _             => .error (.internal .noJoinCondition)
  | ⟨_, _, some condition⟩ :: js  => do
    let e ← condition.resolve c (scope.take visible :: outer) false
    e.requireCondition
    .ok (e :: (← Join.resolveConditions c scope outer (visible + 1) js))

def OrderKey.resolveAll (c : Catalog) (scopes : List Scope) (output : List Expr) :
    List OrderKey → Except Error (List OrderKey)
  | []                   => .ok []
  | ⟨e, ascending⟩ :: ks => do
    let e ← match OrderKey.namedOutput? output e with
      | some named => .ok named
      | none       => e.resolve c scopes true
    .ok (⟨e, ascending⟩ :: (← OrderKey.resolveAll c scopes output ks))

def Select.resolve (c : Catalog) (outer : List Scope) : Select → Except Error Select
  | ⟨text, distinct, output, origin, joins, filter, groupBy, orderBy, limit, offset⟩ => do
    let origin ← Source.resolveOption c outer origin
    let joined ← Join.resolveSources c outer joins
    let named : Select :=
      ⟨text, distinct, output, origin, joined, filter, groupBy, orderBy, limit, offset⟩
    if let some fault := named.joinFault? then throw (.invalidJoin fault)
    let scope : Scope := named.sources.map (Source.scopeSource c)
    let conditions ← Join.resolveConditions c scope outer 2 joins
    let output ← Expr.resolveOutputs c (scope :: outer) output
    let filter ← Expr.resolveFilter c (scope :: outer) filter
    let groupBy ← Expr.resolveAll c (scope :: outer) false groupBy
    let orderBy ← OrderKey.resolveAll c (scope :: outer) output orderBy
    let joins := joined.zipWith (fun j e => { j with condition := some e }) conditions
    let s : Select :=
      ⟨text, distinct, output, origin, joins, filter, groupBy, orderBy, limit, offset⟩
    if let some fault := s.groupFault? then throw (.aggregateMisuse fault)
    .ok { s with output := ← scope.expandAll output }

end

end SqlEngine
