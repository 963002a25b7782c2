import SqlEngine.Formula
import SqlEngine.Plan.Basic
import SqlEngine.Statement.Equality

/-!
# Plans — compiler

`Select.compile` makes the plan of a resolved SELECT.  The code of an expression is the code of its
values and operators in the order of evaluation.  Where group keys are given, what is equal to a key
reads the key, and an aggregate call becomes a slot of the plan whose result is read in its place;
its arguments are programs of their own, in which group keys mean nothing.
-/

namespace SqlEngine

/-- What instructions refer to: the nested plans of their program, and the slots of their SELECT. -/
structure Parts where
  queries : List Plan
  slots : List (Slot Plan)

/-- Instructions, and all parts up to them. -/
structure Code where
  instrs : List Instr
  parts : Parts

namespace Code

/-- The code as a program. -/
def program (code : Code) : Program Plan :=
  ⟨code.instrs, code.parts.queries⟩

/-- The code followed by an instruction. -/
def andThen (code : Code) (i : Instr) : Code :=
  { code with instrs := code.instrs ++ [i] }

end Code

/-- The position of the first group key that is equal to the expression. -/
def Expr.keyIndex? (keys : Option (List Expr)) (e : Expr) : Option Nat :=
  keys.bind e.indexIn?

/-- The position of the first group key that consists of the node alone. -/
def Node.keyIndex? (keys : Option (List Expr)) (n : Node) : Option Nat :=
  keys.bind n.indexIn?

/-- The place that a column was bound to. -/
def ColumnRef.expectBinding (r : ColumnRef) : Except Error Binding :=
  match r.binding with
  | some b => .ok b
  | none   => .error (.internal (.unresolvedReference r.text))

/-- The instruction that reads a column. -/
def ColumnRef.instr (r : ColumnRef) : Except Error Instr := do
  let b ← r.expectBinding
  .ok (if r.level == 0 then .column b.source b.column else .outer r.level b.source b.column)

/-- The instruction that writes a column of the statement itself to the output row. -/
def ColumnRef.outInstr (r : ColumnRef) : Except Error Instr := do
  let b ← r.expectBinding
  .ok (.columnOut b.source b.column)

/-- The column of the statement itself that the expression consists of, unless it is a group key. -/
def Expr.ownColumn? (keys : Option (List Expr)) (e : Expr) : Option ColumnRef :=
  if (e.keyIndex? keys).isSome then none else e.column?.filter fun r => r.level == 0

/-- The code that writes an expression to the output row, given the code for its value. -/
def Expr.outputCode (keys : Option (List Expr)) (slots : List (Slot Plan)) (e : Expr)
    (value : Except Error Code) : Except Error Code :=
  match e.ownColumn? keys with
  | some r => r.outInstr.map fun i => ⟨[i], ⟨[], slots⟩⟩
  | none   => value.map fun code => code.andThen .out

/-- The code of a formula whose values have code. -/
def formulaCode (items : List (Item (List Instr))) : Except Error (List Instr) :=
  match Formula.linearize items with
  | .error fault => .error (.internal fault)
  | .ok steps    => .ok <| steps.flatMap fun
    | .value code  => code
    | .operator op => [.operator op]

mutual

/-- The code that leaves the value of the expression on the stack. -/
def Expr.emit (c : Catalog) (keys : Option (List Expr)) (parts : Parts) : Expr → Except Error Code
  | e@⟨nodes, _, _, _, _, _, _⟩ =>
    match e.keyIndex? keys with
    | some i => .ok ⟨[.groupKey i], parts⟩
    | none   => do
      let (items, parts) ← Node.emitAll c keys parts nodes
      .ok ⟨← formulaCode items, parts⟩

/-- The node as a part of a formula of code. -/
def Node.emit (c : Catalog) (keys : Option (List Expr)) (parts : Parts) :
    Node → Except Error (Item (List Instr) × Parts)
  | .operator op => .ok (.operator op, parts)
  | .openParen   => .ok (.openParen, parts)
  | .closeParen  => .ok (.closeParen, parts)
  | n            =>
    match n.keyIndex? keys with
    | some i => .ok (.value [.groupKey i], parts)
    | none   =>
      match n with
      | .number x  => .ok (.value [.number x], parts)
      | .text s    => .ok (.value [.text s], parts)
      | .boolean b => .ok (.value [.boolean b], parts)
      | .null      => .ok (.value [.null], parts)
      | .column r  => do .ok (.value [← r.instr], parts)
      | .call f    => do
        let code ← f.emit c keys parts
        .ok (.value code.instrs, code.parts)
      | .select s  => do
        let plan ← s.compile c
        .ok (.value [.select parts.queries.length],
          { parts with queries := parts.queries ++ [plan] })
      | _          => .error (.internal .notAnOperand)

def Node.emitAll (c : Catalog) (keys : Option (List Expr)) (parts : Parts) :
    List Node → Except Error (List (Item (List Instr)) × Parts)
  | []      => .ok ([], parts)
  | n :: ns => do
    let (item, parts) ← n.emit c keys parts
    let (items, parts) ← Node.emitAll c keys parts ns
    .ok (item :: items, parts)

def Call.emit (c : Catalog) (keys : Option (List Expr)) (parts : Parts) : Call → Except Error Code
  | ⟨function, _, none, _, _, _⟩                   => .error (.internal (.unresolvedCall function))
  | ⟨function, arguments, some target, _, true, _⟩ => do
    let programs ← Expr.programs c arguments
    if keys.isNone then throw (.internal (.strayAggregate function))
    .ok ⟨[.aggregate parts.slots.length],
      { parts with slots := parts.slots ++ [⟨target, programs⟩] }⟩
  | ⟨_, arguments, some target, _, false, _⟩       => do
    let code ← Expr.emitAll c keys parts arguments
    .ok (code.andThen (.call target arguments.length))

def Expr.emitAll (c : Catalog) (keys : Option (List Expr)) (parts : Parts) :
    List Expr → Except Error Code
  | []      => .ok ⟨[], parts⟩
  | e :: es => do
    let code ← e.emit c keys parts
    let more ← Expr.emitAll c keys code.parts es
    .ok ⟨code.instrs ++ more.instrs, more.parts⟩

/-- The programs for the values of expressions, where there are no group keys and no aggregates. -/
def Expr.programs (c : Catalog) : List Expr → Except Error (List (Program Plan))
  | []      => .ok []
  | e :: es => do
    let code ← e.emit c none ⟨[], []⟩
    .ok (code.program :: (← Expr.programs c es))

def Expr.programOption (c : Catalog) : Option Expr → Except Error (Option (Program Plan))
  | none   => .ok none
  | some e => do
    let code ← e.emit c none ⟨[], []⟩
    .ok (some code.program)

/-- The programs that write the values of expressions to the output row, and the slots with those
that they add. -/
def Expr.outputPrograms (c : Catalog) (keys : Option (List Expr)) (slots : List (Slot Plan)) :
    List Expr → Except Error (List (Program Plan) × List (Slot Plan))
  | []      => .ok ([], slots)
  | e :: es => do
    if e.containsWildcard then throw (.internal .strayWildcard)
    let code ← e.outputCode keys slots (e.emit c keys ⟨[], slots⟩)
    let (programs, slots) ← Expr.outputPrograms c keys code.parts.slots es
    .ok (code.program :: programs, slots)

/-- The programs for the values of sort keys, and the slots with those that they add. -/
def OrderKey.sortKeys (c : Catalog) (keys : Option (List Expr)) (slots : List (Slot Plan)) :
    List OrderKey → Except Error (List (SortKey Plan) × List (Slot Plan))
  | []                   => .ok ([], slots)
  | ⟨e, ascending⟩ :: ks => do
    let code ← e.emit c keys ⟨[], slots⟩
    let (sortKeys, slots) ← OrderKey.sortKeys c keys code.parts.slots ks
    .ok (⟨code.program, ascending⟩ :: sortKeys, slots)

def Source.supply (c : Catalog) : Source → Except Error (Supply Plan)
  | .table name _ id _ =>
    match id.bind fun id => (c.tables[id]?).map fun t => (id, t) with
    | some (id, t) => .ok (.table id t.columns.length)
    | none         => .error (.internal (.unresolvedSource name))
  | .select s _ _      => do
    let plan ← s.compile c
    .ok (.query plan plan.stages.columns.length)

def Source.supplies (c : Catalog) : Option Source → Except Error (List (Supply Plan))
  | none   => .ok []
  | some s => do .ok [← s.supply c]

def Join.supplies (c : Catalog) : List Join → Except Error (List (Supply Plan))
  | []                    => .ok []
  | ⟨source, _, _⟩ :: js => do
    let supply ← source.supply c
    .ok (supply :: (← Join.supplies c js))

def Join.steps (c : Catalog) : List Join → Except Error (List (JoinStep Plan))
  | []                         => .ok []
  | ⟨_, kind, condition⟩ :: js => do
    let condition ← Expr.programOption c condition
    .ok (⟨kind, condition⟩ :: (← Join.steps c js))

/-- The plan of a SELECT. -/
def Select.compile (c : Catalog) : Select → Except Error Plan
  | s@⟨_, distinct, output, origin, joins, filter, groupBy, orderBy, limit, _⟩ => do
    let first ← Source.supplies c origin
    let more ← Join.supplies c joins
    let steps ← Join.steps c joins
    let filter ← Expr.programOption c filter
    let groups ← Expr.programs c groupBy
    let keys := if s.isAggregate then some groupBy else none
    let (outputs, slots) ← Expr.outputPrograms c keys [] output
    let (order, slots) ← OrderKey.sortKeys c keys slots orderBy
    .ok <| .of
      { sources := first ++ more
        joins := steps
        filter := filter
        outputs := outputs
        columns := output.map fun e => ⟨e.name, e.type⟩
        groupBy := groups
        aggregates := slots
        orderBy := order
        distinct := distinct
        limit := limit
        aggregated := s.isAggregate }

end

/-- The program for the value of an expression without group keys and aggregates. -/
def Expr.program (c : Catalog) (e : Expr) : Except Error (Program Plan) :=
  (e.emit c none ⟨[], []⟩).map Code.program

end SqlEngine
