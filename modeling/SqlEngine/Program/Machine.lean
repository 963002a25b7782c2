import SqlEngine.Plan.Basic
import SqlEngine.Storage.Cursor

/-!
# Programs — the machine

The machine runs the instructions of a program in order.  It reads an environment and changes a
stack of values, the last one first, and the output row that is being written, if there is one.  A
failing instruction leaves the machine as it is at that point.

* `Program.evaluate` runs a program for the one value that it leaves on the stack.
* `Program.execute` runs a program for what it writes to the output row.
-/

namespace SqlEngine

/-- The current rows of a statement's sources, as a nested query sees them. -/
abbrev Frame := List (Option Row)

/-- The value of a column in a frame. -/
def Frame.read (f : Frame) (source column : Nat) : Value :=
  match f[source]? with
  | some (some row) => row.read column
  | _               => .null

/-- A row of a result; the id is that of the row it comes from. -/
structure OutputRow where
  id : RowId
  values : List Value

/-- A nested query gives its rows for the frames around it, the innermost first. -/
abbrev Query := List Frame → Except Error (List OutputRow)

/-- What the instructions read. -/
structure Env where
  catalog : Catalog
  positions : List Position
  outer : List Frame
  keys : List Value
  results : List Value
  rowNumber : Nat
  rowId : RowId
  now : Date.Instant

namespace Env

/-- The frame that nested queries see first. -/
def frame (env : Env) : Frame :=
  env.positions.map fun p => p.map Prod.snd

/-- The frame `level` statements further out, counted from 1. -/
def frame? (env : Env) (level : Nat) : Option Frame :=
  env.outer[level - 1]?

def callContext (env : Env) : CallContext :=
  ⟨env.rowNumber, env.rowId, env.now⟩

end Env

structure Machine where
  stack : List Value
  output : Option (List Value)

/-- An error, and the machine that it left. -/
structure Failure where
  error : Error
  machine : Machine

namespace Machine

def push (m : Machine) (v : Value) : Machine :=
  { m with stack := v :: m.stack }

def fail (m : Machine) (fault : InternalFault) : Except Failure Machine :=
  .error ⟨.internal fault, m⟩

/-- Pushes a value that may be missing. -/
def pushOr (m : Machine) (fault : InternalFault) : Option Value → Except Failure Machine
  | some v => .ok (m.push v)
  | none   => m.fail fault

/-- Pushes a result, unless it is an error. -/
def pushResult (m : Machine) : Except Error Value → Except Failure Machine
  | .ok v    => .ok (m.push v)
  | .error e => .error ⟨e, m⟩

/-- Adds a value to the output row. -/
def write (m : Machine) (v : Value) : Except Failure Machine :=
  match m.output with
  | some row => .ok { m with output := some (row ++ [v]) }
  | none     => m.fail .noOutputRow

/-- Takes the value on top of the stack. -/
def pop (m : Machine) : Except Failure (Value × Machine) :=
  match m.stack with
  | v :: rest => .ok (v, { m with stack := rest })
  | []        => .error ⟨.internal .stackUnderflow, m⟩

/-- The stack is empty. -/
def requireEmpty (m : Machine) : Except Failure Unit :=
  if m.stack.isEmpty then .ok () else .error ⟨.internal (.stackLeftover m.stack.length), m⟩

end Machine

/-- The value of a nested query: NULL without rows, and an error with several. -/
def nestedValue : List OutputRow → Except Error Value
  | []    => .ok .null
  | [row] => .ok (row.values.head?.getD .null)
  | rows  => .error (.subSelectRows rows.length)

/-- Calls a scalar function with the arguments on top of the stack. -/
def Machine.call (m : Machine) (ctx : CallContext) (f : ScalarFunction) (count : Nat) :
    Except Failure Machine :=
  if m.stack.length < count then m.fail .stackUnderflow
  else
    { m with stack := m.stack.drop count }.pushResult (f.eval ctx (m.stack.take count).reverse)

/-- Does what an instruction says. -/
def Instr.step (env : Env) (queries : List Query) (m : Machine) : Instr → Except Failure Machine
  | .number x     => .ok (m.push (.number x))
  | .text s       => .ok (m.push (.text s))
  | .boolean b    => .ok (m.push (.boolean b))
  | .null         => .ok (m.push .null)
  | .column i j   => m.pushOr (.noSource i) (env.positions[i]?.map fun p => p.read j)
  | .outer l i j  => m.pushOr (.noFrame l) ((env.frame? l).map fun f => f.read i j)
  | .groupKey i   => m.pushOr (.noGroupKey i) env.keys[i]?
  | .aggregate i  => m.pushOr (.noAggregate i) env.results[i]?
  | .call o count =>
    match (env.catalog.variant? o).map Variant.implementation with
    | none                => m.fail (.noFunction o.function o.variant)
    | some (.aggregate _) => m.fail .aggregateCalled
    | some (.scalar f)    => m.call env.callContext f count
  | .select i     =>
    match queries[i]? with
    | none       => m.fail (.noSubSelect i)
    | some query => m.pushResult (query (env.frame :: env.outer) >>= nestedValue)
  | .columnOut i j =>
    match env.positions[i]? with
    | none   => m.fail (.noSource i)
    | some p => m.write (p.read j)
  | .out          => do
    let (v, m) ← m.pop
    m.write v
  | .operator op  => do
    let (right, m) ← m.pop
    let (left, m) ← m.pop
    m.pushResult (left.apply op right)

/-- Runs instructions in order. -/
def runCode (env : Env) (queries : List Query) (m : Machine) : List Instr → Except Failure Machine
  | []        => .ok m
  | i :: code => do runCode env queries (← i.step env queries m) code

namespace Program

/-- Runs the program on an empty stack. -/
def run (p : Program Query) (env : Env) (m : Machine) : Except Failure Machine :=
  runCode env p.queries { m with stack := [] } p.code

/-- Runs the program for its value, which has to be the only one on the stack. -/
def evaluate (p : Program Query) (env : Env) (m : Machine) : Except Failure (Value × Machine) := do
  let (v, m) ← (← p.run env m).pop
  m.requireEmpty
  .ok (v, m)

/-- Runs the program for what it writes; nothing may be left on the stack. -/
def execute (p : Program Query) (env : Env) (m : Machine) : Except Failure Machine := do
  let m ← p.run env m
  m.requireEmpty
  .ok m

/-- The value of the program. -/
def value (p : Program Query) (env : Env) : Except Error Value :=
  match p.evaluate env ⟨[], none⟩ with
  | .ok (v, _)   => .ok v
  | .error fault => .error fault.error

/-- The output row after the program has written to it. -/
def write (p : Program Query) (env : Env) (row : List Value) : Except Error (List Value) :=
  match p.execute env ⟨[], some row⟩ with
  | .ok m        => .ok (m.output.getD row)
  | .error fault => .error fault.error

end Program

end SqlEngine
