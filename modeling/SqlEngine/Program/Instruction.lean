import SqlEngine.Function.Overload
import SqlEngine.Text.Quoted

/-!
# Programs — instructions

A program is a straight line of instructions for a machine with a stack.  `effect` says by how much
an instruction changes the height of the stack, and `listing` is its line in a listing.
-/

namespace SqlEngine

inductive Instr
  /-- Push a literal. -/
  | number (x : Float)
  | text (s : String)
  | boolean (b : Bool)
  | null
  /-- Push a column of the current row of a source. -/
  | column (source column : Nat)
  /-- Push a column of a current row `level` statements further out. -/
  | outer (level source column : Nat)
  /-- Push a key of the group that is being projected. -/
  | groupKey (index : Nat)
  /-- Replace the arguments on top of the stack by the result of a scalar function. -/
  | call (target : Overload) (count : Nat)
  /-- Push the result of an aggregate for the group that is being projected. -/
  | aggregate (slot : Nat)
  /-- Push the value of a nested query. -/
  | select (index : Nat)
  /-- Write a column of the current row of a source to the output row. -/
  | columnOut (source column : Nat)
  /-- Move the value on top of the stack to the output row. -/
  | out
  /-- Replace the two values on top of the stack by the result of an operator. -/
  | operator (op : Operator)
deriving BEq

namespace Instr

/-- The change of the stack's height. -/
def effect : Instr → Int
  | call _ count   => 1 - count
  | columnOut _ _  => 0
  | out            => -1
  | operator _     => -1
  | _              => 1

/-- The name of an operator's instruction. -/
def operatorName : Operator → String
  | .plus         => "Sum"
  | .minus        => "Sub"
  | .times        => "Mul"
  | .divide       => "Div"
  | .power        => "Pow"
  | .remainder    => "Rem"
  | .concat       => "Concat"
  | .equal        => "Eq"
  | .notEqual     => "NEq"
  | .less         => "Less"
  | .greater      => "More"
  | .lessEqual    => "LessEq"
  | .greaterEqual => "MoreEq"
  | .and          => "And"
  | .or           => "Or"

/-- An instruction's name with named operands. -/
def withOperands (name : String) (operands : List (String × Nat)) : String :=
  let items := operands.map fun p => s!"{p.1}: {p.2}"
  name ++ " \x7b " ++ ", ".intercalate items ++ " \x7d"

/-- The instruction as a listing shows it. -/
def listing : Instr → String
  | number x                  => s!"PushNumber({Number.listing x})"
  | text s                    => s!"PushString({Text.quoted s})"
  | boolean true              => "PushBoolean(true)"
  | boolean false             => "PushBoolean(false)"
  | null                      => "PushNull"
  | column i j                => withOperands "PushColumn" [("source", i), ("column", j)]
  | outer level i j           =>
      withOperands "PushOuterColumn" [("level", level), ("source", i), ("column", j)]
  | groupKey index            => s!"PushVariable({index})"
  | call target count         =>
      withOperands "CallFunction"
        [("function", target.function), ("variant", target.variant), ("arg_count", count)]
  | aggregate slot            => withOperands "CallAggregate" [("slot", slot)]
  | select index              => s!"SubSelect({index})"
  | columnOut i j             => withOperands "PushColumnToOutput" [("source", i), ("column", j)]
  | out                       => "PushStackTopToOutput"
  | operator op               => operatorName op

end Instr

/-- The greatest height of the stack in a run from a given height. -/
def peak (height : Int) : List Instr → Int
  | []        => height
  | i :: code => max height (peak (height + i.effect) code)

/-- The room on the stack that a program needs. -/
def stackDepth (code : List Instr) : Nat :=
  (peak 0 code).toNat

/-- The number of a line, with zeros up to four digits. -/
def lineNumber (n : Nat) : String :=
  let digits := Nat.toDigits 10 n
  String.ofList (List.replicate (4 - digits.length) '0' ++ digits)

/-- The listing of a program, a line for each instruction. -/
def codeListing (code : List Instr) : String :=
  String.join (code.zipIdx.map fun p => s!"{lineNumber p.2}: {p.1.listing}\n")

end SqlEngine
