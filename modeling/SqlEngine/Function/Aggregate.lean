import SqlEngine.Row

/-!
# Functions — aggregate functions

The built-in functions of a group of rows, as accumulators that take one row's arguments at a time.
All of them pass over NULL.  Of no row at all COUNT is 0 and the others are NULL.
-/

namespace SqlEngine

inductive AggregateFunction
  | count | sum | average | minimum | maximum
deriving DecidableEq, Repr

def AggregateFunction.name : AggregateFunction → String
  | count   => "COUNT"
  | sum     => "SUM"
  | average => "AVG"
  | minimum => "MIN"
  | maximum => "MAX"

/-- What an aggregate function has taken in so far. -/
inductive Accumulator
  | count (n : Nat)
  | sum (total : Option Float)
  | average (total : Float) (n : Nat)
  | minimum (least : Option Value)
  | maximum (greatest : Option Value)

namespace Accumulator

/-- The accumulator of a function before any row. -/
def empty : AggregateFunction → Accumulator
  | .count   => count 0
  | .sum     => sum none
  | .average => average 0 0
  | .minimum => minimum none
  | .maximum => maximum none

/-- The first argument as a number; none when there is no argument or it is NULL. -/
def firstNumber (f : AggregateFunction) : List Value → Except Error (Option Float)
  | []             => .ok none
  | .null :: _     => .ok none
  | .number x :: _ => .ok (some x)
  | v :: _         => .error (.invalidArgument (.aggregatesNumbers f.name v.kind))

/-- Of the value kept so far and a new one, the new one if it compares as `wins`. -/
def keep (wins : Ordering) (kept : Option Value) : List Value → Option Value
  | []         => kept
  | .null :: _ => kept
  | v :: _     =>
    match kept with
    | none   => some v
    | some w => if v.compare w == wins then some v else some w

/-- Takes in the arguments of one row. -/
def add (args : List Value) : Accumulator → Except Error Accumulator
  | count n =>
    match args with
    | .null :: _ => .ok (count n)
    | _          => .ok (count (n + 1))
  | sum total => do
    match ← firstNumber .sum args with
    | some x => .ok (sum (some (total.getD 0 + x)))
    | none   => .ok (sum total)
  | average total n => do
    match ← firstNumber .average args with
    | some x => .ok (average (total + x) (n + 1))
    | none   => .ok (average total n)
  | minimum least    => .ok (minimum (keep .lt least args))
  | maximum greatest => .ok (maximum (keep .gt greatest args))

/-- The value of the function for the rows taken in. -/
def result : Accumulator → Value
  | count n          => .number (Float.ofNat n)
  | sum total        => (total.map Value.number).getD .null
  | average total n  => if n == 0 then .null else .number (total / Float.ofNat n)
  | minimum least    => least.getD .null
  | maximum greatest => greatest.getD .null

/-- The function an accumulator belongs to. -/
def function : Accumulator → AggregateFunction
  | count _     => .count
  | sum _       => .sum
  | average ..  => .average
  | minimum _   => .minimum
  | maximum _   => .maximum

/-- Back to the state before any row. -/
def reset (a : Accumulator) : Accumulator :=
  empty a.function

/-- Takes in the arguments of several rows. -/
def addAll : List (List Value) → Accumulator → Except Error Accumulator
  | [],           a => .ok a
  | args :: rows, a => do addAll rows (← a.add args)

theorem function_empty (f : AggregateFunction) : (empty f).function = f := by
  cases f <;> rfl

theorem function_add {args : List Value} {a b : Accumulator} (h : a.add args = .ok b) :
    b.function = a.function := by
  cases a with
  | count n => simp only [add] at h; split at h <;> cases h <;> rfl
  | sum total =>
    simp only [add] at h
    cases hx : firstNumber .sum args with
    | error e => rw [hx] at h; cases h
    | ok x => rw [hx] at h; cases x <;> cases h <;> rfl
  | average total n =>
    simp only [add] at h
    cases hx : firstNumber .average args with
    | error e => rw [hx] at h; cases h
    | ok x => rw [hx] at h; cases x <;> cases h <;> rfl
  | minimum least => cases h; rfl
  | maximum greatest => cases h; rfl

end Accumulator

end SqlEngine
