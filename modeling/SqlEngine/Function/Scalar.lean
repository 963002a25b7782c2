import SqlEngine.Row

/-!
# Functions — scalar functions

The built-in functions of one row.  NULL in, NULL out, for all that take arguments.
-/

namespace SqlEngine

/-- What a scalar function may know besides its arguments: the number of output rows so far, this
one included, the id of the primary row, and the statement's instant. -/
structure CallContext where
  rowNumber : Nat
  rowId : Int
  now : Date.Instant

inductive ScalarFunction
  | rowNumber | rowId | now | date | lower | upper | length | abs | round
deriving DecidableEq, Repr

namespace ScalarFunction

def name : ScalarFunction → String
  | rowNumber => "ROWNUM"
  | rowId     => "ROWID"
  | now       => "NOW"
  | date      => "DATE"
  | lower     => "LOWER"
  | upper     => "UPPER"
  | length    => "LENGTH"
  | abs       => "ABS"
  | round     => "ROUND"

/-- The argument at a position, which has to be text. -/
def textArgument (f : ScalarFunction) (args : List Value) (i : Nat) : Except Error String :=
  match args[i]? with
  | some (.text s) => .ok s
  | _              => .error (.invalidArgument (.expectedText f.name (i + 1)))

/-- The argument at a position, which has to be a number. -/
def numberArgument (f : ScalarFunction) (args : List Value) (i : Nat) : Except Error Float :=
  match args[i]? with
  | some (.number x) => .ok x
  | _                => .error (.invalidArgument (.expectedNumber f.name (i + 1)))

/-- NULL when an argument is NULL. -/
def strict (args : List Value) (result : Except Error Value) : Except Error Value :=
  if args.any Value.isNull then .ok .null else result

/-- The date a text stands for. -/
def dateOf (s : String) : Except Error Value :=
  match Date.read? s with
  | some i => .ok (.date i)
  | none   => .error (.invalidArgument (.notADate (String.ofList (Text.trim s.toList))))

/-- Rounds the first argument, to the places the second one gives if there is one. -/
def roundArguments (args : List Value) : Except Error Value := do
  let x ← round.numberArgument args 0
  if args.length < 2 then return .number x.round
  let places ← round.numberArgument args 1
  if Number.isWhole places then return .number (Number.roundTo x places.toInt32.toInt)
  else throw (.invalidArgument .fractionalPlaces)

/-- The value of a call. -/
def eval (f : ScalarFunction) (ctx : CallContext) (args : List Value) : Except Error Value :=
  match f with
  | rowNumber => .ok (.number (Float.ofNat ctx.rowNumber))
  | rowId     => .ok (.number (Float.ofInt ctx.rowId))
  | now       => .ok (.date ctx.now)
  | date      => strict args do dateOf (← f.textArgument args 0)
  | lower     => strict args do return .text (Text.lower (← f.textArgument args 0))
  | upper     => strict args do return .text (Text.upper (← f.textArgument args 0))
  | length    => strict args do return .number (Float.ofNat (← f.textArgument args 0).length)
  | abs       => strict args do return .number (← f.numberArgument args 0).abs
  | round     => strict args (roundArguments args)

end ScalarFunction

end SqlEngine
