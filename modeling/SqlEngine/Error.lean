import SqlEngine.Token.Keyword
import SqlEngine.Token.Mark

/-!
# Errors

An error is a cause: one inductive type per stage says what can go wrong there, and `message` holds
the wording of all of them.  `offset?` is the place in the statement text, `stage` the part of the
engine that is to blame.
-/

namespace SqlEngine

/-- What is wrong with a number literal. -/
inductive NumberFault
  | secondPoint
  | secondExponent
  | emptyExponent
  | unreadable (literal : String)
deriving DecidableEq, Repr

/-- What is wrong with a statement's text. -/
inductive ParseFault
  | openString
  | openName
  | strayCharacter
  | nesting (limit : Nat)
  | expectedKeyword (word : Keyword)
  | expectedMark (mark : Mark)
  | expectedName
  | expectedStatement
  | expectedEnd
  | expectedOperator
  | expectedExpression
  | emptyParens
  | strayStar
  | strayParen
  | bareSelect
  | subSelectForbidden
  | wildcardInside
  | wildcardAlias
  | limitMissing
  | limitNotNatural
  | expectedType
  | valueCount (expected found : Nat)
  | subSelectWidth
  | notBoolean (clause : Keyword)
deriving DecidableEq, Repr

/-- What is wrong with a join. -/
inductive JoinFault
  | notBoolean (condition : String)
  | repeatedTable (name : String)
  | repeatedName (name : String)
  | noCondition (name : String)
deriving DecidableEq, Repr

/-- How an aggregate or an ungrouped column is out of place. -/
inductive AggregateFault
  | notAllowed (function : String)
  | groupedWildcard
  | argumentIsKey (argument : String)
  | notGrouped (column : String)
  | notAggregated (column : String)
deriving DecidableEq, Repr

/-- What is wrong with a value handed to a function or to a table. -/
inductive ArgumentFault
  | expectedText (function : String) (position : Nat)
  | expectedNumber (function : String) (position : Nat)
  | aggregatesNumbers (function : String) (found : DataType)
  | notADate (text : String)
  | fractionalPlaces
  | columnOutside (column width : Nat)
  | noRow (id : Int)
  | widthMismatch (table : String) (width : Nat)
deriving DecidableEq, Repr

/-- What the engine does not do. -/
inductive Unsupported
  | noProviderForId (table : Nat)
  | noProvider (table : String)
  | notReadOnly (kind : String)
  | insertReadOnly
  | updateReadOnly
  | deleteReadOnly
deriving DecidableEq, Repr

/-- A broken contract between the stages of the engine. -/
inductive InternalFault
  | strayClose
  | noLeftOperand (op : Operator)
  | noOperator
  | openGroup
  | noLastOperand
  | noOperand
  | typeUnderflow
  | typeLeftover
  | noJoinCondition
  | rowWidth (column width : Nat)
  | unknownTable (id : Nat)
  | unresolvedReference (name : String)
  | unresolvedCall (name : String)
  | unresolvedSource (name : String)
  | unresolvedTarget (name : String)
  | strayAggregate (name : String)
  | strayWildcard
  | notAnOperand
  | stackUnderflow
  | stackLeftover (count : Nat)
  | noOutputRow
  | noSource (source : Nat)
  | noJoinSource (source : Nat)
  | noFrame (level : Nat)
  | noGroupKey (index : Nat)
  | noFunction (function variant : Nat)
  | aggregateCalled
  | scalarAccumulated
  | noAggregate (slot : Nat)
  | noSubSelect (index : Nat)
  | rowVanished (id : Int)
  | noColumn (position : Nat) (table : String)
deriving DecidableEq, Repr

inductive Error
  | lex (fault : NumberFault) (offset : Nat)
  | parse (fault : ParseFault) (near : String) (offset : Nat)
  | unresolved (name : String) (offset : Nat)
  | ambiguous (name : String) (offset : Nat)
  | invalidJoin (fault : JoinFault)
  | aggregateMisuse (fault : AggregateFault)
  | noOverload (function : String) (arguments : List DataType)
  | tableExists (name : String)
  | duplicateColumn (table column : String)
  | typeMismatch (op : Operator) (left right : DataType)
  | divisionByZero
  | invalidArgument (fault : ArgumentFault)
  | subSelectRows (count : Nat)
  | notSupported (what : Unsupported)
  | internal (fault : InternalFault)
deriving DecidableEq, Repr

/-- The part of the engine an error comes from. -/
inductive Stage
  | parse | internal | other
deriving DecidableEq, Repr

def NumberFault.message : NumberFault → String
  | .secondPoint        => "invalid number format: unexpected '.'"
  | .secondExponent     => "invalid number format: second exponent marker"
  | .emptyExponent      => "invalid number format: exponent has no digits"
  | .unreadable literal => s!"invalid number '{literal}'"

def ParseFault.message : ParseFault → String
  | .openString                => "unterminated string literal"
  | .openName                  => "unterminated quoted identifier"
  | .strayCharacter            => "unexpected character"
  | .nesting limit             => s!"nesting deeper than {limit} levels"
  | .expectedKeyword word      => s!"expected {word.text}"
  | .expectedMark mark         => s!"expected '{mark.text}'"
  | .expectedName              => "expected identifier"
  | .expectedStatement         => "expected SELECT, INSERT, UPDATE, DELETE or CREATE"
  | .expectedEnd               => "expected end of statement"
  | .expectedOperator          => "expected an operator"
  | .expectedExpression        => "expected an expression"
  | .emptyParens               => "expected an expression before ')'"
  | .strayStar                 => "unexpected '*'"
  | .strayParen                => "unexpected '('"
  | .bareSelect                => "a sub-select must be parenthesized"
  | .subSelectForbidden        => "sub-selects are not allowed as values"
  | .wildcardInside            => "a wildcard must stand alone in the output list"
  | .wildcardAlias             => "a wildcard cannot have an alias"
  | .limitMissing              => "LIMIT expects a row count"
  | .limitNotNatural           => "LIMIT expects a non-negative integer"
  | .expectedType              => "expected a column type"
  | .valueCount expected found => s!"expected {expected} values, found {found}"
  | .subSelectWidth            => "a sub-select used as a value must return exactly one column"
  | .notBoolean clause         => s!"{clause.text} clause must be a boolean expression"

def JoinFault.message : JoinFault → String
  | .notBoolean condition => s!"ON condition '{condition}' is not boolean"
  | .repeatedTable name   => s!"table '{name}' is used more than once and needs distinct aliases"
  | .repeatedName name    => s!"source name '{name}' is used more than once"
  | .noCondition name     => s!"join with '{name}' has no ON condition"

def AggregateFault.message : AggregateFault → String
  | .notAllowed function    => s!"{function} is not allowed here"
  | .groupedWildcard        => "a wildcard cannot be used with GROUP BY"
  | .argumentIsKey argument => s!"aggregate argument '{argument}' is a GROUP BY expression"
  | .notGrouped column      => s!"'{column}' must appear in GROUP BY or be used in an aggregate"
  | .notAggregated column   => s!"'{column}' must be used in an aggregate"

def ArgumentFault.message : ArgumentFault → String
  | .expectedText function position   => s!"{function} expects TEXT as argument {position}"
  | .expectedNumber function position => s!"{function} expects NUMBER as argument {position}"
  | .aggregatesNumbers function found => s!"{function} expects NUMBER, got {found.name}"
  | .notADate text                    => s!"invalid date format: {text}"
  | .fractionalPlaces                 => "ROUND expects a whole number of decimal places"
  | .columnOutside column width       =>
      s!"column index {column} out of range for table of {width} columns"
  | .noRow id                         => s!"no row with id {id}"
  | .widthMismatch table width        => s!"'{table}' needs {width} columns"

def Unsupported.message : Unsupported → String
  | .noProviderForId table => s!"table {table} has no data provider"
  | .noProvider table      => s!"table '{table}' has no data provider"
  | .notReadOnly kind      => s!"{kind} is not allowed in a read-only query"
  | .insertReadOnly        => "insert into read-only table"
  | .updateReadOnly        => "update of read-only table"
  | .deleteReadOnly        => "delete from read-only table"

def InternalFault.message : InternalFault → String
  | .strayClose                  => "unbalanced ')' in expression"
  | .noLeftOperand op            => s!"operator '{op.symbol}' has no left operand"
  | .noOperator                  => "two operands without an operator"
  | .openGroup                   => "unclosed '(' in expression"
  | .noLastOperand               => "expression ends without an operand"
  | .noOperand                   => "expected an operand"
  | .typeUnderflow               => "type stack underflow"
  | .typeLeftover                => "type stack not balanced"
  | .noJoinCondition             => "join condition missing after validation"
  | .rowWidth column width       => s!"column index {column} out of bounds for row of width {width}"
  | .unknownTable id             => s!"unknown table id {id}"
  | .unresolvedReference name    => s!"reference '{name}' reached the compiler unresolved"
  | .unresolvedCall name         => s!"call of {name} reached the compiler unresolved"
  | .unresolvedSource name       => s!"table '{name}' reached the compiler unresolved"
  | .unresolvedTarget name       => s!"table '{name}' reached the executor unresolved"
  | .strayAggregate name         => s!"aggregate {name} compiled outside an aggregating query"
  | .strayWildcard               => "wildcard reached the compiler unexpanded"
  | .notAnOperand                => "operator node in operand position"
  | .stackUnderflow              => "stack underflow"
  | .stackLeftover count         => s!"{count} values left on the stack"
  | .noOutputRow                 => "no output row to write to"
  | .noSource source             => s!"no cursor for source {source}"
  | .noJoinSource source         => s!"no cursor for join source {source}"
  | .noFrame level               => s!"no enclosing row at level {level}"
  | .noGroupKey index            => s!"no group variable {index}"
  | .noFunction function variant => s!"no function {function}:{variant}"
  | .aggregateCalled             => "aggregate called as a scalar function"
  | .scalarAccumulated           => "scalar function registered as an aggregate slot"
  | .noAggregate slot            => s!"no aggregate result {slot}"
  | .noSubSelect index           => s!"no sub-select {index}"
  | .rowVanished id              => s!"row Some({id}) vanished during execution"
  | .noColumn position table     => s!"column {position} out of range for '{table}'"

namespace Error

def message : Error → String
  | .lex fault offset              => s!"lex error at offset {offset}: {fault.message}"
  | .parse fault near offset       =>
      s!"parse error at offset {offset} near '{near}': {fault.message}"
  | .unresolved name offset        => s!"unresolved reference '{name}' at offset {offset}"
  | .ambiguous name offset         => s!"ambiguous reference '{name}' at offset {offset}"
  | .invalidJoin fault             => s!"invalid join: {fault.message}"
  | .aggregateMisuse fault         => s!"aggregate misuse: {fault.message}"
  | .noOverload function arguments =>
      s!"no suitable variant of {function}(" ++
        ", ".intercalate (arguments.map DataType.name) ++ ")"
  | .tableExists name              => s!"table '{name}' already exists"
  | .duplicateColumn table column  => s!"duplicate column '{column}' in table '{table}'"
  | .typeMismatch op left right    =>
      s!"type mismatch: cannot apply '{op.symbol}' to {left.name} and {right.name}"
  | .divisionByZero                => "division by zero"
  | .invalidArgument fault         => s!"invalid argument: {fault.message}"
  | .subSelectRows count           => s!"sub-select used as a value returned {count} rows"
  | .notSupported what             => s!"not supported: {what.message}"
  | .internal fault                => s!"internal error: {fault.message}"

/-- The byte of the statement text where the error lies, if it lies there. -/
def offset? : Error → Option Nat
  | .lex _ offset | .parse _ _ offset | .unresolved _ offset | .ambiguous _ offset => some offset
  | _                                                                              => none

def stage : Error → Stage
  | .lex .. | .parse .. | .unresolved .. | .ambiguous .. | .invalidJoin _ | .aggregateMisuse _
  | .noOverload .. => .parse
  | .internal _    => .internal
  | _              => .other

end Error

end SqlEngine
