import SqlEngine.Function.Aggregate
import SqlEngine.Function.Scalar

/-!
# Functions — overloads

A function has a name and overloads in the order of their declaration; `builtins` are the functions
every catalog starts with.
-/

namespace SqlEngine

/-- How an overload is evaluated. -/
inductive Implementation
  | scalar (f : ScalarFunction)
  | aggregate (f : AggregateFunction)
deriving DecidableEq, Repr

/-- One typed overload of a function. -/
structure Variant where
  arguments : List DataType
  result : DataType
  implementation : Implementation
deriving DecidableEq, Repr

namespace Variant

def isAggregate (v : Variant) : Bool :=
  match v.implementation with
  | .aggregate _ => true
  | .scalar _    => false

/-- The overload takes arguments of exactly these types. -/
def accepts (v : Variant) (types : List DataType) : Bool :=
  v.arguments == types

/-- The overload takes arguments of these types, where an unknown type goes with every other. -/
def acceptsLoosely (v : Variant) (types : List DataType) : Bool :=
  v.arguments.length == types.length &&
    (v.arguments.zip types).all fun p => p.1.compatible p.2

end Variant

/-- An overload, by the position of its function in the catalog and its own among the variants. -/
structure Overload where
  function : Nat
  variant : Nat
deriving DecidableEq, Repr

/-- A function of the catalog; its name is in capitals. -/
structure Function where
  name : String
  variants : List Variant
deriving DecidableEq, Repr

namespace Function

/-- A function under a name in any case. -/
def named (name : String) (variants : List Variant) : Function :=
  ⟨Text.upper name, variants⟩

/-- An overload is an aggregate. -/
def hasAggregate (f : Function) : Bool :=
  f.variants.any Variant.isAggregate

/-- The position of the overload for arguments of the given types: the first that takes exactly
these, or, where a type is unknown, the first that takes them loosely. -/
def variantFor? (f : Function) (types : List DataType) : Option Nat :=
  if types.any DataType.isNull then f.variants.findIdx? (·.acceptsLoosely types)
  else f.variants.findIdx? (·.accepts types)

/-- A function of one scalar overload. -/
def scalar (f : ScalarFunction) (arguments : List DataType) (result : DataType) : Function :=
  named f.name [⟨arguments, result, .scalar f⟩]

/-- The functions every catalog starts with. -/
def builtins : List Function :=
  [ scalar .rowNumber [] .number,
    scalar .rowId [] .number,
    scalar .now [] .date,
    scalar .date [.text] .date,
    scalar .lower [.text] .text,
    scalar .upper [.text] .text,
    scalar .length [.text] .number,
    scalar .abs [.number] .number,
    named "ROUND" [⟨[.number], .number, .scalar .round⟩,
      ⟨[.number, .number], .number, .scalar .round⟩],
    named "COUNT" (⟨[], .number, .aggregate .count⟩ ::
      [DataType.number, .text, .boolean, .date].map fun t => ⟨[t], .number, .aggregate .count⟩),
    named "SUM" [⟨[.number], .number, .aggregate .sum⟩],
    named "AVG" [⟨[.number], .number, .aggregate .average⟩],
    named "MIN" ([DataType.number, .text, .date].map fun t => ⟨[t], t, .aggregate .minimum⟩),
    named "MAX" ([DataType.number, .text, .date].map fun t => ⟨[t], t, .aggregate .maximum⟩) ]

end Function

end SqlEngine
