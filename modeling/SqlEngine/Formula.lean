import SqlEngine.Error

/-!
# Formulas

A formula is a sequence of values, operators and parentheses.  `linearize` puts it into the order of
evaluation, operands before their operator: parentheses group, tighter tiers bind first, and all
operators group to the left.  Operators of the tightest tier are applied as soon as their right
operand is there; the others wait until one of a lower or equal tier comes, or the group ends.
`typeOf` finds the type of a formula in that order.
-/

namespace SqlEngine

/-- A part of a formula, with values of type `α`. -/
inductive Item (α : Type)
  | value (a : α)
  | operator (op : Operator)
  | openParen
  | closeParen
deriving DecidableEq, Repr

/-- A step of evaluation: take a value, or apply an operator to the last two results. -/
inductive Step (α : Type)
  | value (a : α)
  | operator (op : Operator)
deriving DecidableEq, Repr

namespace Formula

variable {α β : Type}

/-- A group that is being read: the operators that wait, the last one first; whether its last part
was an operand; and the operator of the tightest tier whose right operand is due. -/
structure Group where
  waiting : List Operator
  full : Bool
  due : Option Operator

/-- A group of which nothing is read. -/
def Group.empty : Group := ⟨[], false, none⟩

/-- The state between two parts: the innermost group, the groups around it, and the steps so far,
the last one first. -/
structure State (α : Type) where
  group : Group
  outer : List Group
  done : List (Step α)

/-- The given operators are applied, the first one first. -/
def applied (ops : List Operator) (done : List (Step α)) : List (Step α) :=
  (ops.map Step.operator).reverse ++ done

/-- An operand may come: it is due, or an operator came before it. -/
def Group.expectOperand (g : Group) : Except InternalFault Unit :=
  if g.due.isNone && g.full then .error .noOperator else .ok ()

/-- No operand is due. -/
def Group.expectNoneDue (g : Group) : Except InternalFault Unit :=
  if g.due.isSome then .error .noOperand else .ok ()

/-- The operand of a group is complete; the operator that it was due for is applied. -/
def settle (g : Group) (outer : List Group) (done : List (Step α)) : State α :=
  match g.due with
  | some op => ⟨{ g with due := none }, outer, .operator op :: done⟩
  | none    => ⟨{ g with full := true }, outer, done⟩

/-- Reads one part. -/
def State.read (s : State α) : Item α → Except InternalFault (State α)
  | .value a => do
    s.group.expectOperand
    .ok (settle s.group s.outer (.value a :: s.done))
  | .openParen => do
    s.group.expectOperand
    .ok ⟨.empty, s.group :: s.outer, s.done⟩
  | .closeParen => do
    s.group.expectNoneDue
    match s.outer with
    | []             => .error .strayClose
    | around :: rest =>
      if s.group.full then .ok (settle around rest (applied s.group.waiting s.done))
      else .error .noLastOperand
  | .operator op => do
    s.group.expectNoneDue
    if !s.group.full then .error (.noLeftOperand op)
    else if op.isMultiplicative then .ok { s with group := { s.group with due := some op } }
    else
      let binds (top : Operator) := op.tier.rank ≤ top.tier.rank
      .ok { s with
        group := ⟨op :: s.group.waiting.dropWhile binds, false, none⟩
        done := applied (s.group.waiting.takeWhile binds) s.done }

/-- The end of the formula: no group is open, and the last part was an operand. -/
def State.finish (s : State α) : Except InternalFault (List (Step α)) := do
  s.group.expectNoneDue
  if !s.outer.isEmpty then .error .openGroup
  else if !s.group.full then .error .noLastOperand
  else .ok (applied s.group.waiting s.done).reverse

/-- Reads the parts in order. -/
def State.run (s : State α) : List (Item α) → Except InternalFault (List (Step α))
  | []            => s.finish
  | item :: items => do (← s.read item).run items

/-- The steps of a formula in the order of evaluation. -/
def linearize (items : List (Item α)) : Except InternalFault (List (Step α)) :=
  State.run ⟨.empty, [], []⟩ items

/-- Runs the steps on a stack of types. -/
def typeSteps (stack : List DataType) : List (Step DataType) → Except Error DataType
  | [] =>
    match stack with
    | [t] => .ok t
    | _   => .error (.internal .typeLeftover)
  | .value t :: steps => typeSteps (t :: stack) steps
  | .operator op :: steps =>
    match stack with
    | right :: left :: stack =>
      match op.resultType left right with
      | .ok t    => typeSteps (t :: stack) steps
      | .error _ => .error (.typeMismatch op left right)
    | _ => .error (.internal .typeUnderflow)

/-- The type of a formula of types. -/
def typeOf (items : List (Item DataType)) : Except Error DataType :=
  match linearize items with
  | .ok steps  => typeSteps [] steps
  | .error f   => .error (.internal f)

end Formula

end SqlEngine
