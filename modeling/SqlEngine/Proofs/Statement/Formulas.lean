import Mathlib
import SqlEngine.Proofs.Formula.Grammar
import SqlEngine.Proofs.Statement.Everywhere

/-!
# Statements — every expression is a formula

The nodes of an expression are a formula of which only the values are still to be told
(`Expr.items`).  The readers keep to the grammar of formulas, so no expression that is read is
empty, has a parenthesis too many or an operand without its operator; and the linearizer, which
relies on that, takes every expression.

* `Read.operands_formula`: what is read between two ends of an expression is a formula.
* `Statement.parse_linearizes`: every expression in a statement that is read is a formula, and is
  linearized with one step for each of its value nodes, in their order.
-/

namespace SqlEngine

open Formula (IsFormula IsOperand linearize)

/-! ### Nodes as parts of a formula -/

/-- The part of a formula that a node is; a value node stands for the given value. -/
def Node.item {α : Type} (a : α) : Node → Item α
  | .operator op => .operator op
  | .openParen   => .openParen
  | .closeParen  => .closeParen
  | _            => .value a

/-- The nodes without their values. -/
def Node.shape (nodes : List Node) : List (Item Unit) :=
  nodes.map (Node.item ())

/-- The formula of an expression, with a value for each place of a value node. -/
def Expr.items {α : Type} (value : Nat → α) (e : Expr) : List (Item α) :=
  e.nodes.zipIdx.map fun p => p.1.item (value p.2)

/-- The places of the value nodes. -/
def Expr.valuePlaces (e : Expr) : List Nat :=
  (e.nodes.zipIdx.filter fun p => p.1.isValue).map Prod.snd

section Items

variable {α : Type}

theorem Node.shape_append (as bs : List Node) : shape (as ++ bs) = shape as ++ shape bs :=
  List.map_append

theorem Node.item_rel (n : Node) (a : α) :
    Item.Rel (fun _ _ => True) (n.item ()) (n.item a) := by
  cases n with
  | operator op => exact .operator op
  | openParen => exact .openParen
  | closeParen => exact .closeParen
  | _ => exact .value trivial

theorem Node.value?_item (n : Node) (a : α) :
    (n.item a).value? = if n.isValue then some a else none := by
  cases n <;> rfl

/-- The formula of an expression has its shape, whatever the values are. -/
theorem Expr.items_rel (value : Nat → α) (e : Expr) :
    List.Forall₂ (Item.Rel fun _ _ => True) (Node.shape e.nodes) (e.items value) := by
  have hzip : e.nodes = e.nodes.zipIdx.map Prod.fst := List.zipIdx_map_fst 0 e.nodes |>.symm
  rw [Node.shape, hzip, List.map_map, Expr.items, List.forall₂_map_left_iff,
    List.forall₂_map_right_iff, List.forall₂_same]
  exact fun p _ => p.1.item_rel (value p.2)

theorem Expr.values_items (value : Nat → α) (e : Expr) :
    (e.items value).filterMap Item.value? = e.valuePlaces.map value := by
  rw [Expr.items, Expr.valuePlaces, List.filterMap_map, List.map_map, ← List.filterMap_eq_map,
    List.filterMap_filter]
  refine List.filterMap_congr fun p _ => ?_
  simp only [Function.comp_def, Node.value?_item]

end Items

/-- An expression whose nodes are a formula: it is linearized for all values, and each value node
gives one step, in the order of the nodes. -/
def Expr.Linearizes (e : Expr) : Prop :=
  e.nodes ≠ [] ∧ IsFormula (Node.shape e.nodes) ∧
    ∀ (α : Type) (value : Nat → α), ∃ steps, linearize (e.items value) = .ok steps ∧
      steps.filterMap Step.value? = e.valuePlaces.map value

theorem Expr.linearizes_of_formula {e : Expr} (h : IsFormula (Node.shape e.nodes)) :
    e.Linearizes := by
  refine ⟨fun hnil => h.ne_nil (by rw [hnil]; rfl), h, fun α value => ?_⟩
  obtain ⟨steps, hsteps⟩ := Formula.isFormula_iff_linearize.1 (h.of_rel (e.items_rel value))
  exact ⟨steps, hsteps, by rw [Formula.linearize_values hsteps, e.values_items value]⟩

/-! ### What is read -/

namespace Read

variable {o : ParserOptions}

mutual

/-- The nodes between two ends of an expression are a formula. -/
theorem operands_formula (depth : Nat) (nested : Bool) (ts : Tokens) {nodes : List Node}
    {rest : ts.After} (h : operands o depth nested ts = .ok (nodes, rest)) :
    IsFormula (Node.shape nodes) := by
  obtain ⟨first, afterFirst, more, last, hfirst, hmore, rfl⟩ := operands_cases h
  have hlt := afterFirst.2
  rw [Node.shape_append]
  exact following_formula depth nested afterFirst.1 hmore
    (operand_formula depth nested ts hfirst)
termination_by (ts.length, 3)

/-- The nodes that follow an operand make a formula with it. -/
theorem following_formula (depth : Nat) (nested : Bool) (ts : Tokens) {nodes : List Node}
    {rest : ts.UpTo} (h : following o depth nested ts = .ok (nodes, rest))
    {first : List (Item Unit)} (hfirst : IsOperand first) :
    IsFormula (first ++ Node.shape nodes) := by
  rcases following_cases h with rfl | ⟨op, more, after, last, hlt, hmore, rfl⟩
  · rw [Node.shape, List.map_nil, List.append_nil]
    exact .operand hfirst
  · exact (IsFormula.operand hfirst).append op (operands_formula depth nested after hmore)
termination_by (ts.length, 0)

theorem operand_formula (depth : Nat) (nested : Bool) (ts : Tokens) {nodes : List Node}
    {rest : ts.After} (h : operand o depth nested ts = .ok (nodes, rest)) :
    IsOperand (Node.shape nodes) := by
  rcases operand_cases h with hatom | ⟨r, args, after, last, hargs, rfl⟩
  · exact atom_formula depth ts hatom
  · exact .value ()
termination_by (ts.length, 2)

theorem atom_formula (depth : Nat) (ts : Tokens) {nodes : List Node} (h : Atom o depth ts nodes) :
    IsOperand (Node.shape nodes) := by
  cases h with
  | @plain n hn => cases n <;> first | exact .value () | cases hn
  | select hlt hs => exact .value ()
  | @group inside nodes rest hlt hnodes =>
    have hinner := operands_formula (depth + 1) true inside hnodes
    rw [Node.shape_append]
    exact .group hinner
termination_by (ts.length, 1)

end

/-- The readers of expressions read formulas. -/
theorem ensures_linearizes (o : ParserOptions) :
    Ensures o ⟨Expr.Linearizes, fun _ => True, fun _ => True⟩ where
  expression := by
    intro depth wildcard ts e rest h
    obtain ⟨nodes, source, offset, hnodes, rfl⟩ := expression_cases h
    exact Expr.linearizes_of_formula (operands_formula depth false ts hnodes)
  output := by
    intro depth ts e rest h
    refine Expr.linearizes_of_formula ?_
    obtain ⟨-, ⟨r, hnodes⟩ | ⟨nodes, last, hoperands, hnodes⟩⟩ := output_cases h
    · rw [hnodes]
      exact .operand (.value ())
    · rw [hnodes]
      exact operands_formula depth false ts hoperands
  call := fun _ _ => trivial
  select := fun _ => trivial

end Read

/-- **Every expression that is read is a formula.**  At any depth of a statement, an expression has
nodes; its parentheses are balanced, and operands and operators alternate in it; and the linearizer
takes it, with one step for each value node and in their order. -/
theorem Statement.parse_linearizes {o : ParserOptions} {text : String} {s : Statement}
    (h : Statement.parse o text = .ok s) :
    s.Everywhere ⟨Expr.Linearizes, fun _ => True, fun _ => True⟩ :=
  Statement.parse_everywhere (Read.ensures_linearizes o) h

/-- Groups, a call, and sub-selects as a value and as a source. -/
def groupsAndCalls : String :=
  "SELECT (a || 'x') = b, F((b), (SELECT c FROM u)) FROM (SELECT a FROM t) AS v WHERE (a) <> b"

theorem groupsAndCalls_linearizes :
    ∃ s, Statement.parse {} groupsAndCalls = .ok s ∧
      s.Everywhere ⟨Expr.Linearizes, fun _ => True, fun _ => True⟩ := by
  have hok : (Statement.parse {} groupsAndCalls).isOk = true := by cbv
  obtain ⟨s, hs⟩ := exists_of_isOk hok
  exact ⟨s, hs, Statement.parse_linearizes hs⟩

end SqlEngine
