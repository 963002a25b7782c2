import SqlEngine.Proofs.Statement.Formulas

/-!
# Statements — precedence

How the nodes of an expression group.  `Operator.tiers` lists the operators by tier; a tree of
operators is *grouped* when every operator takes only tighter operators on its right, and operators
of its own tier or tighter ones on its left.  Parentheses protect what is inside them.

* `Formula.linearize_map`: the order of the steps does not depend on the values, so that typing and
  compilation, which put types and code in the place of the values, group alike.
* `Node.order_follows_precedence`: an expression has an order of evaluation when its nodes are a
  formula; the order is that of its one grouped tree, and it takes every value node once and from
  left to right.
-/

namespace SqlEngine

open Formula (IsFormula linearize)

variable {α β : Type}

/-! ### Tiers -/

namespace Operator

/-- The operators by tier, the tightest tier first. -/
def tiers : List (List Operator) :=
  [[times, divide, remainder, power],
    [plus, minus, concat],
    [equal, notEqual, less, greater, lessEqual, greaterEqual],
    [and],
    [or]]

/-- The place of the operator's tier among the tiers. -/
def looseness (op : Operator) : Nat :=
  tiers.findIdx fun tier => op ∈ tier

theorem rank_add_looseness (op : Operator) : op.tier.rank + op.looseness = Tier.product.rank := by
  cases op <;> rfl

theorem rank_lt_iff {op op' : Operator} :
    op.tier.rank < op'.tier.rank ↔ op'.looseness < op.looseness := by
  have h := op.rank_add_looseness
  have h' := op'.rank_add_looseness
  omega

end Operator

namespace Formula.Tree

/-- The operator on top of a tree; a value and a group have none. -/
def top? : Tree α → Option Operator
  | leaf _ | group _ => none
  | node op _ _      => some op

/-- The operators group by precedence: to the left within a tier, and tighter tiers first. -/
def Grouped : Tree α → Prop
  | leaf _             => True
  | group t            => t.Grouped
  | node op left right =>
    left.Grouped ∧ right.Grouped ∧ (∀ top ∈ left.top?, top.looseness ≤ op.looseness) ∧
      ∀ top ∈ right.top?, top.looseness < op.looseness

theorem le_rank_iff (op : Operator) (t : Tree α) :
    op.tier.rank ≤ t.rank ↔ ∀ top ∈ t.top?, top.looseness ≤ op.looseness := by
  cases t with
  | leaf a => simpa [rank, top?] using Nat.le_succ_of_le (tier_rank_le op)
  | group t => simpa [rank, top?] using Nat.le_succ_of_le (tier_rank_le op)
  | node top left right =>
    have h := @Operator.rank_lt_iff top op
    simp only [rank, top?, Option.mem_some_iff, forall_eq']
    omega

theorem lt_rank_iff (op : Operator) (t : Tree α) :
    op.tier.rank < t.rank ↔ ∀ top ∈ t.top?, top.looseness < op.looseness := by
  cases t with
  | leaf a => simpa [rank, top?] using Nat.lt_succ_of_le (tier_rank_le op)
  | group t => simpa [rank, top?] using Nat.lt_succ_of_le (tier_rank_le op)
  | node top left right =>
    simpa only [rank, top?, Option.mem_some_iff, forall_eq'] using Operator.rank_lt_iff

theorem grouped_iff_tiered (t : Tree α) : t.Grouped ↔ t.Tiered := by
  induction t with
  | leaf a => exact Iff.rfl
  | group t ih => exact ih
  | node op left right ihl ihr =>
    simp only [Grouped, Tiered, ihl, ihr, le_rank_iff, lt_rank_iff]

end Formula.Tree

/-! ### Other values in the same places -/

def Item.map (f : α → β) : Item α → Item β
  | .value a     => .value (f a)
  | .operator op => .operator op
  | .openParen   => .openParen
  | .closeParen  => .closeParen

def Step.map (f : α → β) : Step α → Step β
  | .value a     => .value (f a)
  | .operator op => .operator op

namespace Formula

def State.map (f : α → β) (s : State α) : State β :=
  ⟨s.group, s.outer, s.done.map (Step.map f)⟩

variable (f : α → β)

theorem map_applied (ops : List Operator) (done : List (Step α)) :
    (applied ops done).map (Step.map f) = applied ops (done.map (Step.map f)) := by
  simp [applied, Step.map, Function.comp_def]

theorem map_settle (g : Group) (outer : List Group) (done : List (Step α)) :
    (settle g outer done).map f = settle g outer (done.map (Step.map f)) := by
  cases hdue : g.due <;> simp [settle, hdue, State.map, Step.map]

/-- Reading a part looks at no value. -/
theorem State.read_map (s : State α) (item : Item α) :
    (s.map f).read (item.map f) = (s.read item).map (State.map f) := by
  cases item with
  | value a =>
    simp only [Item.map, State.read, State.map]
    cases s.group.expectOperand with
    | error fault => rfl
    | ok u => exact congrArg Except.ok (map_settle f s.group s.outer (.value a :: s.done)).symm
  | openParen =>
    simp only [Item.map, State.read, State.map]
    cases s.group.expectOperand <;> rfl
  | closeParen =>
    simp only [Item.map, State.read, State.map]
    cases s.group.expectNoneDue with
    | error fault => rfl
    | ok u =>
      cases s.outer with
      | nil => rfl
      | cons around rest =>
        by_cases hfull : s.group.full = true
        · simp [bind, Except.bind, hfull, Except.map, map_settle, map_applied]
        · simp [bind, Except.bind, hfull, Except.map]
  | operator op =>
    simp only [Item.map, State.read, State.map]
    cases s.group.expectNoneDue with
    | error fault => rfl
    | ok u =>
      by_cases hfull : s.group.full = true
      · by_cases hop : op.isMultiplicative = true
        · simp [bind, Except.bind, hfull, hop, Except.map, State.map]
        · simp [bind, Except.bind, hfull, hop, Except.map, State.map, map_applied]
      · simp [bind, Except.bind, hfull, Except.map]

theorem State.finish_map (s : State α) :
    (s.map f).finish = s.finish.map (List.map (Step.map f)) := by
  simp only [State.finish, State.map]
  cases s.group.expectNoneDue with
  | error fault => rfl
  | ok u =>
    by_cases houter : s.outer.isEmpty = true
    · by_cases hfull : s.group.full = true
      · simp [bind, Except.bind, houter, hfull, Except.map, ← map_applied]
      · simp [bind, Except.bind, houter, hfull, Except.map]
    · simp [bind, Except.bind, houter, Except.map]

theorem State.run_map (items : List (Item α)) : ∀ s : State α,
    (s.map f).run (items.map (Item.map f)) = (s.run items).map (List.map (Step.map f)) := by
  induction items with
  | nil => exact State.finish_map f
  | cons item items ih =>
    intro s
    simp only [List.map_cons, State.run, State.read_map]
    cases s.read item with
    | error fault => rfl
    | ok s' => exact ih s'

/-- **The order of the steps does not depend on the values.** -/
theorem linearize_map (items : List (Item α)) :
    linearize (items.map (Item.map f)) = (linearize items).map (List.map (Step.map f)) :=
  State.run_map f items ⟨.empty, [], []⟩

theorem isFormula_map {items : List (Item α)} :
    IsFormula (items.map (Item.map f)) ↔ IsFormula items := by
  rw [isFormula_iff_linearize, isFormula_iff_linearize, linearize_map]
  cases linearize items <;> simp [Except.map]

end Formula

/-! ### The order of the nodes -/

namespace Node

/-- The formula of the nodes, in which a value node stands for its place. -/
def places (nodes : List Node) : List (Item Nat) :=
  nodes.zipIdx.map fun p => p.1.item p.2

/-- The order in which the nodes are evaluated: the places of the value nodes, and the operators. -/
def order (nodes : List Node) : Except Error (List (Step Nat)) :=
  (linearize (places nodes)).mapError Error.internal

theorem map_item (f : α → β) (n : Node) (a : α) : (n.item a).map f = n.item (f a) := by
  cases n <;> rfl

/-- The formula of an expression has its values in the places of the value nodes. -/
theorem map_places (value : Nat → α) (e : Expr) :
    (places e.nodes).map (Item.map value) = e.items value := by
  rw [places, Expr.items, List.map_map]
  exact List.map_congr_left fun p _ => map_item value p.1 p.2

theorem shape_eq_map_places (nodes : List Node) :
    shape nodes = (places nodes).map (Item.map fun _ => ()) := by
  have hzip : nodes.zipIdx.map Prod.fst = nodes := List.zipIdx_map_fst 0 nodes
  rw [shape, places, List.map_map]
  conv_lhs => rw [← hzip, List.map_map]
  exact List.map_congr_left fun p _ => (map_item (fun _ => ()) p.1 p.2).symm

/-- The values of the formula are the places of the value nodes. -/
theorem values_places (nodes : List Node) :
    (places nodes).filterMap Item.value? =
      (nodes.zipIdx.filter fun p => p.1.isValue).map Prod.snd := by
  rw [places, List.filterMap_map, ← List.filterMap_eq_map, List.filterMap_filter]
  refine List.filterMap_congr fun p _ => ?_
  simp only [Function.comp_def, value?_item]

theorem mem_values_places {nodes : List Node} {i : Nat} :
    i ∈ (places nodes).filterMap Item.value? ↔ ∃ n, nodes[i]? = some n ∧ n.isValue = true := by
  simp [values_places, List.mem_zipIdx_iff_getElem?]

theorem values_places_ascending (nodes : List Node) :
    ((places nodes).filterMap Item.value?).Pairwise (· < ·) := by
  have hsub := (List.filter_sublist (p := fun p : Node × Nat => p.1.isValue)
    (l := nodes.zipIdx)).map Prod.snd
  rw [List.zipIdx_map_snd, ← values_places] at hsub
  exact List.Pairwise.sublist hsub List.pairwise_lt_range'

/-- The tree groups the nodes by precedence. -/
structure GroupsAs (nodes : List Node) (t : Formula.Tree Nat) : Prop where
  grouped : t.Grouped
  items : t.items = places nodes

theorem groupsAs_iff {nodes : List Node} {t : Formula.Tree Nat} :
    GroupsAs nodes t ↔ Formula.tree? (places nodes) = some t := by
  rw [Formula.tree?_eq_some_iff, ← t.grouped_iff_tiered]
  exact ⟨fun h => ⟨h.grouped, h.items⟩, fun h => ⟨h.1, h.2⟩⟩

theorem GroupsAs.unique {nodes : List Node} {t u : Formula.Tree Nat} (ht : GroupsAs nodes t)
    (hu : GroupsAs nodes u) : u = t :=
  Option.some.inj ((groupsAs_iff.1 hu).symm.trans (groupsAs_iff.1 ht))

theorem GroupsAs.linearize_eq {nodes : List Node} {t : Formula.Tree Nat} (ht : GroupsAs nodes t) :
    linearize (places nodes) = .ok t.steps :=
  Formula.linearize_eq_ok_iff.2 ⟨t, groupsAs_iff.1 ht, rfl⟩

theorem GroupsAs.values_steps {nodes : List Node} {t : Formula.Tree Nat} (ht : GroupsAs nodes t) :
    t.steps.filterMap Step.value? = (places nodes).filterMap Item.value? :=
  Formula.linearize_values ht.linearize_eq

/-- **Expressions group by precedence.**  The nodes of an expression have an order of evaluation if
and only if they are a formula.  The order is then, operands before their operator, that of the one
tree that groups them by precedence; and the operands are the value nodes, each once and from left
to right.  All other nodes end in an internal error.  And whatever stands for the value nodes, its
order is that of their places. -/
theorem order_follows_precedence (nodes : List Node) :
    ((∃ steps, order nodes = .ok steps) ↔ IsFormula (shape nodes)) ∧
    (IsFormula (shape nodes) → ∃ t : Formula.Tree Nat,
      GroupsAs nodes t ∧ (∀ u, GroupsAs nodes u → u = t) ∧ order nodes = .ok t.steps ∧
      (t.steps.filterMap Step.value?).Pairwise (· < ·) ∧
      ∀ i, i ∈ t.steps.filterMap Step.value? ↔ ∃ n, nodes[i]? = some n ∧ n.isValue = true) ∧
    (¬ IsFormula (shape nodes) → ∃ fault, order nodes = .error (.internal fault)) ∧
    ∀ (α : Type) (value : Nat → α) (e : Expr), e.nodes = nodes →
      (linearize (e.items value)).mapError Error.internal =
        (order nodes).map (List.map (Step.map value)) := by
  have hshape : IsFormula (shape nodes) ↔ IsFormula (places nodes) := by
    rw [shape_eq_map_places, Formula.isFormula_map]
  have hgroups (h : IsFormula (shape nodes)) : ∃ t, GroupsAs nodes t := by
    obtain ⟨t, ht⟩ := Formula.isFormula_iff_tree.1 (hshape.1 h)
    exact ⟨t, groupsAs_iff.2 ht⟩
  refine ⟨?_, fun h => ?_, fun h => ?_, ?_⟩
  · rw [hshape, Formula.isFormula_iff_linearize, order]
    cases linearize (places nodes) <;> simp [Except.mapError]
  · obtain ⟨t, ht⟩ := hgroups h
    refine ⟨t, ht, fun u hu => ht.unique hu, ?_, ?_, ?_⟩
    · rw [order, ht.linearize_eq]
      rfl
    · rw [ht.values_steps]
      exact values_places_ascending nodes
    · intro i
      rw [ht.values_steps]
      exact mem_values_places
  · rw [hshape, Formula.isFormula_iff_linearize] at h
    cases hsteps : linearize (places nodes) with
    | error fault => exact ⟨fault, by rw [order, hsteps]; rfl⟩
    | ok steps => exact absurd ⟨steps, hsteps⟩ h
  · rintro α value e rfl
    rw [← map_places, Formula.linearize_map, order]
    cases linearize (places e.nodes) <;> rfl

/-- `1 OR 2 = 3 + 4 * (5 - 6) % 7`. -/
example :
    order [.number 1, .operator .or, .number 2, .operator .equal, .number 3, .operator .plus,
      .number 4, .operator .times, .openParen, .number 5, .operator .minus, .number 6, .closeParen,
      .operator .remainder, .number 7] =
    .ok [.value 0, .value 2, .value 4, .value 6, .value 9, .value 11, .operator .minus,
      .operator .times, .value 14, .operator .remainder, .operator .plus, .operator .equal,
      .operator .or] := rfl

end Node

end SqlEngine
