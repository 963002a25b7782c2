import SqlEngine.Proofs.Formula.Tree

/-!
# Formulas — grammar

Which sequences of parts are formulas, said without a reader.  An operand is a value or a formula in
parentheses, and a formula is one operand, or a formula, an operator and one more operand; so it is
never empty, its parentheses are balanced, and operands and operators alternate in it and in each
of its groups.

* `isFormula_iff_tree`, `isFormula_iff_linearize`: the formulas are the sequences that have a tree,
  and those that have steps.
* `linearize_values`: the steps take the values of a formula in their order, each of them once.
-/

namespace SqlEngine

variable {α β : Type}

def Item.value? : Item α → Option α
  | .value a => some a
  | _        => none

def Step.value? : Step α → Option α
  | .value a    => some a
  | .operator _ => none

namespace Formula

mutual

/-- One operand: a value, or a formula in parentheses. -/
inductive IsOperand : List (Item α) → Prop
  | value (a : α) : IsOperand [.value a]
  | group {items : List (Item α)} (h : IsFormula items) :
      IsOperand (.openParen :: items ++ [.closeParen])

/-- Operands with an operator between each two of them. -/
inductive IsFormula : List (Item α) → Prop
  | operand {items : List (Item α)} (h : IsOperand items) : IsFormula items
  | operator {left right : List (Item α)} (op : Operator) (hleft : IsFormula left)
      (hright : IsOperand right) : IsFormula (left ++ .operator op :: right)

end

variable {items left : List (Item α)}

/-- Two formulas with an operator between them are one. -/
theorem IsFormula.append (hleft : IsFormula left) (op : Operator) : ∀ {right : List (Item α)},
    IsFormula right → IsFormula (left ++ .operator op :: right)
  | _, .operand h => .operator op hleft h
  | _, .operator op' hfirst hlast => by
    have h := (IsFormula.append hleft op hfirst).operator op' hlast
    rwa [List.append_assoc] at h

mutual

theorem IsOperand.ne_nil {items : List (Item α)} : IsOperand items → items ≠ []
  | .value a => by simp
  | .group h => by simp

theorem IsFormula.ne_nil {items : List (Item α)} : IsFormula items → items ≠ []
  | .operand h         => h.ne_nil
  | .operator op hl hr => by simp

end

/-! ### Formulas and trees -/

mutual

theorem IsOperand.exists_tree {items : List (Item α)} : IsOperand items →
    ∃ t : Tree α, t.Tiered ∧ t.rank = Tier.product.rank + 1 ∧ t.items = items
  | .value a => ⟨.leaf a, trivial, rfl, rfl⟩
  | .group h => by
    obtain ⟨t, ht, rfl⟩ := h.exists_tree
    exact ⟨.group t, ht, rfl, rfl⟩

theorem IsFormula.exists_tree {items : List (Item α)} : IsFormula items →
    ∃ t : Tree α, t.Tiered ∧ t.items = items
  | .operand h => by
    obtain ⟨t, ht, -, hitems⟩ := h.exists_tree
    exact ⟨t, ht, hitems⟩
  | .operator op hl hr => by
    obtain ⟨t, ht, rfl⟩ := hl.exists_tree
    obtain ⟨x, hx, hrank, rfl⟩ := hr.exists_tree
    have hop := Tree.tier_rank_le op
    exact ⟨t.attach op x, ht.attach hx (by omega), Tree.items_attach op x t⟩

end

/-- What is written for a tree is a formula. -/
theorem isFormula_items (t : Tree α) : IsFormula t.items := by
  induction t with
  | leaf a => exact .operand (.value a)
  | group t ih => exact .operand (.group ih)
  | node op left right ihl ihr => exact ihl.append op ihr

/-- **The formulas** are the sequences that have a tree. -/
theorem isFormula_iff_tree : IsFormula items ↔ ∃ t, tree? items = some t := by
  constructor
  · intro h
    obtain ⟨t, ht⟩ := h.exists_tree
    exact ⟨t, tree?_eq_some_iff.2 ht⟩
  · rintro ⟨t, ht⟩
    obtain ⟨-, rfl⟩ := tree?_eq_some_iff.1 ht
    exact isFormula_items t

/-- They are also the sequences that can be put into the order of evaluation. -/
theorem isFormula_iff_linearize : IsFormula items ↔ ∃ steps, linearize items = .ok steps := by
  simp only [isFormula_iff_tree, linearize_eq_ok_iff]
  exact ⟨fun ⟨t, ht⟩ => ⟨t.steps, t, ht, rfl⟩, fun ⟨_, t, ht, _⟩ => ⟨t, ht⟩⟩

/-- Whether a sequence is a formula does not depend on its values. -/
theorem IsFormula.of_rel {R : α → β → Prop} {others : List (Item β)} (h : IsFormula items)
    (hrel : List.Forall₂ (Item.Rel R) items others) : IsFormula others := by
  obtain ⟨t, ht⟩ := isFormula_iff_tree.1 h
  obtain ⟨u, hu, -⟩ := tree?_rel hrel ht
  exact isFormula_iff_tree.2 ⟨u, hu⟩

/-! ### Values -/

theorem Tree.values_steps (t : Tree α) :
    t.steps.filterMap Step.value? = t.items.filterMap Item.value? := by
  induction t with
  | leaf a => rfl
  | group t ih => simp [Tree.steps, Tree.items, List.filterMap_cons, Item.value?, ih]
  | node op left right ihl ihr =>
    simp [Tree.steps, Tree.items, List.filterMap_cons, Item.value?, Step.value?, ihl, ihr]

/-- **The steps of a formula take its values in their order**, each of them once. -/
theorem linearize_values {steps : List (Step α)} (h : linearize items = .ok steps) :
    steps.filterMap Step.value? = items.filterMap Item.value? := by
  obtain ⟨t, ht, rfl⟩ := linearize_eq_ok_iff.1 h
  obtain ⟨-, rfl⟩ := tree?_eq_some_iff.1 ht
  exact t.values_steps

end Formula

end SqlEngine
