import Mathlib.Data.List.Forall2
import SqlEngine.Formula

/-!
# Formulas — operator trees

What a formula stands for.  A tree is *tiered* when every operator groups to the left within its
tier and takes only tighter operators on its right; parentheses protect the tree inside them.  So a
formula has at most one tiered tree.

* `tree?_eq_some_iff`: `tree?` finds the tiered tree whose parts are the formula, if there is one.
* `linearize_eq_ok_iff`: the steps of a formula are those of its tree, left operand first, and a
  formula without a tree has none.
* `typeOf_eq_ok_iff`: the type of a formula is the type of its tree.
-/

namespace SqlEngine

/-- Parts that differ in their values only, and there as `R` says. -/
inductive Item.Rel {α β : Type} (R : α → β → Prop) : Item α → Item β → Prop
  | value {a : α} {b : β} (h : R a b) : Rel R (.value a) (.value b)
  | operator (op : Operator) : Rel R (.operator op) (.operator op)
  | openParen : Rel R .openParen .openParen
  | closeParen : Rel R .closeParen .closeParen

theorem Item.Rel.imp {α β : Type} {R S : α → β → Prop} (hRS : ∀ a b, R a b → S a b) {x : Item α}
    {y : Item β} (h : Item.Rel R x y) : Item.Rel S x y := by
  cases h with
  | value h => exact .value (hRS _ _ h)
  | operator op => exact .operator op
  | openParen => exact .openParen
  | closeParen => exact .closeParen

namespace Formula

variable {α β : Type}

/-- A tree of operators over values of type `α`; `group` is a tree in parentheses. -/
inductive Tree (α : Type)
  | leaf (a : α)
  | group (t : Tree α)
  | node (op : Operator) (left right : Tree α)

namespace Tree

/-- The parts of the formula that is written for the tree. -/
def items : Tree α → List (Item α)
  | leaf a             => [.value a]
  | group t            => .openParen :: t.items ++ [.closeParen]
  | node op left right => left.items ++ .operator op :: right.items

/-- The steps of evaluation: left operand, right operand, operator. -/
def steps : Tree α → List (Step α)
  | leaf a             => [.value a]
  | group t            => t.steps
  | node op left right => left.steps ++ (right.steps ++ [.operator op])

/-- How tightly the operator on top binds; a value and a group bind tighter than any operator. -/
def rank : Tree α → Nat
  | leaf _ | group _ => Tier.product.rank + 1
  | node op _ _      => op.tier.rank

/-- Left operands bind at least as tightly as their operator, and right operands tighter. -/
def Tiered : Tree α → Prop
  | leaf _             => True
  | group t            => t.Tiered
  | node op left right =>
    left.Tiered ∧ right.Tiered ∧ op.tier.rank ≤ left.rank ∧ op.tier.rank < right.rank

/-- The tree after an operator and its right operand: they go below the looser operators on the
right edge. -/
def attach : Tree α → Operator → Tree α → Tree α
  | node top left right, op, x =>
    if top.tier.rank < op.tier.rank then node top left (right.attach op x)
    else node op (node top left right) x
  | t, op, x => node op t x

end Tree

/-- What is read of a group: the tree so far, and the operator whose right operand is due. -/
structure Partial (α : Type) where
  tree : Option (Tree α)
  due : Option Operator

/-- An operand comes to the group. -/
def Partial.take (x : Tree α) : Partial α → Option (Partial α)
  | ⟨none, none⟩      => some ⟨some x, none⟩
  | ⟨some t, some op⟩ => some ⟨some (t.attach op x), none⟩
  | _                 => none

/-- Reads the parts into a tree; `outer` are the groups around the one that is read. -/
def grow : Partial α → List (Partial α) → List (Item α) → Option (Tree α)
  | g,                outer,      .value a :: items     => do grow (← g.take (.leaf a)) outer items
  | g,                outer,      .openParen :: items   => grow ⟨none, none⟩ (g :: outer) items
  | ⟨some t, none⟩,   g :: outer, .closeParen :: items  => do
    grow (← g.take (.group t)) outer items
  | ⟨some t, none⟩,   outer,      .operator op :: items => grow ⟨some t, some op⟩ outer items
  | ⟨some t, none⟩,   [],         []                    => some t
  | _,                _,          _                     => none

/-- The tree of a formula, if it is well formed. -/
def tree? (items : List (Item α)) : Option (Tree α) :=
  grow ⟨none, none⟩ [] items

/-! ### The tiered tree of a formula -/

namespace Tree

theorem tier_rank_le (op : Operator) : op.tier.rank ≤ Tier.product.rank := by
  cases op <;> decide

theorem isMultiplicative_of_le {op : Operator} (h : Tier.product.rank ≤ op.tier.rank) :
    op.isMultiplicative = true := by
  cases op <;> first | rfl | exact absurd h (by decide)

theorem rank_eq_of_product_lt {op : Operator} {t : Tree α} (hop : op.isMultiplicative = true)
    (h : op.tier.rank < t.rank) : t.rank = Tier.product.rank + 1 := by
  cases t with
  | leaf a => rfl
  | group t => rfl
  | node top left right =>
    have := tier_rank_le top
    rw [(Operator.isMultiplicative_iff op).1 hop] at h
    simp only [rank] at h
    omega

theorem items_attach (op : Operator) (x t : Tree α) :
    (t.attach op x).items = t.items ++ .operator op :: x.items := by
  induction t with
  | leaf a => rfl
  | group t => rfl
  | node top left right _ ih =>
    simp only [attach]
    split
    · simp only [items, ih, List.append_assoc, List.cons_append]
    · rfl

/-- The operator that is attached, or a looser one, is on top. -/
theorem rank_attach (op : Operator) (x t : Tree α) :
    (t.attach op x).rank = min t.rank op.tier.rank := by
  have hop := tier_rank_le op
  cases t with
  | leaf a => simp only [attach, rank]; omega
  | group t => simp only [attach, rank]; omega
  | node top left right => simp only [attach]; split <;> simp only [rank] <;> omega

theorem Tiered.attach {op : Operator} {x t : Tree α} (ht : t.Tiered) (hx : x.Tiered)
    (h : op.tier.rank < x.rank) : (t.attach op x).Tiered := by
  have hop := tier_rank_le op
  induction t with
  | leaf a => exact ⟨ht, hx, by simp only [rank]; omega, h⟩
  | group t => exact ⟨ht, hx, by simp only [rank]; omega, h⟩
  | node top left right _ ih =>
    simp only [Tree.attach]
    split
    next hlt =>
      obtain ⟨hl, hr, hle, hright⟩ := ht
      refine ⟨hl, ih hr, hle, ?_⟩
      rw [rank_attach]
      omega
    next hge => exact ⟨ht, hx, by simp only [rank]; omega, h⟩

/-- An operator that binds no tighter than the tree goes on top. -/
theorem attach_of_le {op : Operator} {x t : Tree α} (h : op.tier.rank ≤ t.rank) :
    t.attach op x = node op t x := by
  cases t with
  | leaf a => rfl
  | group t => rfl
  | node top left right =>
    simp only [rank] at h
    simp only [attach, if_neg (Nat.not_lt.2 h)]

/-- A tiered right operand may be attached operator by operator. -/
theorem attach_attach {op inner : Operator} {x y t : Tree α} (hlt : op.tier.rank < inner.tier.rank)
    (hx : inner.tier.rank ≤ x.rank) :
    (t.attach op x).attach inner y = t.attach op (node inner x y) := by
  induction t with
  | leaf a => simp only [attach, if_pos hlt, attach_of_le hx]
  | group t => simp only [attach, if_pos hlt, attach_of_le hx]
  | node top left right _ ih =>
    by_cases h : top.tier.rank < op.tier.rank
    · simp only [attach, if_pos h, if_pos (Nat.lt_trans h hlt), ih]
    · simp only [attach, if_neg h, if_pos hlt, attach_of_le hx]

end Tree

/-- The tree binds tighter than the operator that an operand is due for. -/
def Partial.Admits (g : Partial α) (t : Tree α) : Prop :=
  ∀ op, g.due = some op → op.tier.rank < t.rank

theorem Partial.admits_empty (t : Tree α) : Partial.Admits ⟨none, none⟩ t := by
  intro op h
  cases h

theorem Partial.admits_due (read : Option (Tree α)) {op : Operator} {t : Tree α}
    (h : op.tier.rank < t.rank) : Partial.Admits ⟨read, some op⟩ t := by
  intro due hdue
  obtain rfl := Option.some.inj hdue
  exact h

/-- A tiered tree is read as one operand. -/
theorem grow_items {t : Tree α} (ht : t.Tiered) : ∀ {g g' : Partial α}, g.Admits t →
    g.take t = some g' → ∀ (outer : List (Partial α)) (rest : List (Item α)),
    grow g outer (t.items ++ rest) = grow g' outer rest := by
  induction t with
  | leaf a =>
    intro g g' _ hg outer rest
    simp only [Tree.items, List.cons_append, List.nil_append, grow, hg]
    rfl
  | group t ih =>
    intro g g' _ hg outer rest
    have inner := ih ht (Partial.admits_empty t) rfl (g :: outer) (.closeParen :: rest)
    simp only [Tree.items, List.cons_append, List.append_assoc, List.nil_append, grow, inner, hg]
    rfl
  | node op left right ihl ihr =>
    intro g g' hadm hg outer rest
    obtain ⟨hl, hr, hle, hlt⟩ := ht
    have readRight (t : Tree α) := ihr hr (Partial.admits_due (some t) hlt) rfl outer rest
    -- after the left operand the operator is due, and what was due before it is below it
    match g, hg with
    | ⟨none, none⟩, hg =>
      obtain rfl : ⟨some (.node op left right), none⟩ = g' := Option.some.inj hg
      have readLeft := ihl hl (Partial.admits_empty left) rfl outer
        (.operator op :: (right.items ++ rest))
      simp only [Tree.items, List.cons_append, List.append_assoc, readLeft, grow, readRight,
        Tree.attach_of_le hle]
    | ⟨some t, some due⟩, hg =>
      obtain rfl : ⟨some (t.attach due (.node op left right)), none⟩ = g' := Option.some.inj hg
      have hdue : due.tier.rank < op.tier.rank := hadm due rfl
      have readLeft := ihl hl (Partial.admits_due (some t) (Nat.lt_of_lt_of_le hdue hle)) rfl outer
        (.operator op :: (right.items ++ rest))
      simp only [Tree.items, List.cons_append, List.append_assoc, readLeft, grow, readRight,
        Tree.attach_attach hdue hle]

theorem tree?_items {t : Tree α} (ht : t.Tiered) : tree? t.items = some t := by
  have h := grow_items ht (Partial.admits_empty t) rfl [] []
  rw [List.append_nil] at h
  exact h

/-- The parts that were read into a group. -/
def Partial.items (g : Partial α) : List (Item α) :=
  (g.tree.map Tree.items).getD [] ++ g.due.toList.map .operator

/-- The parts that were read into a group and the groups around it. -/
def readItems (g : Partial α) : List (Partial α) → List (Item α)
  | []           => g.items
  | around :: gs => readItems around gs ++ .openParen :: g.items

def Partial.Tiered (g : Partial α) : Prop :=
  ∀ t, g.tree = some t → t.Tiered

/-- An operand adds its parts, and keeps the group tiered. -/
theorem Partial.take_items {g g' : Partial α} {x : Tree α} (h : g.take x = some g')
    (hx : x.Tiered) (hrank : x.rank = Tier.product.rank + 1) (hg : g.Tiered) :
    g'.items = g.items ++ x.items ∧ g'.Tiered := by
  match g, h with
  | ⟨none, none⟩, h =>
    obtain rfl : ⟨some x, none⟩ = g' := Option.some.inj h
    exact ⟨by simp [Partial.items], by rintro t ⟨⟩; exact hx⟩
  | ⟨some t, some op⟩, h =>
    obtain rfl : ⟨some (t.attach op x), none⟩ = g' := Option.some.inj h
    refine ⟨by simp [Partial.items, Tree.items_attach], ?_⟩
    rintro u ⟨⟩
    have hop := Tree.tier_rank_le op
    exact (hg t rfl).attach hx (by omega)

theorem readItems_append {g g' : Partial α} {read : List (Item α)}
    (h : g'.items = g.items ++ read) (outer : List (Partial α)) :
    readItems g' outer = readItems g outer ++ read := by
  cases outer with
  | nil => exact h
  | cons around gs => simp only [readItems, h, List.append_assoc, List.cons_append]

/-- What is read is tiered, and no part is lost. -/
theorem grow_eq_some {g : Partial α} {outer : List (Partial α)} {items : List (Item α)}
    {t : Tree α} (h : grow g outer items = some t) (hg : g.Tiered) (ho : ∀ o ∈ outer, o.Tiered) :
    t.Tiered ∧ t.items = readItems g outer ++ items := by
  fun_induction grow g outer items with
  | case1 g outer a items ih =>
    obtain ⟨g', hg', h⟩ := Option.bind_eq_some_iff.1 h
    obtain ⟨hitems, htiered⟩ := Partial.take_items hg' trivial rfl hg
    obtain ⟨ht, heq⟩ := ih g' h htiered ho
    refine ⟨ht, ?_⟩
    rw [heq, readItems_append hitems]
    simp [Tree.items]
  | case2 g outer items ih =>
    obtain ⟨ht, heq⟩ := ih h (by rintro t ⟨⟩) (by
      rintro o (_ | ⟨_, h⟩)
      · exact hg
      · exact ho o h)
    exact ⟨ht, by simp [heq, readItems, Partial.items]⟩
  | case3 x g outer items ih =>
    obtain ⟨g', hg', h⟩ := Option.bind_eq_some_iff.1 h
    obtain ⟨hitems, htiered⟩ :=
      Partial.take_items hg' (hg x rfl) rfl (ho g List.mem_cons_self)
    obtain ⟨ht, heq⟩ := ih g' h htiered fun o hm => ho o (List.mem_cons_of_mem _ hm)
    refine ⟨ht, ?_⟩
    rw [heq, readItems_append hitems]
    simp [Tree.items, readItems, Partial.items]
  | case4 x outer op items ih =>
    obtain ⟨ht, heq⟩ := ih h (by rintro t ⟨⟩; exact hg x rfl) ho
    have hitems : (⟨some x, some op⟩ : Partial α).items =
        (⟨some x, none⟩ : Partial α).items ++ [.operator op] := by simp [Partial.items]
    refine ⟨ht, ?_⟩
    rw [heq, readItems_append hitems]
    simp
  | case5 x =>
    obtain rfl : x = t := Option.some.inj h
    exact ⟨hg x rfl, by simp [readItems, Partial.items]⟩
  | case6 => cases h

/-- **The tree of a formula** is the tiered one that the formula is written for. -/
theorem tree?_eq_some_iff {items : List (Item α)} {t : Tree α} :
    tree? items = some t ↔ t.Tiered ∧ t.items = items := by
  constructor
  · intro h
    obtain ⟨ht, heq⟩ := grow_eq_some h (by rintro t ⟨⟩) (by rintro o ⟨⟩)
    exact ⟨ht, by simpa [readItems, Partial.items] using heq⟩
  · rintro ⟨ht, rfl⟩
    exact tree?_items ht

/-! ### The steps of a formula -/

theorem applied_append (vs ws : List Operator) (done : List (Step α)) :
    applied (vs ++ ws) done = applied ws (applied vs done) := by
  simp [applied]

/-- Reading `t` puts its steps behind those that are done, up to operators `vs` that still wait;
these bind at least as tightly as the operator on top of `t`. -/
def Reads (t : Tree α) (s : State α) : Prop :=
  ∃ vs done, (∀ rest, s.run (t.items ++ rest) =
      State.run ⟨⟨vs ++ s.group.waiting, true, none⟩, s.outer, done⟩ rest) ∧
    applied vs done = t.steps.reverse ++ s.done ∧
    ∀ v ∈ vs, t.rank ≤ v.tier.rank ∧ v.isMultiplicative = false

/-- Reading `t` as the operand of a group settles the group. -/
def ReadsOperand (t : Tree α) (s : State α) : Prop :=
  ∀ rest, s.run (t.items ++ rest) = (settle s.group s.outer (t.steps.reverse ++ s.done)).run rest

/-- A group that is not full and has no operand due settles with nothing left to wait. -/
theorem ReadsOperand.reads {t : Tree α} {s : State α} (h : ReadsOperand t s)
    (hdue : s.group.due = none) : Reads t s := by
  refine ⟨[], t.steps.reverse ++ s.done, fun rest => ?_, rfl, by simp⟩
  rw [h rest]
  simp [settle, hdue]

theorem readsOperand_leaf {a : α} {s : State α} (h : s.group.expectOperand = .ok ()) :
    ReadsOperand (.leaf a) s := by
  intro rest
  simp only [Tree.items, List.cons_append, List.nil_append, State.run, State.read, h]
  rfl

theorem readsOperand_group {t : Tree α} {s : State α} (h : s.group.expectOperand = .ok ())
    (ht : Reads t ⟨.empty, s.group :: s.outer, s.done⟩) : ReadsOperand (.group t) s := by
  intro rest
  obtain ⟨vs, done, hrun, happ, -⟩ := ht
  have opened : s.run ((Tree.group t).items ++ rest) =
      State.run ⟨.empty, s.group :: s.outer, s.done⟩ (t.items ++ .closeParen :: rest) := by
    simp only [Tree.items, List.cons_append, List.append_assoc, List.nil_append, State.run,
      State.read, h]
    rfl
  rw [opened, hrun]
  simp only [State.run, State.read, Group.expectNoneDue, Group.empty, List.append_nil, happ]
  rfl

/-- What waits under a tree binds looser than the tree, so it keeps waiting when an operator of the
tree comes; what the left operand left waiting is applied then. -/
theorem takeWhile_waiting {op : Operator} {vs ws : List Operator}
    (hvs : ∀ v ∈ vs, op.tier.rank ≤ v.tier.rank) (hws : ∀ w ∈ ws, w.tier.rank < op.tier.rank) :
    (vs ++ ws).takeWhile (fun top => op.tier.rank ≤ top.tier.rank) = vs ∧
      (vs ++ ws).dropWhile (fun top => op.tier.rank ≤ top.tier.rank) = ws := by
  have hpos : ∀ v ∈ vs, decide (op.tier.rank ≤ v.tier.rank) = true := by simpa using hvs
  rw [List.takeWhile_append_of_pos hpos, List.dropWhile_append_of_pos hpos]
  cases ws with
  | nil => simp
  | cons w ws =>
    have hw : ¬ op.tier.rank ≤ w.tier.rank := Nat.not_le.2 (hws w List.mem_cons_self)
    simp [hw]

/-- An operator of the tightest tier is applied as soon as its right operand is read; the left
operand has left nothing waiting. -/
theorem reads_product {op : Operator} {left right : Tree α} {s : State α}
    (hop : op.isMultiplicative = true) (hle : op.tier.rank ≤ left.rank) (hl : Reads left s)
    (hr : ∀ s : State α, s.group.expectOperand = .ok () → ReadsOperand right s) :
    Reads (.node op left right) s := by
  obtain ⟨vs, done, hrun, happ, hvs⟩ := hl
  -- what the left operand left waiting binds as tightly as a product, but products never wait
  obtain rfl : vs = [] := by
    refine List.eq_nil_iff_forall_not_mem.2 fun v hv => ?_
    obtain ⟨hrank, hmul⟩ := hvs v hv
    have : Tier.product.rank ≤ v.tier.rank := by
      rw [← (Operator.isMultiplicative_iff op).1 hop]
      exact Nat.le_trans hle hrank
    rw [Tree.isMultiplicative_of_le this] at hmul
    cases hmul
  obtain rfl : done = left.steps.reverse ++ s.done := happ
  refine ⟨[], .operator op :: (right.steps.reverse ++ (left.steps.reverse ++ s.done)),
    fun rest => ?_, ?_, by simp⟩
  · have operand := hr ⟨⟨s.group.waiting, true, some op⟩, s.outer, left.steps.reverse ++ s.done⟩
      rfl rest
    simp only [Tree.items, List.append_assoc, List.cons_append, hrun, List.nil_append, State.run,
      State.read, Group.expectNoneDue, hop]
    exact operand
  · simp [applied, Tree.steps]

/-- Any other operator waits until the right operand is read. -/
theorem reads_waiting {op : Operator} {left right : Tree α} {s : State α}
    (hop : op.isMultiplicative = false) (hle : op.tier.rank ≤ left.rank)
    (hlt : op.tier.rank < right.rank) (hw : ∀ w ∈ s.group.waiting, w.tier.rank < op.tier.rank)
    (hl : Reads left s)
    (hr : ∀ s : State α, s.group.due = none → s.group.full = false →
      (∀ w ∈ s.group.waiting, w.tier.rank ≤ op.tier.rank) → Reads right s) :
    Reads (.node op left right) s := by
  obtain ⟨vs, done, hrun, happ, hvs⟩ := hl
  obtain ⟨htake, hdrop⟩ := takeWhile_waiting (fun v hv => Nat.le_trans hle (hvs v hv).1) hw
  obtain ⟨us, done', hrun', happ', hus⟩ := hr
    ⟨⟨op :: s.group.waiting, false, none⟩, s.outer, applied vs done⟩ rfl rfl (by
      rintro w (_ | ⟨_, hm⟩)
      · exact Nat.le_refl _
      · exact Nat.le_of_lt (hw w hm))
  refine ⟨us ++ [op], done', fun rest => ?_, ?_, ?_⟩
  · simp only [Tree.items, List.append_assoc, List.cons_append, hrun, State.run, State.read,
      Group.expectNoneDue, hop]
    simp only [htake, hdrop]
    exact hrun' rest
  · rw [applied_append, happ', happ]
    simp [applied, Tree.steps]
  · intro v hv
    rcases List.mem_append.1 hv with hv | hv
    · exact ⟨Nat.le_trans (Nat.le_of_lt hlt) (hus v hv).1, (hus v hv).2⟩
    · obtain rfl := List.mem_singleton.1 hv
      exact ⟨Nat.le_refl _, hop⟩

theorem reads_of_tiered {t : Tree α} (ht : t.Tiered) :
    (t.rank = Tier.product.rank + 1 → ∀ s : State α, s.group.expectOperand = .ok () →
      ReadsOperand t s) ∧
    ∀ s : State α, s.group.due = none → s.group.full = false →
      (∀ w ∈ s.group.waiting, w.tier.rank < t.rank) → Reads t s := by
  induction t with
  | leaf a =>
    refine ⟨fun _ s h => readsOperand_leaf h, fun s hdue hfull _ => ?_⟩
    exact (readsOperand_leaf (by simp [Group.expectOperand, hfull])).reads hdue
  | group t ih =>
    have operand (s : State α) (h : s.group.expectOperand = .ok ()) : ReadsOperand (.group t) s :=
      readsOperand_group h ((ih ht).2 _ rfl rfl (by simp [Group.empty]))
    exact ⟨fun _ => operand, fun s hdue hfull _ =>
      (operand s (by simp [Group.expectOperand, hfull])).reads hdue⟩
  | node op left right ihl ihr =>
    obtain ⟨hl, hr, hle, hlt⟩ := ht
    refine ⟨fun h => ?_, fun s hdue hfull hw => ?_⟩
    -- only a value or a group binds tighter than a product
    · have := Tree.tier_rank_le op
      simp only [Tree.rank] at h
      omega
    · have left := (ihl hl).2 s hdue hfull fun w hm => Nat.lt_of_lt_of_le (hw w hm) hle
      cases hop : op.isMultiplicative with
      | true =>
        exact reads_product hop hle left ((ihr hr).1 (Tree.rank_eq_of_product_lt hop hlt))
      | false =>
        refine reads_waiting hop hle hlt hw left fun s hdue hfull hw => (ihr hr).2 s hdue hfull ?_
        exact fun w hm => Nat.lt_of_le_of_lt (hw w hm) hlt

theorem linearize_items {t : Tree α} (ht : t.Tiered) : linearize t.items = .ok t.steps := by
  obtain ⟨vs, done, hrun, happ, -⟩ := (reads_of_tiered ht).2 ⟨.empty, [], []⟩ rfl rfl
    (by simp [Group.empty])
  have h := hrun []
  rw [List.append_nil] at h
  rw [linearize, h]
  simp only [State.run, State.finish, Group.expectNoneDue, Group.empty, List.append_nil, happ]
  simp [bind, Except.bind]

/-- The two readers of a formula agree on what may come next in a group. -/
inductive Agrees : Group → Partial α → Prop
  | start (ws : List Operator) : Agrees ⟨ws, false, none⟩ ⟨none, none⟩
  | full (ws : List Operator) (t : Tree α) : Agrees ⟨ws, true, none⟩ ⟨some t, none⟩
  | waiting (ws : List Operator) (t : Tree α) (op : Operator) :
      Agrees ⟨ws, false, none⟩ ⟨some t, some op⟩
  | due (ws : List Operator) (t : Tree α) (op op' : Operator) :
      Agrees ⟨ws, true, some op⟩ ⟨some t, some op'⟩

/-- The groups around the one that is read wait for it as their operand. -/
def AgreeOuter : List Group → List (Partial α) → Prop :=
  List.Forall₂ fun G g => Agrees G g ∧ G.expectOperand = .ok ()

/-- The two readers agree on a group and on the groups around it. -/
def AgreeState (s : State α) (g : Partial α) (outer : List (Partial α)) : Prop :=
  Agrees s.group g ∧ AgreeOuter s.outer outer

theorem Agrees.settle {G : Group} {g : Partial α} (h : Agrees G g)
    (hG : G.expectOperand = .ok ()) (x : Tree α) {Gs : List Group} {outer : List (Partial α)}
    (hGs : AgreeOuter Gs outer) (done : List (Step α)) :
    ∃ g', g.take x = some g' ∧ AgreeState (Formula.settle G Gs done) g' outer := by
  cases h with
  | start ws => exact ⟨_, rfl, .full _ _, hGs⟩
  | full ws t => cases hG
  | waiting ws t op => exact ⟨_, rfl, .full _ _, hGs⟩
  | due ws t op op' => exact ⟨_, rfl, .full _ _, hGs⟩

/-- A part that the one reader takes is taken by the other, and they agree after it. -/
theorem AgreeState.read {s s' : State α} {g : Partial α} {outer : List (Partial α)}
    (h : AgreeState s g outer) {item : Item α} (hread : s.read item = .ok s') :
    ∃ g' outer', AgreeState s' g' outer' ∧
      ∀ items, grow g outer (item :: items) = grow g' outer' items := by
  obtain ⟨G, Gs, done⟩ := s
  obtain ⟨hG, hGs⟩ := h
  cases item with
  | value a =>
    cases hexp : G.expectOperand with
    | error f => simp [State.read, hexp, bind, Except.bind] at hread
    | ok u =>
      simp only [State.read, hexp] at hread
      obtain rfl := Except.ok.inj hread
      obtain ⟨g', hg', hagree⟩ := hG.settle hexp (.leaf a) hGs (.value a :: done)
      exact ⟨g', outer, hagree, fun items => by simp only [grow, hg']; rfl⟩
  | openParen =>
    cases hexp : G.expectOperand with
    | error f => simp [State.read, hexp, bind, Except.bind] at hread
    | ok u =>
      simp only [State.read, hexp] at hread
      obtain rfl := Except.ok.inj hread
      exact ⟨⟨none, none⟩, g :: outer, ⟨.start [], .cons ⟨hG, hexp⟩ hGs⟩, fun items => by
        simp only [grow]⟩
  | closeParen =>
    -- only a full group is closed
    cases hG with
    | due => cases hread
    | start | waiting => cases hGs <;> cases hread
    | full ws x =>
      cases hGs with
      | nil => cases hread
      | @cons around g rest outer hg hrest =>
        obtain rfl := Except.ok.inj hread
        obtain ⟨g', hg', hagree⟩ := hg.1.settle hg.2 (.group x) hrest (applied ws done)
        exact ⟨g', outer, hagree, fun items => by simp only [grow, hg']; rfl⟩
  | operator op =>
    -- and only a full group takes an operator
    cases hG with
    | start | waiting | due => cases hread
    | full ws x =>
      refine ⟨⟨some x, some op⟩, outer, ?_, fun items => by simp only [grow]⟩
      cases hop : op.isMultiplicative with
      | true =>
        simp only [State.read, hop] at hread
        obtain rfl := Except.ok.inj hread
        exact ⟨.due ws x op op, hGs⟩
      | false =>
        simp only [State.read, hop] at hread
        obtain rfl := Except.ok.inj hread
        exact ⟨.waiting _ x op, hGs⟩

theorem AgreeState.run {steps : List (Step α)} {items : List (Item α)} : ∀ {s : State α}
    {g : Partial α} {outer : List (Partial α)}, AgreeState s g outer →
    s.run items = .ok steps → ∃ t, grow g outer items = some t := by
  induction items with
  | nil =>
    rintro ⟨G, Gs, done⟩ g outer ⟨hG, hGs⟩ h
    cases hGs with
    | cons => cases hG <;> cases h
    | nil =>
      cases hG with
      | full ws t => exact ⟨t, rfl⟩
      | start | waiting | due => cases h
  | cons item items ih =>
    intro s g outer hagree h
    cases hread : s.read item with
    | error f => simp [State.run, hread, bind, Except.bind] at h
    | ok s' =>
      simp only [State.run, hread] at h
      obtain ⟨g', outer', hagree', hgrow⟩ := hagree.read hread
      obtain ⟨t, ht⟩ := ih hagree' h
      exact ⟨t, (hgrow items).trans ht⟩

/-- **The steps of a formula** are those of its tree; a formula without a tree has none. -/
theorem linearize_eq_ok_iff {items : List (Item α)} {steps : List (Step α)} :
    linearize items = .ok steps ↔ ∃ t, tree? items = some t ∧ t.steps = steps := by
  constructor
  · intro h
    obtain ⟨t, ht⟩ := AgreeState.run (s := ⟨.empty, [], []⟩) ⟨.start [], .nil⟩ h
    obtain ⟨htiered, rfl⟩ := tree?_eq_some_iff.1 ht
    rw [linearize_items htiered] at h
    exact ⟨t, ht, Except.ok.inj h⟩
  · rintro ⟨t, ht, rfl⟩
    obtain ⟨htiered, rfl⟩ := tree?_eq_some_iff.1 ht
    exact linearize_items htiered

/-! ### Formulas over related values -/

/-- Trees that differ in their values only, and there as `R` says. -/
inductive Tree.Rel (R : α → β → Prop) : Tree α → Tree β → Prop
  | leaf {a : α} {b : β} (h : R a b) : Rel R (.leaf a) (.leaf b)
  | group {t : Tree α} {u : Tree β} (h : Rel R t u) : Rel R (.group t) (.group u)
  | node (op : Operator) {l r : Tree α} {l' r' : Tree β} (hl : Rel R l l') (hr : Rel R r r') :
      Rel R (.node op l r) (.node op l' r')

namespace Tree

variable {R : α → β → Prop}

theorem Rel.rank_eq {t : Tree α} {u : Tree β} (h : Rel R t u) : t.rank = u.rank := by
  cases h <;> rfl

theorem Rel.tiered {t : Tree α} {u : Tree β} (h : Rel R t u) (ht : t.Tiered) : u.Tiered := by
  induction h with
  | leaf => trivial
  | group _ ih => exact ih ht
  | node op hl hr ihl ihr =>
    obtain ⟨tl, tr, hle, hlt⟩ := ht
    exact ⟨ihl tl, ihr tr, hl.rank_eq ▸ hle, hr.rank_eq ▸ hlt⟩

theorem forall₂_append_left {S : α → β → Prop} {l₁ l₂ : List α} {m : List β}
    (h : List.Forall₂ S (l₁ ++ l₂) m) :
    ∃ m₁ m₂, List.Forall₂ S l₁ m₁ ∧ List.Forall₂ S l₂ m₂ ∧ m = m₁ ++ m₂ :=
  ⟨m.take l₁.length, m.drop l₁.length, (List.forall₂_take_append m l₁ l₂ h.flip).flip,
    (List.forall₂_drop_append m l₁ l₂ h.flip).flip, (List.take_append_drop _ _).symm⟩

/-- Parts that are related to the parts of a tree are the parts of a related tree. -/
theorem exists_rel {t : Tree α} : ∀ {items : List (Item β)},
    List.Forall₂ (Item.Rel R) t.items items → ∃ u, u.items = items ∧ Rel R t u := by
  induction t with
  | leaf a =>
    intro items h
    cases h with
    | cons h hnil =>
      cases h with
      | value hab =>
        cases hnil
        exact ⟨.leaf _, rfl, .leaf hab⟩
  | group t ih =>
    intro items h
    cases h with
    | @cons _ b _ bs hopen h =>
      cases hopen
      obtain ⟨is, js, hi, hj, rfl⟩ := forall₂_append_left h
      obtain ⟨u, rfl, hu⟩ := ih hi
      cases hj with
      | cons hclose hnil =>
        cases hclose
        cases hnil
        exact ⟨.group u, rfl, .group hu⟩
  | node op left right ihl ihr =>
    intro items h
    obtain ⟨is, js, hi, hj, rfl⟩ := forall₂_append_left h
    obtain ⟨l, rfl, hl⟩ := ihl hi
    cases hj with
    | cons hop hj =>
      cases hop
      obtain ⟨r, rfl, hr⟩ := ihr hj
      exact ⟨.node op l r, rfl, .node op hl hr⟩

end Tree

/-- Formulas with related values have related trees. -/
theorem tree?_rel {R : α → β → Prop} {items : List (Item α)} {others : List (Item β)}
    (h : List.Forall₂ (Item.Rel R) items others) {t : Tree α} (ht : tree? items = some t) :
    ∃ u, tree? others = some u ∧ Tree.Rel R t u := by
  obtain ⟨htiered, rfl⟩ := tree?_eq_some_iff.1 ht
  obtain ⟨u, rfl, hu⟩ := Tree.exists_rel h
  exact ⟨u, tree?_items (hu.tiered htiered), hu⟩

/-! ### The type of a formula -/

/-- The type of a tree: that of its top operator for the types of its operands. -/
def Tree.type : Tree DataType → Except Error DataType
  | leaf t             => .ok t
  | group t            => t.type
  | node op left right => do
    let a ← left.type
    let b ← right.type
    match op.resultType a b with
    | .ok t    => .ok t
    | .error _ => .error (.typeMismatch op a b)

/-- Running the steps of a tree leaves its type on the stack. -/
theorem typeSteps_steps (t : Tree DataType) :
    ∀ (stack : List DataType) (rest : List (Step DataType)),
    typeSteps stack (t.steps ++ rest) = t.type >>= fun τ => typeSteps (τ :: stack) rest := by
  induction t with
  | leaf t => intro stack rest; rfl
  | group t ih => exact ih
  | node op left right ihl ihr =>
    intro stack rest
    simp only [Tree.steps, List.append_assoc, ihl, ihr, Tree.type]
    cases hl : left.type with
    | error e => rfl
    | ok a =>
      cases hr : right.type with
      | error e => rfl
      | ok b =>
        simp only [bind, Except.bind, List.cons_append, List.nil_append, typeSteps]
        cases op.resultType a b <;> rfl

/-- **The type of a formula** is that of its tree. -/
theorem typeOf_eq_ok_iff {items : List (Item DataType)} {τ : DataType} :
    typeOf items = .ok τ ↔ ∃ t, tree? items = some t ∧ t.type = .ok τ := by
  have typed (t : Tree DataType) : typeSteps [] t.steps = t.type := by
    have h := typeSteps_steps t [] []
    rw [List.append_nil] at h
    rw [h]
    cases t.type <;> rfl
  constructor
  · intro h
    cases hl : linearize items with
    | error f => simp [typeOf, hl] at h
    | ok steps =>
      obtain ⟨t, ht, rfl⟩ := linearize_eq_ok_iff.1 hl
      simp only [typeOf, hl, typed] at h
      exact ⟨t, ht, h⟩
  · rintro ⟨t, ht, hτ⟩
    rw [typeOf, linearize_eq_ok_iff.2 ⟨t, ht, rfl⟩]
    exact (typed t).trans hτ

end Formula

end SqlEngine
