import SqlEngine.Proofs.Hashing
import SqlEngine.Proofs.Order
import SqlEngine.Proofs.Value.Operators

/-!
# Values — comparisons

Values are compared in three ways: by the total order (`Value.compare`), by the equality of rows
(`Value.same`), and by the six operators, of which `=` and `<>` ask for equality (`Value.equals`)
and the others for an order (`Value.order`).  The total order and the equality of rows go together
for all values.  The operators go together as well, but for two NaNs: these are at one place of the
order, as they are the same for the equality of rows, and `=` holds them apart.

* `Value.compare_eq_iff_same`: the values at one place of the order are the same.
* `Value.compare_preorder`: the order is total, kind by kind, with NaN behind the other numbers.
* `Value.comparisons_agree`: what the six operators say of two values.
-/

namespace SqlEngine

/-! ### Numbers -/

namespace Number

variable {x y : Float}

theorem beq_eq_false_left (h : x.isNaN = true) : (x == y) = false := by
  obtain rfl := of_decide_eq_true (Float.isNaN_eq_decide_eq_nan ▸ h)
  exact Float.nan_beq_eq_false y

theorem beq_eq_false_right (h : y.isNaN = true) : (x == y) = false := by
  obtain rfl := of_decide_eq_true (Float.isNaN_eq_decide_eq_nan ▸ h)
  exact Float.beq_nan_eq_false x

theorem not_lt_of_beq (h : (x == y) = true) : ¬x < y := by
  rw [beq_eq] at h
  rw [lt_iff_compare, beq_iff_eq.1 h]
  decide

/-- **Numbers at one place of the order are the same**: both zeros, and NaN and NaN. -/
theorem compare_eq_iff_same : compare x y = .eq ↔ same x y = true := by
  rw [compare, same]
  cases hx : x.isNaN with
  | true =>
    rw [beq_eq_false_left hx]
    cases y.isNaN <;> simp
  | false =>
    cases hy : y.isNaN with
    | true => simp [beq_eq_false_right hy]
    | false =>
      by_cases heq : (x == y) = true
      · simp [heq, not_lt_of_beq heq]
      · by_cases hlt : x < y <;> simp [heq, hlt]

/-- Unless both are NaN, the same numbers are equal. -/
theorem same_eq_beq (h : ¬(x.isNaN = true ∧ y.isNaN = true)) : same x y = (x == y) := by
  rw [same, Bool.eq_false_iff.2 (mt Bool.and_eq_true_iff.1 h), Bool.false_or]

/-- Numbers are equal when they are at one place of the order and are not both NaN. -/
theorem beq_eq_isEq_compare (x y : Float) :
    (x == y) = ((compare x y).isEq && !(x.isNaN && y.isNaN)) := by
  by_cases h : x.isNaN = true ∧ y.isNaN = true
  · rw [beq_eq_false_left h.1, h.1, h.2]
    simp
  · rw [← same_eq_beq h, Bool.eq_false_iff.2 (mt Bool.and_eq_true_iff.1 h), Bool.not_false,
      Bool.and_true, Bool.eq_iff_iff, ← compare_eq_iff_same]
    exact Ordering.isEq_iff_eq_eq.symm

/-- NaN comes behind every other number. -/
theorem compare_nan (hx : x.isNaN = false) (hy : y.isNaN = true) : compare x y = .lt := by
  rw [compare, hx, hy]

end Number

/-! ### The total order -/

/-- Instants at one place of the order are equal. -/
theorem Date.Instant.compare_eq_iff_eq {i j : Date.Instant} : i.compare j = .eq ↔ i = j := by
  obtain ⟨seconds, nanos⟩ := i
  obtain ⟨seconds', nanos'⟩ := j
  simp [compare, Ordering.then_eq_eq]

namespace Value

variable {a b c : Value}

/-- The kinds in their order. -/
def kindOrder : List DataType :=
  [.null, .boolean, .number, .text, .date]

theorem mem_kindOrder (t : DataType) : t ∈ kindOrder := by
  cases t <;> decide

theorem rank_eq_idxOf (a : Value) : a.rank = kindOrder.idxOf a.kind := by
  cases a <;> rfl

theorem compareText_eq_iff_eq {s t : String} : compareText s t = .eq ↔ s = t :=
  (compare_eq_iff_eq : Ord.compare s t = .eq ↔ s = t)

/-- **Values at one place of the order are the same.** -/
theorem compare_eq_iff_same (a b : Value) : a.compare b = .eq ↔ a.same b = true := by
  by_cases hrank : a.rank = b.rank
  · cases a <;> cases b <;> cases hrank
    case null.null.refl => exact iff_of_true rfl rfl
    case number.number.refl x y => exact Number.compare_eq_iff_same
    case text.text.refl s t => exact compareText_eq_iff_eq.trans beq_iff_eq.symm
    case boolean.boolean.refl p q =>
      exact (compare_eq_iff_eq : Ord.compare p q = .eq ↔ p = q).trans beq_iff_eq.symm
    case date.date.refl d e => exact Date.Instant.compare_eq_iff_eq.trans beq_iff_eq.symm
  · have hsame : a.same b ≠ true := fun h => by
      rcases same_iff.1 h with rfl | ⟨x, y, rfl, rfl, -⟩
      · exact hrank rfl
      · exact hrank rfl
    rw [compare_of_rank_ne hrank]
    exact iff_of_false (mt Nat.compare_eq_eq.1 hrank) hsame

/-- Values of different kinds are in the order of their kinds. -/
theorem compare_of_kind_ne (h : a.kind ≠ b.kind) :
    a.compare b = .lt ↔ kindOrder.idxOf a.kind < kindOrder.idxOf b.kind := by
  have hrank : a.rank ≠ b.rank := by
    rw [rank_eq_idxOf, rank_eq_idxOf]
    exact mt (List.idxOf_inj (mem_kindOrder a.kind)).1 h
  rw [compare_of_rank_ne hrank, Nat.compare_eq_lt, rank_eq_idxOf, rank_eq_idxOf]

/-- What is not after a value is not after the values that this one is not after. -/
theorem compare_ne_gt_trans (hab : a.compare b ≠ .gt) (hbc : b.compare c ≠ .gt) :
    a.compare c ≠ .gt :=
  Ordering.isLE_iff_ne_gt.1
    (Std.TransCmp.isLE_trans (Ordering.ne_gt_iff_isLE.1 hab) (Ordering.ne_gt_iff_isLE.1 hbc))

/-- **The order of values is a total preorder that agrees with their equality.**  Swapped values
compare the other way, "not after" is transitive, and the values at one place are the same ones.
Values of different kinds are in the order of the kinds, and NaN is behind every other number. -/
theorem compare_preorder (a b c : Value) :
    a.compare b = (b.compare a).swap ∧
      (a.compare b ≠ .gt → b.compare c ≠ .gt → a.compare c ≠ .gt) ∧
      (a.compare b = .eq ↔ a.same b = true) ∧
      (a.kind ≠ b.kind →
        (a.compare b = .lt ↔ kindOrder.idxOf a.kind < kindOrder.idxOf b.kind)) ∧
      ∀ x y : Float, x.isNaN = false → y.isNaN = true → (number x).compare (number y) = .lt :=
  ⟨compare_swap a b, compare_ne_gt_trans, compare_eq_iff_same a b, compare_of_kind_ne,
    fun _ _ => Number.compare_nan⟩

/-- TRUE, infinity and NaN are in this order. -/
theorem trueInfinityNaN_preorder :
    (boolean true).compare (number (0 / 0)) ≠ .gt ∧
      ((boolean true).compare (number (1 / 0)) = .lt ↔
        kindOrder.idxOf .boolean < kindOrder.idxOf .number) ∧
      (number (1 / 0)).compare (number (0 / 0)) = .lt := by
  have h := compare_preorder (boolean true) (number (1 / 0)) (number (0 / 0))
  have hnan : (number (1 / 0)).compare (number (0 / 0)) = .lt :=
    h.2.2.2.2 (1 / 0) (0 / 0) (by decide) (by decide)
  refine ⟨h.2.1 (by decide) ?_, h.2.2.2.1 (by decide), hnan⟩
  rw [hnan]
  decide

/-! ### Comparison operators -/

/-- The value is the number that is none. -/
def isNaN : Value → Bool
  | number x => x.isNaN
  | _        => false

end Value

/-- The answers of the six comparisons of two values. -/
structure Comparisons where
  less : Bool
  equal : Bool
  greater : Bool
  lessEqual : Bool
  greaterEqual : Bool
  notEqual : Bool

namespace Comparisons

/-- The answers for an order and an equality. -/
def of (o : Ordering) (equal : Bool) : Comparisons :=
  ⟨o.isLT, equal, o.isGT, o.isLE, o.isGE, !equal⟩

/-- The answers when the values are swapped. -/
def swap (c : Comparisons) : Comparisons :=
  ⟨c.greater, c.equal, c.less, c.greaterEqual, c.lessEqual, c.notEqual⟩

/-- The answers are those of one relation: before, equal or after. -/
structure Consistent (c : Comparisons) : Prop where
  exactlyOne : [c.less, c.equal, c.greater].count true = 1
  lessEqual : c.lessEqual = (c.less || c.equal)
  greaterEqual : c.greaterEqual = (c.greater || c.equal)

theorem swap_of (o : Ordering) (equal : Bool) : (of o equal).swap = of o.swap equal := by
  cases o <;> rfl

/-- The answers are consistent iff equality is the place in the order. -/
theorem consistent_of_iff {o : Ordering} {equal : Bool} :
    (of o equal).Consistent ↔ equal = o.isEq := by
  constructor
  · intro h
    have hone := h.exactlyOne
    cases o <;> cases equal <;> first
      | rfl
      | cases hone
  · rintro rfl
    cases o <;> exact ⟨rfl, rfl, rfl⟩

end Comparisons

namespace Value

variable {a b : Value}

/-- All six comparisons of two values succeed, with these answers. -/
structure Compares (a b : Value) (c : Comparisons) : Prop where
  less : a.apply .less b = .ok (.boolean c.less)
  equal : a.apply .equal b = .ok (.boolean c.equal)
  greater : a.apply .greater b = .ok (.boolean c.greater)
  lessEqual : a.apply .lessEqual b = .ok (.boolean c.lessEqual)
  greaterEqual : a.apply .greaterEqual b = .ok (.boolean c.greaterEqual)
  notEqual : a.apply .notEqual b = .ok (.boolean c.notEqual)

theorem Compares.unique {c d : Comparisons} (hc : a.Compares b c) (hd : a.Compares b d) :
    c = d := by
  have answer {x : Except Error Value} {p q : Bool} (hp : x = .ok (.boolean p))
      (hq : x = .ok (.boolean q)) : p = q :=
    Value.boolean.inj (Except.ok.inj (hp.symm.trans hq))
  obtain ⟨less, equal, greater, lessEqual, greaterEqual, notEqual⟩ := c
  rw [Comparisons.mk.injEq]
  exact ⟨answer hc.less hd.less, answer hc.equal hd.equal, answer hc.greater hd.greater,
    answer hc.lessEqual hd.lessEqual, answer hc.greaterEqual hd.greaterEqual,
    answer hc.notEqual hd.notEqual⟩

/-- The order that the operators ask for is one. -/
theorem order_congr {op : Operator} {o : Ordering} (h : order op a b = .ok o) (op' : Operator) :
    order op' a b = .ok o := by
  cases a <;> cases b <;> first
    | exact h
    | cases h

theorem order_swap {op : Operator} {o : Ordering} (h : order op a b = .ok o) :
    order op b a = .ok o.swap := by
  cases a <;> cases b <;> cases h
  case number.number.refl x y =>
    exact congrArg Except.ok (Std.OrientedCmp.eq_swap : Number.compare y x = _)
  all_goals rfl

/-- **What is ordered can be equal**, and is iff it is at one place of the order, unless both
are NaN. -/
theorem equals_of_order {op : Operator} {o : Ordering} (h : order op a b = .ok o) :
    equals a b = .ok (o.isEq && !(a.isNaN && b.isNaN)) := by
  cases a <;> cases b <;> cases h
  case number.number.refl x y => exact congrArg Except.ok (Number.beq_eq_isEq_compare x y)
  all_goals rfl

/-- Two NaNs are at one place of the order. -/
theorem order_of_isNaN (op : Operator) (ha : a.isNaN = true) (hb : b.isNaN = true) :
    order op a b = .ok .eq := by
  cases a <;> try cases ha
  cases b <;> try cases hb
  case number.number x y =>
    have hboth : (x.isNaN && y.isNaN) = true := Bool.and_eq_true_iff.2 ⟨ha, hb⟩
    have hsame : Number.same x y = true := by rw [Number.same, hboth, Bool.true_or]
    exact congrArg Except.ok (Number.compare_eq_iff_same.2 hsame)

/-- Values that can be ordered are. -/
theorem exists_order (op : Operator) (h : Operator.Ordered a.kind b.kind) :
    ∃ o, order op a b = .ok o := by
  cases a <;> cases b <;> first
    | exact ⟨_, rfl⟩
    | simp [Operator.Ordered, kind] at h

theorem less_iff_ordered :
    (∃ v, a.apply .less b = .ok v) ↔ Operator.Ordered a.kind b.kind := by
  constructor
  · rintro ⟨v, hv⟩
    obtain ⟨o, ho, -⟩ := map_eq_ok_iff.1 hv
    exact order_eq_ok ho
  · intro h
    obtain ⟨o, ho⟩ := exists_order .less h
    exact ⟨_, map_eq_ok_iff.2 ⟨o, ho, rfl⟩⟩

theorem Compares.of {o : Ordering} {p : Bool} (ho : order .less a b = .ok o)
    (he : equals a b = .ok p) : a.Compares b (.of o p) := by
  have hany := order_congr ho
  constructor
  case less | greater | lessEqual | greaterEqual =>
    simp only [apply, hany]
    rfl
  case equal | notEqual =>
    simp only [apply, he]
    rfl

/-- **What the six comparisons say of two values that `<` takes**, which are NULL and any value, and
two numbers.  All of them take the values, swapped values are compared the other way, and `<>` is
the opposite of `=`.  The answers are consistent, unless both values are NaN: as NaN is equal to no
number, two of them are neither before each other nor equal. -/
theorem comparisons_agree (a b : Value) :
    ((∃ v, a.apply .less b = .ok v) ↔ Operator.Ordered a.kind b.kind) ∧
      ∀ v, a.apply .less b = .ok v →
        ∃ c, a.Compares b c ∧ b.Compares a c.swap ∧ c.notEqual = !c.equal ∧
          (¬(a.isNaN = true ∧ b.isNaN = true) → c.Consistent) ∧
          (a.isNaN = true → b.isNaN = true →
            c.less = false ∧ c.equal = false ∧ c.greater = false) := by
  refine ⟨less_iff_ordered, fun v h => ?_⟩
  obtain ⟨o, ho, -⟩ := map_eq_ok_iff.1 h
  have hequal := equals_of_order ho
  have hswap := equals_of_order (order_swap ho)
  rw [Ordering.isEq_swap, Bool.and_comm b.isNaN] at hswap
  refine ⟨_, .of ho hequal, ?swapped, rfl, ?consistent, ?nan⟩
  case swapped =>
    rw [Comparisons.swap_of]
    exact .of (order_swap ho) hswap
  case consistent =>
    intro hnan
    rw [Comparisons.consistent_of_iff, Bool.eq_false_iff.2 (mt Bool.and_eq_true_iff.1 hnan),
      Bool.not_false, Bool.and_true]
  case nan =>
    intro ha hb
    cases (order_of_isNaN .less ha hb).symm.trans ho
    rw [ha, hb]
    exact ⟨rfl, rfl, rfl⟩

/-- Infinity is before NaN, and is told apart from it by every comparison. -/
theorem infinityNaN_agree :
    ∃ c, (number (1 / 0)).Compares (number (0 / 0)) c ∧
      (number (0 / 0)).Compares (number (1 / 0)) c.swap ∧ c.less = true ∧ c.Consistent := by
  have hless : (number (1 / 0)).apply .less (number (0 / 0)) = .ok (boolean true) :=
    congrArg (fun o : Ordering => Except.ok (boolean o.isLT))
      (by decide : Number.compare (1 / 0) (0 / 0) = .lt)
  obtain ⟨c, hc, hswap, -, hconsistent, -⟩ := (comparisons_agree _ _).2 _ hless
  refine ⟨c, hc, hswap, ?_, hconsistent (by decide)⟩
  exact Value.boolean.inj (Except.ok.inj (hc.less.symm.trans hless))

/-- The difference of two overflowing products is neither before itself, nor equal to itself, nor
behind itself. -/
theorem overflowDifference_inconsistent :
    ∃ infinity nan : Value,
      apply .times (number 1e308) (number 1e308) = .ok infinity ∧
      apply .minus infinity infinity = .ok nan ∧
      nan.apply .less nan = .ok (boolean false) ∧
      nan.apply .equal nan = .ok (boolean false) ∧
      nan.apply .greater nan = .ok (boolean false) ∧
      ¬∃ c, nan.Compares nan c ∧ c.Consistent := by
  refine ⟨number (1e308 * 1e308), number (1e308 * 1e308 - 1e308 * 1e308), rfl, rfl, ?_⟩
  have hnan : (number (1e308 * 1e308 - 1e308 * 1e308)).isNaN = true := by decide +kernel
  have hcompares := Compares.of (order_of_isNaN .less hnan hnan)
    (equals_of_order (order_of_isNaN .less hnan hnan))
  rw [hnan] at hcompares
  refine ⟨hcompares.less, hcompares.equal, hcompares.greater, ?_⟩
  rintro ⟨c, hc, hconsistent⟩
  cases hc.unique hcompares
  exact Nat.noConfusion hconsistent.exactlyOne

end Value

end SqlEngine
