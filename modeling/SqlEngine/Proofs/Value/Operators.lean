import SqlEngine.Proofs.Value

/-!
# Values — the two tables of the operators

What an operator takes is said twice: `Operator.resultType` says it of kinds, with NULL for what is
not known, and `Value.apply` of values.  Operands that an operator takes are typed, and the result
is of the kind that the typing gives (`Value.resultType_of_apply`).  The other way round the tables
differ at NULL only, which is typed wherever a value may stand: typed operands without NULL are
taken, unless a divisor is zero.

* `Value.apply_eq_error`: an operator fails on a zero divisor, or names the kinds it does not take.
* `Operator.tables_agree`: the two tables agree.
-/

namespace SqlEngine

/-! ### Static typing -/

namespace Operator

variable {op : Operator} {s t : DataType}

/-- A comparison that is typed gives a Boolean. -/
theorem resultType_comparison (hop : op.isComparison = true) (hc : s.compatible t = true)
    (htakes : op.takes (s.unify t) (s.isNull || t.isNull) = true) :
    op.resultType s t = .ok .boolean := by
  rw [resultType, hc, htakes, hop]
  rfl

/-- Kinds that can be ordered: two numbers, or any kind and the unknown one. -/
def Ordered (s t : DataType) : Prop :=
  s = .null ∨ t = .null ∨ s = .number ∧ t = .number

theorem Ordered.compatible (h : Ordered s t) : s.compatible t = true := by
  rcases h with rfl | rfl | ⟨rfl, rfl⟩
  · simp [DataType.compatible, DataType.isNull]
  · simp [DataType.compatible, DataType.isNull]
  · rfl

/-- `<`, `>`, `<=` and `>=` take what can be ordered. -/
theorem Ordered.takes (h : Ordered s t) : ∀ op ∈ [less, greater, lessEqual, greaterEqual],
    op.takes (s.unify t) (s.isNull || t.isNull) = true := by
  have hless : less.takes (s.unify t) (s.isNull || t.isNull) = true := by
    rcases h with rfl | rfl | ⟨rfl, rfl⟩
    · simp [Operator.takes, DataType.isNull]
    · simp [Operator.takes, DataType.isNull]
    · rfl
  simp only [List.forall_mem_cons, List.not_mem_nil, false_imp_iff, implies_true, and_true]
  exact ⟨hless, hless, hless, hless⟩

end Operator

/-! ### Operators on values -/

namespace Value

variable {op : Operator} {a b v : Value} {e : Error}

/-- The operands and the result are of one kind. -/
def AllOf (t : DataType) (a b v : Value) : Prop :=
  a.kind = t ∧ b.kind = t ∧ v.kind = t

theorem add_eq_ok (h : add a b = .ok v) : AllOf .number a b v ∨ AllOf .text a b v := by
  cases a <;> cases b <;> cases h
  case number.number.refl => exact .inl ⟨rfl, rfl, rfl⟩
  case text.text.refl => exact .inr ⟨rfl, rfl, rfl⟩

theorem concat_eq_ok (h : concat a b = .ok v) : AllOf .text a b v := by
  cases a <;> cases b <;> cases h
  exact ⟨rfl, rfl, rfl⟩

theorem arithmetic_eq_ok {f : Float → Float → Except Error Float}
    (h : arithmetic op f a b = .ok v) : AllOf .number a b v := by
  cases a <;> cases b <;> try cases h
  obtain ⟨x, -, rfl⟩ := map_eq_ok_iff.1 h
  exact ⟨rfl, rfl, rfl⟩

theorem logical_eq_ok {f : Bool → Bool → Bool} (h : logical op f a b = .ok v) :
    AllOf .boolean a b v := by
  cases a <;> cases b <;> cases h
  exact ⟨rfl, rfl, rfl⟩

/-- Values that equality takes are of kinds that go together. -/
theorem equals_eq_ok {p : Bool} (h : equals a b = .ok p) : a.kind.compatible b.kind = true := by
  cases a <;> cases b <;> first
    | rfl
    | cases h

theorem order_eq_ok {o : Ordering} (h : order op a b = .ok o) :
    Operator.Ordered a.kind b.kind := by
  cases a <;> cases b <;> first
    | exact .inl rfl
    | exact .inr (.inl rfl)
    | exact .inr (.inr ⟨rfl, rfl⟩)
    | cases h

/-- **Operands that an operator takes are typed**, and the result is of the kind the typing
gives. -/
theorem resultType_of_apply (h : a.apply op b = .ok v) :
    op.resultType a.kind b.kind = .ok v.kind := by
  have hallOf {t : DataType} (hv : AllOf t a b v) (ht : op.resultType t t = .ok t) :
      op.resultType a.kind b.kind = .ok v.kind := by
    rw [hv.1, hv.2.1, hv.2.2, ht]
  cases op with
  | plus => exact (add_eq_ok h).elim (hallOf · rfl) (hallOf · rfl)
  | minus | times | divide | power | remainder => exact hallOf (arithmetic_eq_ok h) rfl
  | concat => exact hallOf (concat_eq_ok h) rfl
  | and | or => exact hallOf (logical_eq_ok h) rfl
  | equal | notEqual =>
    obtain ⟨p, hp, rfl⟩ := map_eq_ok_iff.1 h
    exact Operator.resultType_comparison rfl (equals_eq_ok hp) rfl
  | less | greater | lessEqual | greaterEqual =>
    obtain ⟨o, ho, rfl⟩ := map_eq_ok_iff.1 h
    have hkinds := order_eq_ok ho
    exact Operator.resultType_comparison rfl hkinds.compatible (hkinds.takes _ (by decide))

/-! ### Failures -/

/-- The errors of an operator on two values: a zero divisor, or kinds that it does not take, which
the error names. -/
def Refuses (a b : Value) (e : Error) : Prop :=
  e = .divisionByZero ∨ ∃ op, e = mismatch op a b

theorem add_eq_error (h : add a b = .error e) : Refuses a b e := by
  cases a <;> cases b <;> first
    | exact .inr ⟨.plus, (Except.error.inj h).symm⟩
    | cases h

theorem concat_eq_error (h : concat a b = .error e) : Refuses a b e := by
  cases a <;> cases b <;> first
    | exact .inr ⟨.concat, (Except.error.inj h).symm⟩
    | cases h

theorem divisor_eq_error {f : Float → Float → Float} {x y : Float} (h : divisor f x y = .error e) :
    e = .divisionByZero := by
  rw [divisor] at h
  split at h
  · exact (Except.error.inj h).symm
  · cases h

theorem arithmetic_eq_error {f : Float → Float → Except Error Float}
    (hf : ∀ x y, f x y = .error e → e = .divisionByZero) (h : arithmetic op f a b = .error e) :
    Refuses a b e := by
  cases a <;> cases b <;> try exact .inr ⟨op, (Except.error.inj h).symm⟩
  case number.number x y => exact .inl (hf x y (map_eq_error_iff.1 h))

theorem logical_eq_error {f : Bool → Bool → Bool} (h : logical op f a b = .error e) :
    Refuses a b e := by
  cases a <;> cases b <;> first
    | exact .inr ⟨op, (Except.error.inj h).symm⟩
    | cases h

theorem equals_eq_error (h : equals a b = .error e) : Refuses a b e := by
  cases a <;> cases b <;> first
    | exact .inr ⟨.equal, (Except.error.inj h).symm⟩
    | cases h

theorem order_eq_error (h : order op a b = .error e) : Refuses a b e := by
  cases a <;> cases b <;> first
    | exact .inr ⟨op, (Except.error.inj h).symm⟩
    | cases h

/-- **An operator fails** on a zero divisor, or names the kinds that it does not take. -/
theorem apply_eq_error (h : a.apply op b = .error e) : Refuses a b e := by
  cases op with
  | plus => exact add_eq_error h
  | minus | times | power => exact arithmetic_eq_error (fun _ _ hxy => by cases hxy) h
  | divide | remainder => exact arithmetic_eq_error (fun _ _ => divisor_eq_error) h
  | concat => exact concat_eq_error h
  | equal | notEqual => exact equals_eq_error (map_eq_error_iff.1 h)
  | less | greater | lessEqual | greaterEqual => exact order_eq_error (map_eq_error_iff.1 h)
  | and | or => exact logical_eq_error h

/-- **Typed operands without NULL are taken**, unless a divisor is zero. -/
theorem apply_of_resultType {t : DataType} (ha : a.isNull = false) (hb : b.isNull = false)
    (h : op.resultType a.kind b.kind = .ok t) :
    (∃ v, a.apply op b = .ok v) ∨ a.apply op b = .error .divisionByZero := by
  have hsafe := apply_safe h (.inr rfl : a.HasType a.kind) (.inr rfl : b.HasType b.kind)
  cases happly : a.apply op b with
  | ok v => exact .inl ⟨v, rfl⟩
  | error e =>
    rw [happly] at hsafe
    rcases apply_eq_error happly with rfl | ⟨op', rfl⟩
    · exact .inr rfl
    -- a typed operator names kinds in its error only when one of them is NULL
    · cases hsafe with
      | onNull hnull =>
        rw [kind_eq_null_iff, kind_eq_null_iff] at hnull
        rcases hnull with rfl | rfl
        · cases ha
        · cases hb

end Value

/-- **The two tables of the operators agree.**  Operands that an operator takes are typed, with the
kind of the result; typed operands of which none is NULL are taken, or the divisor is zero. -/
theorem Operator.tables_agree (op : Operator) (a b : Value) :
    (∀ v, a.apply op b = .ok v → op.resultType a.kind b.kind = .ok v.kind) ∧
      (a.isNull = false → b.isNull = false → ∀ t, op.resultType a.kind b.kind = .ok t →
        (∃ v, a.apply op b = .ok v) ∨ a.apply op b = .error .divisionByZero) :=
  ⟨fun _ => Value.resultType_of_apply, fun ha hb _ => Value.apply_of_resultType ha hb⟩

/-- NULL comes before a text, though texts have no order; a number is divided by zero. -/
theorem Operator.beforeText_agrees :
    (Value.apply .less .null (.text "a") = .ok (.boolean true) ∧
      Operator.less.resultType .null .text = .ok .boolean) ∧
    (Operator.divide.resultType .number .number = .ok .number ∧
      ((∃ v, Value.apply .divide (.number 1) (.number 0) = .ok v) ∨
        Value.apply .divide (.number 1) (.number 0) = .error .divisionByZero)) :=
  ⟨⟨rfl, (tables_agree .less .null (.text "a")).1 (.boolean true) rfl⟩,
    rfl, (tables_agree .divide (.number 1) (.number 0)).2 rfl rfl .number rfl⟩

end SqlEngine
