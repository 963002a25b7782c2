import SqlEngine.Proofs.Result
import SqlEngine.Value

/-!
# Values — typing

A value has a type when it is NULL or of this kind (`Value.HasType`); NULL alone has the unknown
type.  An operator that is typed keeps to its type: on values of the operand types it gives a value
of the result type, or one of the expected errors (`Value.apply_safe`).
-/

namespace SqlEngine

/-- The value is NULL or of the type. -/
def Value.HasType (v : Value) (t : DataType) : Prop :=
  v = .null ∨ v.kind = t

/-- The values have the types at their places. -/
def Value.HaveTypes (vs : List Value) (types : List DataType) : Prop :=
  List.Forall₂ Value.HasType vs types

namespace Value

variable {v a b : Value} {s t : DataType}

theorem hasType_null (t : DataType) : Value.null.HasType t :=
  .inl rfl

theorem kind_eq_null_iff : v.kind = .null ↔ v = .null := by
  cases v <;> simp [kind]

theorem HasType.eq_null (h : v.HasType .null) : v = .null :=
  h.elim id kind_eq_null_iff.1

/-- A value of a known type fits it. -/
theorem HasType.fits (h : v.HasType t) : v.fits t = true := by
  rcases h with rfl | rfl
  · rfl
  · simp [Value.fits]

/-- A value that fits a known type has it. -/
theorem hasType_of_fits (ht : t ≠ .null) (h : v.fits t = true) : v.HasType t := by
  simp only [Value.fits, DataType.isNull, Bool.or_eq_true, beq_iff_eq] at h
  rcases h with (h | h) | h
  · cases v with
    | null => exact hasType_null t
    | number | text | boolean | date => cases h
  · exact absurd h ht
  · exact .inr h

/-- A value has every type that goes with its own, unless it is the unknown one. -/
theorem HasType.of_compatible (h : v.HasType s) (hc : t.compatible s = true) (ht : t ≠ .null) :
    v.HasType t := by
  simp only [DataType.compatible, DataType.isNull, Bool.or_eq_true, beq_iff_eq] at hc
  rcases hc with (rfl | hc) | rfl
  · exact h
  · exact absurd hc ht
  · rw [h.eq_null]
    exact hasType_null t

/-- Values of types that go together have the type of the operands. -/
theorem HasType.unify (ha : a.HasType s) (hb : b.HasType t) (hc : s.compatible t = true) :
    a.HasType (s.unify t) ∧ b.HasType (s.unify t) := by
  by_cases hs : s = .null
  · subst hs
    rw [ha.eq_null]
    exact ⟨hasType_null _, hb⟩
  · have hunify : s.unify t = s := by simp [DataType.unify, DataType.isNull, hs]
    rw [hunify]
    exact ⟨ha, hb.of_compatible hc hs⟩

/-- Of two values of one type one is NULL, or both are of the kind. -/
theorem HasType.both (ha : a.HasType t) (hb : b.HasType t) :
    (a = .null ∨ b = .null) ∨ a.kind = t ∧ b.kind = t := by
  rcases ha with ha | ha
  · exact .inl (.inl ha)
  rcases hb with hb | hb
  · exact .inl (.inr hb)
  · exact .inr ⟨ha, hb⟩

/-! ### Operators -/

/-- An operator on NULL may be refused. -/
theorem safe_mismatch {P : Value → Prop} (op : Operator) (h : a = .null ∨ b = .null) :
    Safe P (.error (mismatch op a b)) :=
  .onNull (h.imp kind_eq_null_iff.2 kind_eq_null_iff.2)

/-- An operator that refuses NULL is safe when it is safe on operands of one known kind. -/
theorem HasType.binary_safe (op : Operator) {P : Value → Prop} {r : Except Error Value}
    (ha : a.HasType t) (hb : b.HasType t)
    (hnull : a = .null ∨ b = .null → r = .error (mismatch op a b))
    (hkinds : a.kind = t → b.kind = t → t ≠ .null → Safe P r) : Safe P r := by
  by_cases h : a = .null ∨ b = .null
  · rw [hnull h]
    exact safe_mismatch op h
  · obtain ⟨hka, hkb⟩ := (ha.both hb).resolve_left h
    refine hkinds hka hkb fun ht => h (.inl ?_)
    rw [ht] at ha
    exact ha.eq_null

theorem arithmetic_safe {op : Operator} {f : Float → Float → Except Error Float}
    (hf : ∀ x y, Safe (fun _ => True) (f x y)) (ht : t = .null ∨ t = .number)
    (ha : a.HasType t) (hb : b.HasType t) : Safe (·.HasType t) (arithmetic op f a b) := by
  refine ha.binary_safe op hb ?_ fun hka hkb hknown => ?_
  · rintro (rfl | rfl)
    · rfl
    · cases a <;> rfl
  · obtain rfl := ht.resolve_left hknown
    cases a <;> cases hka
    cases b <;> cases hkb
    exact (hf _ _).map fun x _ => .inr rfl

theorem divisor_safe (f : Float → Float → Float) (x y : Float) :
    Safe (fun _ => True) (divisor f x y) := by
  simp only [divisor]
  split
  · exact .divisionByZero
  · trivial

theorem add_safe (ht : t = .null ∨ t = .number ∨ t = .text) (ha : a.HasType t)
    (hb : b.HasType t) : Safe (·.HasType t) (add a b) := by
  refine ha.binary_safe .plus hb ?_ fun hka hkb hknown => ?_
  · rintro (rfl | rfl)
    · rfl
    · cases a <;> rfl
  · rcases ht.resolve_left hknown with rfl | rfl
    all_goals
      cases a <;> cases hka
      cases b <;> cases hkb
      exact .inr rfl

theorem concat_safe (ht : t = .null ∨ t = .text) (ha : a.HasType t) (hb : b.HasType t) :
    Safe (·.HasType .text) (concat a b) := by
  refine ha.binary_safe .concat hb ?_ fun hka hkb hknown => ?_
  · rintro (rfl | rfl)
    · rfl
    · cases a <;> rfl
  · obtain rfl := ht.resolve_left hknown
    cases a <;> cases hka
    cases b <;> cases hkb
    exact .inr rfl

theorem logical_safe {op : Operator} {f : Bool → Bool → Bool} (ht : t = .null ∨ t = .boolean)
    (ha : a.HasType t) (hb : b.HasType t) : Safe (·.HasType .boolean) (logical op f a b) := by
  refine ha.binary_safe op hb ?_ fun hka hkb hknown => ?_
  · rintro (rfl | rfl)
    · rfl
    · cases a <;> rfl
  · obtain rfl := ht.resolve_left hknown
    cases a <;> cases hka
    cases b <;> cases hkb
    exact .inr rfl

/-- Values of one type can be compared, NULL with all. -/
theorem equals_safe (ha : a.HasType t) (hb : b.HasType t) :
    Safe (fun _ => True) (equals a b) := by
  rcases ha.both hb with hnull | ⟨hka, hkb⟩
  · cases a <;> cases b <;> first
      | trivial
      | simp at hnull
  · cases a <;> cases b <;> cases hka <;> trivial

/-- Numbers are ordered, and NULL comes before all. -/
theorem order_safe {op : Operator} (ht : (t = .null ∨ t = .number) ∨ a = .null ∨ b = .null)
    (ha : a.HasType t) (hb : b.HasType t) : Safe (fun _ => True) (order op a b) := by
  rcases ha.both hb with hnull | ⟨hka, hkb⟩
  · cases a <;> cases b <;> first
      | trivial
      | simp at hnull
  · cases a <;> cases b <;> cases hka <;> first
      | trivial
      | simp [kind] at ht hkb

end Value

/-- What a typed application says of its operands and its result. -/
theorem Operator.resultType_eq_ok {op : Operator} {s t u : DataType}
    (h : op.resultType s t = .ok u) :
    s.compatible t = true ∧ op.takes (s.unify t) (s.isNull || t.isNull) = true ∧
      u = if op.isComparison || op.isLogical then .boolean
        else if op == .concat then .text else s.unify t := by
  simp only [resultType] at h
  split at h
  next hif =>
    rw [Bool.and_eq_true] at hif
    exact ⟨hif.1, hif.2, (Except.ok.inj h).symm⟩
  next => cases h

/-- **A typed operator keeps to its type.** -/
theorem Value.apply_safe {op : Operator} {a b : Value} {s t u : DataType}
    (h : op.resultType s t = .ok u) (ha : a.HasType s) (hb : b.HasType t) :
    Safe (·.HasType u) (a.apply op b) := by
  obtain ⟨hc, htakes, rfl⟩ := Operator.resultType_eq_ok h
  have hone : (s.isNull || t.isNull) = true → a = .null ∨ b = .null := by
    simp only [DataType.isNull, Bool.or_eq_true, beq_iff_eq]
    exact Or.imp (fun hs => (hs ▸ ha).eq_null) (fun ht => (ht ▸ hb).eq_null)
  obtain ⟨ha, hb⟩ := ha.unify hb hc
  have hboolean {α : Type} {x : Except Error α} {f : α → Bool} (hx : Safe (fun _ => True) x) :
      Safe (fun v : Value => v.HasType .boolean) (x.map fun y => .boolean (f y)) :=
    hx.map fun _ _ => .inr rfl
  generalize s.unify t = u at *
  generalize (s.isNull || t.isNull) = oneNull at *
  cases op with
  | plus =>
    have hu : u = .null ∨ u = .number ∨ u = .text := by cases u <;> simp_all [Operator.takes]
    exact add_safe hu ha hb
  | minus | times | power =>
    have hu : u = .null ∨ u = .number := by cases u <;> simp_all [Operator.takes]
    exact arithmetic_safe (fun _ _ => trivial) hu ha hb
  | divide | remainder =>
    have hu : u = .null ∨ u = .number := by cases u <;> simp_all [Operator.takes]
    exact arithmetic_safe (divisor_safe _) hu ha hb
  | concat =>
    have hu : u = .null ∨ u = .text := by cases u <;> simp_all [Operator.takes]
    exact concat_safe hu ha hb
  | equal | notEqual => exact hboolean (equals_safe ha hb)
  | less | greater | lessEqual | greaterEqual =>
    have hu : (u = .null ∨ u = .number) ∨ a = .null ∨ b = .null := by
      cases u <;> simp_all [Operator.takes]
    exact hboolean (order_safe hu ha hb)
  | and | or =>
    have hu : u = .null ∨ u = .boolean := by cases u <;> simp_all [Operator.takes]
    exact logical_safe hu ha hb

end SqlEngine
