import SqlEngine.Catalog
import SqlEngine.Proofs.Value

/-!
# Functions — the built-in overloads keep to their types

An overload is *sound* when for arguments of its types it gives a value of its result type, or one
of the expected errors (`Variant.Sound`).  An aggregate never fails on such arguments.

* `Function.builtins_sound`: every overload of every built-in function is sound.
* `Variant.haveTypes_arguments`: arguments that an overload takes loosely have its types.
-/

namespace SqlEngine

open Value (HaveTypes)

variable {args : List Value} {t : DataType}

/-- What an overload promises of the results of its calls. -/
def Variant.Sound (v : Variant) : Prop :=
  match v.implementation with
  | .scalar f    => ∀ ctx args, HaveTypes args v.arguments →
      Safe (·.HasType v.result) (f.eval ctx args)
  | .aggregate f => ∀ rows : List (List Value), (∀ args ∈ rows, HaveTypes args v.arguments) →
      ∃ a, (Accumulator.empty f).addAll rows = .ok a ∧ a.result.HasType v.result

/-! ### Scalar functions -/

namespace ScalarFunction

theorem strict_safe {r : Except Error Value}
    (h : (∀ v ∈ args, v ≠ .null) → Safe (·.HasType t) r) : Safe (·.HasType t) (strict args r) := by
  simp only [strict]
  split
  · exact Value.hasType_null t
  next hnone =>
    refine h fun v hv hnull => hnone ?_
    exact List.any_eq_true.2 ⟨v, hv, by rw [hnull]; rfl⟩

/-- A function of one argument does what it does on values of the argument's kind. -/
theorem strict_one_safe {s : DataType} {f : List Value → Except Error Value}
    (hf : ∀ v : Value, v.kind = s → Safe (·.HasType t) (f [v])) (h : HaveTypes args [s]) :
    Safe (·.HasType t) (strict args (f args)) := by
  refine strict_safe fun hnull => ?_
  obtain ⟨v, _, hv, hnil, rfl⟩ := List.forall₂_cons_right_iff.1 h
  obtain rfl := List.forall₂_nil_right_iff.1 hnil
  rcases hv with hv | hv
  · exact absurd hv (hnull v List.mem_cons_self)
  · exact hf v hv

theorem onText_safe {f : ScalarFunction} {g : String → Except Error Value}
    (hg : ∀ s, Safe (·.HasType t) (g s)) (h : HaveTypes args [.text]) :
    Safe (·.HasType t) (strict args (f.textArgument args 0 >>= g)) := by
  refine strict_one_safe (f := fun args => f.textArgument args 0 >>= g) (fun v hv => ?_) h
  cases v <;> cases hv
  exact hg _

theorem date_safe (ctx : CallContext) (h : HaveTypes args [.text]) :
    Safe (·.HasType .date) (date.eval ctx args) := by
  refine onText_safe (fun s => ?_) h
  simp only [dateOf]
  split
  · exact .inr rfl
  · exact .notADate _

theorem abs_safe (ctx : CallContext) (h : HaveTypes args [.number]) :
    Safe (·.HasType .number) (abs.eval ctx args) := by
  refine strict_one_safe
    (f := fun args => do return .number (← abs.numberArgument args 0).abs) (fun v hv => ?_) h
  cases v <;> cases hv
  exact .inr rfl

theorem round_safe (ctx : CallContext) (h : HaveTypes args [.number]) :
    Safe (·.HasType .number) (round.eval ctx args) := by
  refine strict_one_safe (f := roundArguments) (fun v hv => ?_) h
  cases v <;> cases hv
  exact .inr rfl

theorem roundPlaces_safe (ctx : CallContext) (h : HaveTypes args [.number, .number]) :
    Safe (·.HasType .number) (round.eval ctx args) := by
  refine strict_safe fun hnull => ?_
  obtain ⟨v, _, hv, hrest, rfl⟩ := List.forall₂_cons_right_iff.1 h
  obtain ⟨w, _, hw, hnil, rfl⟩ := List.forall₂_cons_right_iff.1 hrest
  obtain rfl := List.forall₂_nil_right_iff.1 hnil
  rcases hv with hv | hv
  · exact absurd hv (hnull v List.mem_cons_self)
  rcases hw with hw | hw
  · exact absurd hw (hnull w (by simp))
  cases v <;> cases hv
  cases w <;> cases hw
  simp only [roundArguments, numberArgument, List.getElem?_cons_zero, List.getElem?_cons_succ,
    List.length_cons, List.length_nil, Nat.lt_irrefl, if_false, ok_bind]
  split
  · exact .inr rfl
  · exact .fractionalPlaces

end ScalarFunction

/-! ### Aggregate functions -/

namespace Accumulator

variable {f : AggregateFunction} {types : List DataType}

/-- Taking in a row of the given types keeps the accumulator to its function and its type. -/
def Keeps (f : AggregateFunction) (types : List DataType) (t : DataType) : Prop :=
  ∀ (a : Accumulator) (args : List Value), a.function = f → a.result.HasType t →
    HaveTypes args types → ∃ b, a.add args = .ok b ∧ b.result.HasType t

theorem Keeps.addAll (hkeeps : Keeps f types t) : ∀ {rows : List (List Value)} {a : Accumulator},
    a.function = f → a.result.HasType t → (∀ args ∈ rows, HaveTypes args types) →
    ∃ b, a.addAll rows = .ok b ∧ b.result.HasType t
  | [], a, _, ha, _ => ⟨a, rfl, ha⟩
  | args :: rows, a, hf, ha, hrows => by
    obtain ⟨b, hb, htype⟩ := hkeeps a args hf ha (hrows args List.mem_cons_self)
    obtain ⟨d, hd, hresult⟩ := hkeeps.addAll ((function_add hb).trans hf) htype
      fun args h => hrows args (List.mem_cons_of_mem _ h)
    exact ⟨d, by rw [Accumulator.addAll, hb]; exact hd, hresult⟩

theorem Keeps.of_empty (hkeeps : Keeps f types t) (h : (empty f).result.HasType t)
    (rows : List (List Value)) (hrows : ∀ args ∈ rows, HaveTypes args types) :
    ∃ a, (empty f).addAll rows = .ok a ∧ a.result.HasType t :=
  hkeeps.addAll (function_empty f) h hrows

theorem keeps_count (types : List DataType) : Keeps .count types .number := by
  intro a args hf _ _
  cases a <;> cases hf
  simp only [add]
  split
  · exact ⟨_, rfl, .inr rfl⟩
  · exact ⟨_, rfl, .inr rfl⟩

/-- A first argument that is a number can be summed up. -/
theorem exists_firstNumber (f : AggregateFunction) (h : HaveTypes args [.number]) :
    ∃ x, firstNumber f args = .ok x := by
  obtain ⟨v, _, hv, hnil, rfl⟩ := List.forall₂_cons_right_iff.1 h
  rcases hv with rfl | hv
  · exact ⟨none, rfl⟩
  · cases v <;> cases hv
    exact ⟨some _, rfl⟩

/-- SUM and AVG take in a number, or leave the accumulator as it is. -/
theorem keeps_number (hf : f = .sum ∨ f = .average) : Keeps f [.number] .number := by
  intro a args hfunction ha h
  obtain ⟨x, hx⟩ := exists_firstNumber f h
  rcases hf with rfl | rfl
  all_goals
    cases a <;> cases hfunction
    simp only [add, hx, ok_bind]
    cases x with
    | none => exact ⟨_, rfl, ha⟩
    | some x => exact ⟨_, rfl, .inr rfl⟩

/-- What is kept is one of the values that came. -/
theorem keep_hasType {wins : Ordering} {kept : Option Value} (hkept : (kept.getD .null).HasType t)
    (h : HaveTypes args [t]) : ((keep wins kept args).getD .null).HasType t := by
  obtain ⟨v, _, hv, hnil, rfl⟩ := List.forall₂_cons_right_iff.1 h
  obtain rfl := List.forall₂_nil_right_iff.1 hnil
  cases v with
  | null => exact hkept
  | number | text | boolean | date =>
    cases kept with
    | none => exact hv
    | some w =>
      simp only [keep]
      split
      · exact hv
      · exact hkept

theorem keeps_extreme (t : DataType) (hf : f = .minimum ∨ f = .maximum) : Keeps f [t] t := by
  intro a args hfunction ha h
  rcases hf with rfl | rfl
  all_goals
    cases a <;> cases hfunction
    exact ⟨_, rfl, keep_hasType ha h⟩

end Accumulator

/-! ### Overloads -/

theorem Variant.exists_aggregate {v : Variant} (h : v.isAggregate = true) :
    ∃ f, v.implementation = .aggregate f := by
  simp only [isAggregate] at h
  split at h
  next f hf => exact ⟨f, hf⟩
  next => cases h

theorem Variant.exists_scalar {v : Variant} (h : v.isAggregate = false) :
    ∃ f, v.implementation = .scalar f := by
  simp only [isAggregate] at h
  split at h
  next => cases h
  next f hf => exact ⟨f, hf⟩

/-- **The built-in functions keep to their types.** -/
theorem Function.builtins_sound : ∀ f ∈ Function.builtins, ∀ v ∈ f.variants, v.Sound := by
  simp only [builtins, scalar, named, List.map_cons, List.map_nil, List.forall_mem_cons,
    List.not_mem_nil, false_imp_iff, implies_true, and_true]
  refine ⟨?rowNumber, ?rowId, ?now, ?date, ?lower, ?upper, ?length, ?abs, ⟨?round, ?roundPlaces⟩,
    ⟨?count, ?_, ?_, ?_, ?_⟩, ?sum, ?average, ⟨?minimum, ?_, ?_⟩, ⟨?maximum, ?_, ?_⟩⟩
  case rowNumber | rowId | now => exact fun ctx args _ => .inr rfl
  case date => exact fun ctx args h => ScalarFunction.date_safe ctx h
  case lower | upper | length =>
    exact fun ctx args h => ScalarFunction.onText_safe (fun s => .inr rfl) h
  case abs => exact fun ctx args h => ScalarFunction.abs_safe ctx h
  case round => exact fun ctx args h => ScalarFunction.round_safe ctx h
  case roundPlaces => exact fun ctx args h => ScalarFunction.roundPlaces_safe ctx h
  case sum => exact (Accumulator.keeps_number (.inl rfl)).of_empty (.inl rfl)
  case average => exact (Accumulator.keeps_number (.inr rfl)).of_empty (.inl rfl)
  case minimum => exact (Accumulator.keeps_extreme _ (.inl rfl)).of_empty (.inl rfl)
  case maximum => exact (Accumulator.keeps_extreme _ (.inr rfl)).of_empty (.inl rfl)
  case count => exact (Accumulator.keeps_count _).of_empty (.inr rfl)
  -- the other overloads of COUNT, MIN and MAX, for the other types of arguments
  all_goals first
    | exact (Accumulator.keeps_count _).of_empty (.inr rfl)
    | exact (Accumulator.keeps_extreme _ (.inl rfl)).of_empty (.inl rfl)
    | exact (Accumulator.keeps_extreme _ (.inr rfl)).of_empty (.inl rfl)

/-- No built-in overload takes arguments of the unknown type. -/
theorem Function.builtins_known :
    ∀ f ∈ Function.builtins, ∀ v ∈ f.variants, ∀ t ∈ v.arguments, t ≠ .null := by
  decide

/-- The overloads of a catalog with the built-in functions are sound. -/
theorem Catalog.variant?_sound {c : Catalog} (hc : c.functions = Function.builtins) {o : Overload}
    {v : Variant} (h : c.variant? o = some v) : v.Sound ∧ ∀ t ∈ v.arguments, t ≠ .null := by
  obtain ⟨f, hf, hv⟩ := Option.bind_eq_some_iff.1 h
  have hmem : f ∈ Function.builtins := hc ▸ List.mem_of_getElem? hf
  exact ⟨Function.builtins_sound f hmem v (List.mem_of_getElem? hv),
    Function.builtins_known f hmem v (List.mem_of_getElem? hv)⟩

/-- Arguments of types that go with those of an overload have the types of the overload. -/
theorem Variant.haveTypes_arguments {v : Variant} {types : List DataType}
    (hknown : ∀ t ∈ v.arguments, t ≠ .null) (h : v.acceptsLoosely types = true)
    (hargs : HaveTypes args types) : HaveTypes args v.arguments := by
  simp only [Variant.acceptsLoosely, Bool.and_eq_true, beq_iff_eq, List.all_eq_true] at h
  obtain ⟨hlen, hall⟩ := h
  generalize v.arguments = params at *
  induction hargs generalizing params with
  | nil => cases params with
    | nil => exact .nil
    | cons => cases hlen
  | cons hv _ ih =>
    cases params with
    | nil => cases hlen
    | cons p ps =>
      have hfirst := hv.of_compatible (hall (p, _) List.mem_cons_self) (hknown p List.mem_cons_self)
      refine .cons hfirst ?_
      exact ih ps (fun t ht => hknown t (List.mem_cons_of_mem _ ht)) (Nat.succ.inj hlen)
        fun q hq => hall q (List.mem_cons_of_mem _ hq)

end SqlEngine
