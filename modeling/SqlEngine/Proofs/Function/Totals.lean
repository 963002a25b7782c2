import SqlEngine.Proofs.Function
import SqlEngine.Proofs.Order

/-!
# Functions — the totals of a column

What an aggregate function of one argument gives for the values of a column, said on the list of the
values and not on what an accumulator keeps (`AggregateFunction.Gives`).  COUNT is the number of the
values that are not NULL, SUM their sum from left to right, AVG the result of SUM divided by that of
COUNT, and MIN and MAX are the first of the values that no other one is before, or after
(`Earliest`).

NULLs are passed over by every accumulator (`Accumulator.addAll_nonNull`), so each function is
described on values that are not NULL, by what its accumulator has after a row more.

* `AggregateFunction.ofColumn_gives`: what every built-in overload of one argument gives, from a new
  accumulator or from one that has been used and reset.
-/

namespace SqlEngine

open Value (HasType)

variable {f : AggregateFunction} {wins : Ordering} {values seen : List Value} {v w x y : Value}
  {t : DataType}

/-- The values of a column that are not NULL. -/
def nonNull (values : List Value) : List Value :=
  values.filter fun v => !v.isNull

theorem mem_nonNull : v ∈ nonNull values ↔ v ∈ values ∧ v ≠ .null := by
  rw [nonNull, List.mem_filter]
  cases v <;> simp [Value.isNull]

/-- The first of the values that no value beats: each one before it is beaten by another. -/
def Earliest (wins : Ordering) (values : List Value) (x : Value) : Prop :=
  ∃ before after, values = before ++ x :: after ∧ (∀ y ∈ values, y.compare x ≠ wins) ∧
    ∀ y ∈ before, ∃ z ∈ values, z.compare y = wins

namespace Accumulator

/-- What an accumulator says after the values of a column. -/
def onColumn (a : Accumulator) (values : List Value) : Except Error Value := do
  .ok (← a.addAll (values.map ([·]))).result

/-- The accumulator after one more row, which it may refuse: then it is as it was. -/
def feed (a : Accumulator) (args : List Value) : Accumulator :=
  (a.add args).toOption.getD a

end Accumulator

/-- What a function gives for the values of a column. -/
def AggregateFunction.ofColumn (f : AggregateFunction) (values : List Value) : Except Error Value :=
  (Accumulator.empty f).onColumn values

/-- What the result of a function is to be for the values of a column. -/
def AggregateFunction.Gives : AggregateFunction → List Value → Value → Prop
  | count,   values, r => r = .number (Float.ofNat (nonNull values).length)
  | sum,     values, r => ∃ xs : List Float, nonNull values = xs.map .number ∧
      r = if xs = [] then .null else .number (xs.foldl (· + ·) 0)
  | average, values, r => if nonNull values = [] then r = .null else
      ∃ total n : Float, sum.ofColumn values = .ok (.number total) ∧
        count.ofColumn values = .ok (.number n) ∧ r = .number (total / n)
  | minimum, values, r => if nonNull values = [] then r = .null else Earliest .lt (nonNull values) r
  | maximum, values, r => if nonNull values = [] then r = .null else Earliest .gt (nonNull values) r

namespace Accumulator

variable {a b : Accumulator}

/-! ### NULL -/

theorem add_null (a : Accumulator) : a.add [.null] = .ok a := by
  cases a <;> rfl

/-- A run over a column takes in only the values that are not NULL. -/
theorem addAll_nonNull (a : Accumulator) (values : List Value) :
    a.addAll (values.map ([·])) = a.addAll ((nonNull values).map ([·])) := by
  induction values generalizing a with
  | nil => rfl
  | cons v values ih =>
    by_cases hv : v = .null
    · subst hv
      rw [List.map_cons, addAll, add_null, ok_bind]
      exact ih a
    · have hkept : nonNull (v :: values) = v :: nonNull values :=
        List.filter_cons_of_pos (by cases v <;> first | rfl | exact absurd rfl hv)
      rw [hkept, List.map_cons, List.map_cons, addAll, addAll]
      exact bind_congr_ok fun b _ => ih b

theorem onColumn_nonNull (a : Accumulator) (values : List Value) :
    a.onColumn values = a.onColumn (nonNull values) := by
  rw [onColumn, onColumn, addAll_nonNull]

/-! ### COUNT, SUM and AVG -/

/-- COUNT takes one more for each value. -/
theorem addAll_count_values (h : ∀ v ∈ values, v ≠ .null) (n : Nat) :
    (count n).addAll (values.map ([·])) = .ok (count (n + values.length)) := by
  induction values generalizing n with
  | nil => rfl
  | cons v values ih =>
    have hadd : (count n).add [v] = .ok (count (n + 1)) := by
      cases v with
      | null => exact absurd rfl (h _ List.mem_cons_self)
      | number | text | boolean | date => rfl
    rw [List.map_cons, addAll, hadd, ok_bind, ih fun v hv => h v (List.mem_cons_of_mem _ hv),
      List.length_cons, Nat.add_assoc, Nat.add_comm 1]

/-- SUM adds to its total, which is 0 before the first number. -/
theorem addAll_sum (xs : List Float) (total : Option Float) :
    (sum total).addAll ((xs.map .number).map ([·])) =
      .ok (sum (if xs = [] then total else some (xs.foldl (· + ·) (total.getD 0)))) := by
  induction xs generalizing total with
  | nil => rfl
  | cons x xs ih =>
    rw [List.map_cons, List.map_cons, addAll]
    refine (ih _).trans ?_
    cases xs <;> rfl

/-- AVG adds to its total as SUM does, and to its count as COUNT does. -/
theorem addAll_average (xs : List Float) (total : Float) (n : Nat) :
    (average total n).addAll ((xs.map .number).map ([·])) =
      .ok (average (xs.foldl (· + ·) total) (n + xs.length)) := by
  induction xs generalizing total n with
  | nil => rfl
  | cons x xs ih =>
    rw [List.map_cons, List.map_cons, addAll]
    refine (ih _ _).trans ?_
    rw [List.foldl_cons, List.length_cons, Nat.add_assoc, Nat.add_comm 1]

/-! ### MIN and MAX -/

/-- Who beats a value beats all that do not beat it. -/
theorem compare_of_beats (hwins : wins ≠ .eq) (hvw : v.compare w = wins)
    (hyw : y.compare w ≠ wins) : v.compare y = wins := by
  cases wins with
  | eq => exact absurd rfl hwins
  | lt =>
    refine Std.TransCmp.lt_of_lt_of_isLE hvw ?_
    rw [Value.compare_swap, Ordering.isLE_swap]
    cases hcompare : y.compare w with
    | lt => exact absurd hcompare hyw
    | eq | gt => rfl
  | gt =>
    refine Std.TransCmp.gt_of_gt_of_isGE hvw ?_
    rw [Value.compare_swap, Ordering.isGE_swap]
    cases hcompare : y.compare w with
    | gt => exact absurd hcompare hyw
    | eq | lt => rfl

/-- What is kept of the values so far is the first unbeaten one. -/
def Holds (wins : Ordering) (seen : List Value) : Option Value → Prop
  | none   => seen = []
  | some x => Earliest wins seen x

/-- A value more keeps it so: the new value is taken if and only if it beats the one kept, and a
value it does not beat comes before it. -/
theorem Holds.keep {kept : Option Value} (hwins : wins ≠ .eq) (h : Holds wins seen kept)
    (hv : v ≠ .null) : Holds wins (seen ++ [v]) (Accumulator.keep wins kept [v]) := by
  have hself : v.compare v ≠ wins := by
    rw [(Std.ReflCmp.compare_self : v.compare v = .eq)]
    exact hwins.symm
  cases kept with
  | none =>
    obtain rfl : seen = [] := h
    have hkeep : Accumulator.keep wins none [v] = some v := by
      cases v <;> first | exact absurd rfl hv | rfl
    rw [hkeep]
    refine ⟨[], [], rfl, ?_, by simp⟩
    intro y hy
    rw [List.mem_singleton.1 hy]
    exact hself
  | some w =>
    obtain ⟨before, after, hseen, hunbeaten, hbefore⟩ := h
    have hkeep : Accumulator.keep wins (some w) [v] =
        if v.compare w = wins then some v else some w := by
      cases v <;> first | exact absurd rfl hv | simp only [Accumulator.keep, beq_iff_eq]
    rw [hkeep]
    by_cases hbeats : v.compare w = wins
    · rw [if_pos hbeats]
      have hold (y : Value) (hy : y ∈ seen) : v.compare y = wins :=
        compare_of_beats hwins hbeats (hunbeaten y hy)
      refine ⟨seen, [], rfl, ?_, fun y hy => ⟨v, by simp, hold y hy⟩⟩
      intro y hy
      rcases List.mem_append.1 hy with hy | hy
      · rw [Value.compare_swap, hold y hy]
        cases wins <;> simp at hwins ⊢
      · rw [List.mem_singleton.1 hy]
        exact hself
    · rw [if_neg hbeats]
      refine ⟨before, after ++ [v], by simp [hseen], ?_, ?_⟩
      · intro y hy
        rcases List.mem_append.1 hy with hy | hy
        · exact hunbeaten y hy
        · rw [List.mem_singleton.1 hy]
          exact hbeats
      · intro y hy
        obtain ⟨z, hz, hzy⟩ := hbefore y hy
        exact ⟨z, List.mem_append_left _ hz, hzy⟩

/-- A run over values keeps the first unbeaten one of all. -/
theorem Holds.foldl (hwins : wins ≠ .eq) (hvalues : ∀ v ∈ values, v ≠ .null) {kept : Option Value}
    (h : Holds wins seen kept) : Holds wins (seen ++ values)
      (values.foldl (fun kept v => Accumulator.keep wins kept [v]) kept) := by
  induction values generalizing seen kept with
  | nil => simpa using h
  | cons v values ih =>
    have hv := hvalues v List.mem_cons_self
    have := ih (fun v hv => hvalues v (List.mem_cons_of_mem _ hv)) (h.keep hwins hv)
    rwa [List.append_assoc] at this

theorem addAll_minimum (least : Option Value) (values : List Value) :
    (minimum least).addAll (values.map ([·])) =
      .ok (minimum (values.foldl (fun kept v => keep .lt kept [v]) least)) := by
  induction values generalizing least with
  | nil => rfl
  | cons v values ih => exact ih _

theorem addAll_maximum (greatest : Option Value) (values : List Value) :
    (maximum greatest).addAll (values.map ([·])) =
      .ok (maximum (values.foldl (fun kept v => keep .gt kept [v]) greatest)) := by
  induction values generalizing greatest with
  | nil => rfl
  | cons v values ih => exact ih _

/-! ### Reset -/

theorem function_feed (a : Accumulator) (args : List Value) :
    (a.feed args).function = a.function := by
  rw [feed]
  cases h : a.add args with
  | error e => rfl
  | ok b => exact function_add h

/-- **After a reset it does not matter what an accumulator was fed.** -/
theorem reset_foldl_feed (f : AggregateFunction) (rows : List (List Value)) :
    (rows.foldl feed (empty f)).reset = empty f := by
  suffices h : (rows.foldl feed (empty f)).function = f by rw [reset, h]
  induction rows using List.reverseRecOn with
  | nil => exact function_empty f
  | append_singleton rows args ih => rw [List.foldl_concat, function_feed, ih]

end Accumulator

/-! ### The results -/

namespace AggregateFunction

open Accumulator

/-- A function that adds up takes numbers. -/
def Takes (f : AggregateFunction) (t : DataType) : Prop :=
  f = sum ∨ f = average → t = .number

theorem exists_numbers (h : ∀ v ∈ values, v.HasType .number) :
    ∃ xs : List Float, nonNull values = xs.map .number := by
  suffices h : nonNull values ∈ Set.range (List.map Value.number) by
    obtain ⟨xs, hxs⟩ := h
    exact ⟨xs, hxs.symm⟩
  rw [Set.range_list_map]
  intro v hv
  obtain ⟨hv, hnull⟩ := mem_nonNull.1 hv
  rcases h v hv with hv | hv
  · exact absurd hv hnull
  · cases v <;> cases hv
    exact ⟨_, rfl⟩

theorem ofColumn_count (values : List Value) :
    count.ofColumn values = .ok (.number (Float.ofNat (nonNull values).length)) := by
  rw [ofColumn, onColumn_nonNull, onColumn, empty,
    addAll_count_values fun v hv => (mem_nonNull.1 hv).2, Nat.zero_add]
  rfl

theorem ofColumn_sum {xs : List Float} (h : nonNull values = xs.map .number) :
    sum.ofColumn values = .ok (if xs = [] then .null else .number (xs.foldl (· + ·) 0)) := by
  rw [ofColumn, onColumn_nonNull, onColumn, h, empty, addAll_sum]
  cases xs <;> rfl

theorem ofColumn_average {xs : List Float} (h : nonNull values = xs.map .number) :
    average.ofColumn values = .ok (if xs = [] then .null else
      .number (xs.foldl (· + ·) 0 / Float.ofNat xs.length)) := by
  rw [ofColumn, onColumn_nonNull, onColumn, h, empty, addAll_average, Nat.zero_add]
  cases xs <;> rfl

/-- What MIN keeps, or MAX, is the first unbeaten value. -/
theorem earliest_of_holds {kept : Option Value} (h : Holds wins values kept) :
    if values = [] then kept.getD .null = .null else Earliest wins values (kept.getD .null) := by
  cases kept with
  | none =>
    obtain rfl : values = [] := h
    rfl
  | some x =>
    have hne : values ≠ [] := by
      obtain ⟨before, after, rfl, _⟩ := h
      simp
    rw [if_neg hne]
    exact h

/-- **Every function gives what it is to give.** -/
theorem exists_ofColumn (htakes : f.Takes t) (h : ∀ v ∈ values, v.HasType t) :
    ∃ r, f.ofColumn values = .ok r ∧ f.Gives values r := by
  have hnull : ∀ v ∈ nonNull values, v ≠ .null := fun v hv => (mem_nonNull.1 hv).2
  cases f with
  | count => exact ⟨_, ofColumn_count values, rfl⟩
  | sum =>
    obtain ⟨xs, hxs⟩ := exists_numbers (htakes (.inl rfl) ▸ h)
    exact ⟨_, ofColumn_sum hxs, xs, hxs, rfl⟩
  | average =>
    obtain ⟨xs, hxs⟩ := exists_numbers (htakes (.inr rfl) ▸ h)
    refine ⟨_, ofColumn_average hxs, ?_⟩
    have hcount := ofColumn_count values
    have hsum := ofColumn_sum hxs
    simp only [Gives, hxs, List.map_eq_nil_iff]
    split
    next => rfl
    next hne =>
      rw [if_neg hne] at hsum
      rw [hxs, List.length_map] at hcount
      exact ⟨_, _, hsum, hcount, rfl⟩
  | minimum =>
    have hrun := addAll_minimum none (nonNull values)
    have hkept := Holds.foldl (by decide) hnull (show Holds .lt [] none from rfl)
    refine ⟨_, ?_, earliest_of_holds hkept⟩
    rw [ofColumn, onColumn_nonNull, onColumn, empty, hrun]
    rfl
  | maximum =>
    have hrun := addAll_maximum none (nonNull values)
    have hkept := Holds.foldl (by decide) hnull (show Holds .gt [] none from rfl)
    refine ⟨_, ?_, earliest_of_holds hkept⟩
    rw [ofColumn, onColumn_nonNull, onColumn, empty, hrun]
    rfl

/-- Without COUNT, which is never NULL, a result is NULL if and only if all values are. -/
theorem Gives.eq_null_iff {r : Value} (h : f.Gives values r) (hf : f ≠ count) :
    r = .null ↔ nonNull values = [] := by
  have hmember {wins : Ordering} (hearliest : Earliest wins (nonNull values) r) : r ≠ .null := by
    obtain ⟨before, after, hvalues, _⟩ := hearliest
    exact (mem_nonNull.1 (hvalues ▸ by simp : r ∈ nonNull values)).2
  cases f with
  | count => exact absurd rfl hf
  | sum =>
    obtain ⟨xs, hxs, rfl⟩ := h
    rw [hxs, List.map_eq_nil_iff]
    split <;> simp_all
  | average =>
    simp only [Gives] at h
    split at h
    next hnil => exact iff_of_true h hnil
    next hne =>
      obtain ⟨total, n, _, _, rfl⟩ := h
      exact iff_of_false Value.noConfusion hne
  | minimum | maximum =>
    simp only [Gives] at h
    split at h
    next hnil => exact iff_of_true h hnil
    next hne => exact iff_of_false (hmember h) hne

/-- Among the built-in overloads those that add up take a number. -/
theorem takes_of_builtin : ∀ fn ∈ Function.builtins, ∀ v ∈ fn.variants,
    (v.implementation = .aggregate sum ∨ v.implementation = .aggregate average) →
      v.arguments = [.number] := by
  decide

variable {fn : Function} {overload : Variant}

/-- **The aggregates of a column.**  Each built-in overload of one argument succeeds on every list
of values that are NULL or of the type of the argument, and gives what it is to give.  Apart from
COUNT it gives NULL if and only if no value is there that is not NULL.  It gives the same on every
list with the same values between its NULLs, wherever those are, and from an accumulator that was
fed any rows before, even ones that it refused, and then reset. -/
theorem ofColumn_gives (hfn : fn ∈ Function.builtins) (hmem : overload ∈ fn.variants)
    (hf : overload.implementation = .aggregate f) (ht : overload.arguments = [t])
    (h : ∀ v ∈ values, v.HasType t) :
    ∃ r, f.ofColumn values = .ok r ∧ f.Gives values r ∧
      (f ≠ count → (r = .null ↔ ∀ v ∈ values, v = .null)) ∧
      (∀ others, nonNull others = nonNull values → f.ofColumn others = .ok r) ∧
      ∀ rows : List (List Value), (rows.foldl feed (empty f)).reset.onColumn values = .ok r := by
  have htakes : f.Takes t := by
    intro hadds
    have hnumber := takes_of_builtin fn hfn overload hmem
      (by rw [hf]; exact hadds.imp (congrArg _) (congrArg _))
    exact List.singleton_inj.1 (ht.symm.trans hnumber)
  obtain ⟨r, hr, hgives⟩ := exists_ofColumn htakes h
  have hnull : nonNull values = [] ↔ ∀ v ∈ values, v = .null := by
    simp only [List.eq_nil_iff_forall_not_mem, mem_nonNull, not_and, not_not]
  refine ⟨r, hr, hgives, fun hf => (hgives.eq_null_iff hf).trans hnull, ?_, ?_⟩
  · intro others hothers
    rw [ofColumn, onColumn_nonNull, hothers, ← onColumn_nonNull]
    exact hr
  · intro rows
    rw [reset_foldl_feed]
    exact hr

/-- The least text of a column with a NULL in it, and with the least one twice. -/
theorem ofColumn_pears : ∃ r,
    minimum.ofColumn [.text "pear", .null, .text "apple", .text "apple"] = .ok r ∧
      minimum.Gives [.text "pear", .null, .text "apple", .text "apple"] r ∧ r = .text "apple" := by
  have hfn : Function.named "MIN" ([DataType.number, .text, .date].map
      fun t => ⟨[t], t, .aggregate minimum⟩) ∈ Function.builtins := by
    simp [Function.builtins]
  have hmem : (⟨[.text], .text, .aggregate minimum⟩ : Variant) ∈
      [DataType.number, .text, .date].map fun t => ⟨[t], t, .aggregate minimum⟩ := by decide
  have htexts : ∀ v ∈ [Value.text "pear", .null, .text "apple", .text "apple"],
      v.HasType .text := by simp [HasType, Value.kind]
  have hvalue : minimum.ofColumn [.text "pear", .null, .text "apple", .text "apple"] =
      .ok (.text "apple") := by rfl
  obtain ⟨r, hr, hgives, _⟩ := ofColumn_gives hfn hmem rfl rfl htexts
  exact ⟨r, hr, hgives, Except.ok.inj (hr.symm.trans hvalue)⟩

end AggregateFunction

end SqlEngine
