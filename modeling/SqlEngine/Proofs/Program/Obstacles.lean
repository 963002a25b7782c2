import SqlEngine.Proofs.Program.Run
import SqlEngine.Proofs.Value.Operators

/-!
# Programs — why an instruction fails

An instruction takes a number of operands off the stack and puts a number of results there, whatever
the values are (`Instr.height_of_step`).  It fails for want of operands, at an obstacle
(`Instr.Obstacle`), or because its nested query ends with a stack fault
(`Instr.step_eq_error`).  No obstacle is a stack fault.
-/

namespace SqlEngine

variable {env : Env} {queries : List Query} {e : Error} {m m' : Machine}

/-! ### Stack faults -/

/-- A program found too few values on its stack, or too many. -/
def Error.OfStack : Error → Prop
  | .internal .stackUnderflow | .internal (.stackLeftover _) => True
  | _ => False

theorem Error.OfStack.avoids {α : Type} {e' : Error} (he : e.OfStack) (h : ¬ e'.OfStack) :
    Avoids e (.error e' : Except Error α) :=
  .error fun heq => h (heq ▸ he)

theorem Value.not_ofStack_of_apply {op : Operator} {a b : Value} (h : a.apply op b = .error e) :
    ¬ e.OfStack := by
  obtain rfl | ⟨op', rfl⟩ := Value.apply_eq_error h
  · exact id
  · exact id

namespace ScalarFunction

variable {f : ScalarFunction} {args : List Value}

theorem textArgument_avoids (he : e.OfStack) (i : Nat) : Avoids e (f.textArgument args i) := by
  rw [textArgument]
  split
  · exact .ok _
  · exact he.avoids id

theorem numberArgument_avoids (he : e.OfStack) (i : Nat) : Avoids e (f.numberArgument args i) := by
  rw [numberArgument]
  split
  · exact .ok _
  · exact he.avoids id

theorem strict_avoids {r : Except Error Value} (h : Avoids e r) : Avoids e (strict args r) := by
  rw [strict]
  split
  · exact .ok _
  · exact h

theorem roundArguments_avoids (he : e.OfStack) : Avoids e (roundArguments args) := by
  refine (numberArgument_avoids he 0).bind fun x => ?_
  split
  · exact .ok _
  refine (numberArgument_avoids he 1).bind fun places => ?_
  split
  · exact .ok _
  · exact he.avoids id

/-- A scalar function has no stack to complain of. -/
theorem eval_avoids (he : e.OfStack) (ctx : CallContext) : Avoids e (f.eval ctx args) := by
  cases f with
  | rowNumber | rowId | now => exact .ok _
  | date =>
    refine strict_avoids ((textArgument_avoids he 0).bind fun s => ?_)
    rw [dateOf]
    split
    · exact .ok _
    · exact he.avoids id
  | lower | upper | length => exact strict_avoids ((textArgument_avoids he 0).bind fun _ => .ok _)
  | abs => exact strict_avoids ((numberArgument_avoids he 0).bind fun _ => .ok _)
  | round => exact strict_avoids (roundArguments_avoids he)

end ScalarFunction

/-! ### Instructions -/

namespace Instr

/-- The number of values that the instruction takes off the stack. -/
def operands : Instr → Nat
  | call _ count => count
  | out          => 1
  | operator _   => 2
  | _            => 0

/-- The number of values that it puts there. -/
def results : Instr → Nat
  | columnOut _ _ | out => 0
  | _                   => 1

theorem effect_eq (i : Instr) : i.effect = i.results - i.operands := by
  cases i <;> rfl

/-- What stops an instruction, with the error, apart from its operands being too few: what it names
is not there, or what it does with its operands fails. -/
inductive Obstacle (env : Env) (queries : List Query) (m : Machine) : Instr → Error → Prop
  | column {i j : Nat} (h : env.positions[i]? = none) :
      Obstacle env queries m (.column i j) (.internal (.noSource i))
  | outer {l i j : Nat} (h : env.frame? l = none) :
      Obstacle env queries m (.outer l i j) (.internal (.noFrame l))
  | groupKey {i : Nat} (h : env.keys[i]? = none) :
      Obstacle env queries m (.groupKey i) (.internal (.noGroupKey i))
  | aggregate {i : Nat} (h : env.results[i]? = none) :
      Obstacle env queries m (.aggregate i) (.internal (.noAggregate i))
  /-- The function of a call is looked up before the operands are counted. -/
  | function {o : Overload} {count : Nat} (h : env.catalog.variant? o = none) :
      Obstacle env queries m (.call o count) (.internal (.noFunction o.function o.variant))
  | notScalar {o : Overload} {count : Nat} {v : Variant} {f : AggregateFunction}
      (h : env.catalog.variant? o = some v) (hf : v.implementation = .aggregate f) :
      Obstacle env queries m (.call o count) (.internal .aggregateCalled)
  | call {o : Overload} {v : Variant} {f : ScalarFunction} {args rest : List Value} {e : Error}
      (h : env.catalog.variant? o = some v) (hf : v.implementation = .scalar f)
      (hstack : m.stack = args.reverse ++ rest) (he : f.eval env.callContext args = .error e) :
      Obstacle env queries m (.call o args.length) e
  | subSelect {i : Nat} (h : queries[i]? = none) :
      Obstacle env queries m (.select i) (.internal (.noSubSelect i))
  | query {i : Nat} {q : Query} {e : Error} (h : queries[i]? = some q)
      (he : q (env.frame :: env.outer) = .error e) (hother : ¬ e.OfStack) :
      Obstacle env queries m (.select i) e
  | rows {i : Nat} {q : Query} {rows : List OutputRow} (h : queries[i]? = some q)
      (hrows : q (env.frame :: env.outer) = .ok rows) (hmany : 1 < rows.length) :
      Obstacle env queries m (.select i) (.subSelectRows rows.length)
  | source {i j : Nat} (h : env.positions[i]? = none) :
      Obstacle env queries m (.columnOut i j) (.internal (.noSource i))
  | columnOut {i j : Nat} {p : Position} (h : env.positions[i]? = some p) (hout : m.output = none) :
      Obstacle env queries m (.columnOut i j) (.internal .noOutputRow)
  | out (hstack : m.stack ≠ []) (hout : m.output = none) :
      Obstacle env queries m .out (.internal .noOutputRow)
  | operator {op : Operator} {a b : Value} {rest : List Value} {e : Error}
      (hstack : m.stack = b :: a :: rest) (he : a.apply op b = .error e) :
      Obstacle env queries m (.operator op) e

/-- The nested query of the instruction ends with a stack fault of its own. -/
inductive PassesOn (env : Env) (queries : List Query) : Instr → Error → Prop
  | query {i : Nat} {q : Query} {e : Error} (h : queries[i]? = some q)
      (he : q (env.frame :: env.outer) = .error e) (hstack : e.OfStack) :
      PassesOn env queries (.select i) e

end Instr

/-! ### What an instruction does -/

/-- Only several rows are no value. -/
theorem nestedValue_eq_error {rows : List OutputRow} (h : nestedValue rows = .error e) :
    1 < rows.length ∧ e = .subSelectRows rows.length := by
  rcases rows with _ | ⟨row, _ | ⟨row', rest⟩⟩
  · cases h
  · cases h
  · exact ⟨Nat.lt_add_left rest.length Nat.one_lt_two, (Except.error.inj h).symm⟩

theorem nestedValue_of_many {rows : List OutputRow} (h : 1 < rows.length) :
    nestedValue rows = .error (.subSelectRows rows.length) := by
  rcases rows with _ | ⟨row, _ | ⟨row', rest⟩⟩
  · cases h
  · exact absurd h (Nat.lt_irrefl 1)
  · rfl

namespace Machine

theorem pushOr_eq_ok {fault : InternalFault} {v : Option Value} (h : m.pushOr fault v = .ok m') :
    ∃ x, m' = m.push x := by
  cases v with
  | some x => exact ⟨x, (Except.ok.inj h).symm⟩
  | none => cases h

theorem pushResult_eq_ok {r : Except Error Value} (h : m.pushResult r = .ok m') :
    ∃ x, m' = m.push x := by
  cases r with
  | ok x => exact ⟨x, (Except.ok.inj h).symm⟩
  | error e => cases h

theorem write_eq_ok {v : Value} (h : m.write v = .ok m') : m'.stack = m.stack := by
  rw [write] at h
  split at h
  · rw [← Except.ok.inj h]
  · cases h

theorem pop_eq_ok {v : Value} (h : m.pop = .ok (v, m')) :
    m.stack = v :: m'.stack ∧ m'.output = m.output := by
  rw [pop] at h
  split at h
  next _ rest hstack =>
    obtain ⟨rfl, rfl⟩ := Prod.mk.inj (Except.ok.inj h)
    exact ⟨hstack, rfl⟩
  next => cases h

theorem pushOr_eq_error {fault : InternalFault} {v : Option Value} {f : Failure}
    (h : m.pushOr fault v = .error f) : v = none ∧ f.error = .internal fault := by
  cases v with
  | some x => cases h
  | none => exact ⟨rfl, by rw [← Except.error.inj h]⟩

theorem pushResult_eq_error {r : Except Error Value} {f : Failure}
    (h : m.pushResult r = .error f) : r = .error f.error := by
  cases r with
  | ok x => cases h
  | error e => rw [← Except.error.inj h]

theorem write_eq_error {v : Value} {f : Failure} (h : m.write v = .error f) :
    m.output = none ∧ f.error = .internal .noOutputRow := by
  rw [write] at h
  split at h
  · cases h
  next hout => exact ⟨hout, by rw [← Except.error.inj h]⟩

theorem pop_eq_error {f : Failure} (h : m.pop = .error f) :
    m.stack = [] ∧ f.error = .internal .stackUnderflow := by
  rw [pop] at h
  split at h
  · cases h
  next hstack => exact ⟨hstack, by rw [← Except.error.inj h]⟩

end Machine

namespace Instr

variable {i : Instr}

/-- **An instruction that succeeds had its operands**, and has put its results in their place. -/
theorem height_of_step (h : i.step env queries m = .ok m') :
    i.operands ≤ m.stack.length ∧
      m'.stack.length = m.stack.length - i.operands + i.results := by
  have hpush : ∀ x : Value, m' = m.push x → 0 ≤ m.stack.length ∧
      m'.stack.length = m.stack.length - 0 + 1 := by
    rintro x rfl
    exact ⟨Nat.zero_le _, rfl⟩
  cases i with
  | number | text | boolean | null => exact hpush _ (Except.ok.inj h).symm
  | column | outer | groupKey | aggregate =>
    obtain ⟨x, hx⟩ := Machine.pushOr_eq_ok h
    exact hpush x hx
  | call o count =>
    simp only [step] at h
    split at h
    · cases h
    · cases h
    · rw [Machine.call] at h
      split at h
      · cases h
      next hcount =>
        obtain ⟨x, rfl⟩ := Machine.pushResult_eq_ok h
        exact ⟨Nat.le_of_not_lt hcount, by simp [Machine.push, operands, results]⟩
  | select j =>
    simp only [step] at h
    split at h
    · cases h
    · obtain ⟨x, hx⟩ := Machine.pushResult_eq_ok h
      exact hpush x hx
  | columnOut j k =>
    simp only [step] at h
    split at h
    · cases h
    · rw [Machine.write_eq_ok h]
      exact ⟨Nat.zero_le _, rfl⟩
  | out =>
    obtain ⟨⟨v, m₁⟩, hpop, h⟩ := bind_eq_ok_iff.1 h
    rw [Machine.write_eq_ok h, (Machine.pop_eq_ok hpop).1]
    exact ⟨Nat.succ_pos _, rfl⟩
  | operator op =>
    obtain ⟨⟨right, m₁⟩, hright, h⟩ := bind_eq_ok_iff.1 h
    obtain ⟨⟨left, m₂⟩, hleft, h⟩ := bind_eq_ok_iff.1 h
    obtain ⟨x, rfl⟩ := Machine.pushResult_eq_ok h
    rw [(Machine.pop_eq_ok hright).1, (Machine.pop_eq_ok hleft).1]
    exact ⟨Nat.le_add_left 2 _, rfl⟩

/-- **Why an instruction fails**: at an obstacle, for want of operands, or because its nested query
ends with a stack fault. -/
theorem step_eq_error {f : Failure} (h : i.step env queries m = .error f) :
    i.Obstacle env queries m f.error ∨
      (m.stack.length < i.operands ∧ f.error = .internal .stackUnderflow) ∨
      i.PassesOn env queries f.error := by
  cases i with
  | number | text | boolean | null => cases h
  | column =>
    obtain ⟨hnone, hf⟩ := Machine.pushOr_eq_error h
    exact .inl (hf ▸ .column (Option.map_eq_none_iff.1 hnone))
  | outer =>
    obtain ⟨hnone, hf⟩ := Machine.pushOr_eq_error h
    exact .inl (hf ▸ .outer (Option.map_eq_none_iff.1 hnone))
  | groupKey =>
    obtain ⟨hnone, hf⟩ := Machine.pushOr_eq_error h
    exact .inl (hf ▸ .groupKey hnone)
  | aggregate =>
    obtain ⟨hnone, hf⟩ := Machine.pushOr_eq_error h
    exact .inl (hf ▸ .aggregate hnone)
  | call o count =>
    simp only [step] at h
    split at h
    next hnone =>
      obtain rfl := Except.error.inj h
      exact .inl (.function (Option.map_eq_none_iff.1 hnone))
    next hsome =>
      obtain ⟨v, hv, hg⟩ := Option.map_eq_some_iff.1 hsome
      obtain rfl := Except.error.inj h
      exact .inl (.notScalar hv hg)
    next g hsome =>
      obtain ⟨v, hv, hg⟩ := Option.map_eq_some_iff.1 hsome
      rw [Machine.call] at h
      split at h
      next hcount =>
        obtain rfl := Except.error.inj h
        exact .inr (.inl ⟨hcount, rfl⟩)
      next hcount =>
        have hlength : (m.stack.take count).reverse.length = count := by
          rw [List.length_reverse, List.length_take]
          omega
        have hstack : m.stack = (m.stack.take count).reverse.reverse ++ m.stack.drop count := by
          rw [List.reverse_reverse, List.take_append_drop]
        have hcall : Obstacle env queries m (.call o (m.stack.take count).reverse.length) f.error :=
          .call hv hg hstack (Machine.pushResult_eq_error h)
        rw [hlength] at hcall
        exact .inl hcall
  | select j =>
    simp only [step] at h
    split at h
    next hnone =>
      obtain rfl := Except.error.inj h
      exact .inl (.subSelect hnone)
    next q hq =>
      rcases bind_eq_error_iff.1 (Machine.pushResult_eq_error h) with he | ⟨rows, hrows, he⟩
      · by_cases hstack : f.error.OfStack
        · exact .inr (.inr (.query hq he hstack))
        · exact .inl (.query hq he hstack)
      · obtain ⟨hmany, hf⟩ := nestedValue_eq_error he
        exact .inl (hf ▸ .rows hq hrows hmany)
  | columnOut =>
    simp only [step] at h
    split at h
    next hnone =>
      obtain rfl := Except.error.inj h
      exact .inl (.source hnone)
    next hsome =>
      obtain ⟨hout, hf⟩ := Machine.write_eq_error h
      exact .inl (hf ▸ .columnOut hsome hout)
  | out =>
    rcases bind_eq_error_iff.1 h with hpop | ⟨⟨v, m₁⟩, hpop, h⟩
    · obtain ⟨hstack, hf⟩ := Machine.pop_eq_error hpop
      exact .inr (.inl ⟨by rw [hstack]; exact Nat.one_pos, hf⟩)
    · obtain ⟨hstack, hout⟩ := Machine.pop_eq_ok hpop
      obtain ⟨hnone, hf⟩ := Machine.write_eq_error h
      exact .inl (hf ▸ .out (by rw [hstack]; exact List.cons_ne_nil _ _) (hout ▸ hnone))
  | operator op =>
    rcases bind_eq_error_iff.1 h with hpop | ⟨⟨right, m₁⟩, hright, h⟩
    · obtain ⟨hstack, hf⟩ := Machine.pop_eq_error hpop
      exact .inr (.inl ⟨by rw [hstack]; exact Nat.two_pos, hf⟩)
    rcases bind_eq_error_iff.1 h with hpop | ⟨⟨left, m₂⟩, hleft, h⟩
    · obtain ⟨hstack, hf⟩ := Machine.pop_eq_error hpop
      refine .inr (.inl ⟨?_, hf⟩)
      rw [(Machine.pop_eq_ok hright).1, hstack]
      exact Nat.one_lt_two
    · have hstack : m.stack = right :: left :: m₂.stack := by
        rw [(Machine.pop_eq_ok hright).1, (Machine.pop_eq_ok hleft).1]
      exact .inl (.operator hstack (Machine.pushResult_eq_error h))

/-- An obstacle stops the instruction. -/
theorem Obstacle.exists_error (h : i.Obstacle env queries m e) :
    ∃ m', i.step env queries m = .error ⟨e, m'⟩ := by
  cases h with
  | column h | outer h | groupKey h | aggregate h | function h | subSelect h | source h =>
    exact ⟨m, by simp only [step, h]; rfl⟩
  | notScalar h hf => exact ⟨m, by simp only [step, h, hf, Option.map_some]; rfl⟩
  | @call o v f args rest _ h hf hstack he =>
    have hlength : ¬ m.stack.length < args.length := by
      rw [hstack]
      simp
    have htake : (m.stack.take args.length).reverse = args := by
      rw [hstack]
      simp
    refine ⟨{ m with stack := m.stack.drop args.length }, ?_⟩
    simp only [step, h, hf, Option.map_some, Machine.call, if_neg hlength, htake, he]
    rfl
  | query h he hother => exact ⟨m, by simp only [step, h, he]; rfl⟩
  | rows h hrows hmany =>
    exact ⟨m, by simp only [step, h, hrows, ok_bind, nestedValue_of_many hmany]; rfl⟩
  | columnOut h hout => exact ⟨m, by simp only [step, h, Machine.write, hout]; rfl⟩
  | out hstack hout =>
    obtain ⟨v, rest, hcons⟩ := List.exists_cons_of_ne_nil hstack
    exact ⟨_, by simp only [step, Machine.pop, hcons, ok_bind, Machine.write, hout]; rfl⟩
  | operator hstack he =>
    exact ⟨_, by simp only [step, Machine.pop, hstack, ok_bind, he]; rfl⟩

/-- The stack is no obstacle. -/
theorem Obstacle.not_ofStack (h : i.Obstacle env queries m e) : ¬ e.OfStack := by
  cases h with
  | call _ _ _ he => exact fun hstack => ScalarFunction.eval_avoids hstack _ he
  | query _ _ hother => exact hother
  | operator _ he => exact Value.not_ofStack_of_apply he
  | _ => exact id

theorem PassesOn.ofStack (h : i.PassesOn env queries e) : e.OfStack := by
  cases h with
  | query _ _ hstack => exact hstack

/-- A stack fault of the nested query stops the instruction. -/
theorem PassesOn.step_eq (h : i.PassesOn env queries e) (m : Machine) :
    i.step env queries m = .error ⟨e, m⟩ := by
  cases h with
  | query h he _ =>
    simp only [step, h, he]
    rfl

end Instr

end SqlEngine
