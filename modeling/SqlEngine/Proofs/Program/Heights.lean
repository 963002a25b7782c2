import SqlEngine.Proofs.Program.Obstacles

/-!
# Programs — the height of the stack

After some instructions the height of the stack is the sum of their effects (`netEffect`), and where
that is less than what the next one takes there is no way on.

* `Program.Reaches.height`, `Program.exists_stackDepth`: the heights in a run, and the greatest one.
* `Program.reports_iff`: when the evaluation of a program ends with a stack fault.
* `Leads`: code that never lacks operands.  `Program.value_avoids`, `Program.write_avoids`: it ends
  with a stack fault only if a nested query does.
-/

namespace SqlEngine

variable {env : Env} {queries : List Query} {m m' : Machine}

/-! ### Code -/

/-- The sum of the effects of instructions. -/
def netEffect : List Instr → Int
  | []        => 0
  | i :: code => i.effect + netEffect code

@[simp] theorem netEffect_nil : netEffect [] = 0 := rfl

@[simp] theorem netEffect_cons (i : Instr) (code : List Instr) :
    netEffect (i :: code) = i.effect + netEffect code := rfl

/-- **The height of the stack after a run** is the one before it and the sum of the effects. -/
theorem height_of_runCode {code : List Instr} (h : runCode env queries m code = .ok m') :
    (m'.stack.length : Int) = m.stack.length + netEffect code := by
  induction code generalizing m with
  | nil =>
    obtain rfl := Except.ok.inj h
    simp
  | cons i code ih =>
    obtain ⟨m₁, hstep, h⟩ := bind_eq_ok_iff.1 h
    obtain ⟨hoperands, hheight⟩ := Instr.height_of_step hstep
    rw [ih h, netEffect_cons, i.effect_eq]
    omega

/-- Code that fails does so at one of its instructions. -/
theorem exists_of_runCode_error {code : List Instr} {f : Failure}
    (h : runCode env queries m code = .error f) :
    ∃ k m' i, runCode env queries m (code.take k) = .ok m' ∧ code[k]? = some i ∧
      i.step env queries m' = .error f := by
  induction code generalizing m with
  | nil => cases h
  | cons i code ih =>
    rcases bind_eq_error_iff.1 h with hstep | ⟨m₁, hstep, h⟩
    · exact ⟨0, m, i, rfl, rfl, hstep⟩
    · obtain ⟨k, m', j, hrun, hj, hfail⟩ := ih h
      refine ⟨k + 1, m', j, ?_, hj, hfail⟩
      rw [List.take_succ_cons, runCode, hstep]
      exact hrun

/-- No height on the way is above the peak. -/
theorem le_peak : ∀ (code : List Instr) (height : Int) (k : Nat),
    height + netEffect (code.take k) ≤ peak height code
  | [], height, k => by simp [peak]
  | i :: code, height, 0 => by
    rw [List.take_zero, netEffect_nil, peak]
    omega
  | i :: code, height, k + 1 => by
    have hrest := le_peak code (height + i.effect) k
    rw [List.take_succ_cons, netEffect_cons, peak]
    omega

/-- The peak is a height on the way. -/
theorem exists_peak : ∀ (code : List Instr) (height : Int),
    ∃ k ≤ code.length, height + netEffect (code.take k) = peak height code
  | [], height => ⟨0, Nat.le_refl 0, Int.add_zero height⟩
  | i :: code, height => by
    obtain ⟨k, hk, hpeak⟩ := exists_peak code (height + i.effect)
    rcases Int.le_total (peak (height + i.effect) code) height with hle | hle
    · refine ⟨0, Nat.zero_le _, ?_⟩
      rw [List.take_zero, netEffect_nil, peak]
      omega
    · refine ⟨k + 1, Nat.succ_le_succ hk, ?_⟩
      rw [List.take_succ_cons, netEffect_cons, peak]
      omega

/-! ### Code that does not lack operands -/

/-- From the height `low` no instruction of the code lacks operands, and the height at the end is
`high`. -/
inductive Leads : Nat → List Instr → Nat → Prop
  | nil (height : Nat) : Leads height [] height
  | cons {low high : Nat} {i : Instr} {code : List Instr} (hi : i.operands ≤ low)
      (hcode : Leads (low - i.operands + i.results) code high) : Leads low (i :: code) high

namespace Leads

variable {low mid high : Nat} {code more : List Instr} {i : Instr}

theorem single (hi : i.operands ≤ low) : Leads low [i] (low - i.operands + i.results) :=
  .cons hi (.nil _)

/-- An instruction that only pushes. -/
theorem push (hoperands : i.operands = 0) (hresults : i.results = 1) : Leads 0 [i] 1 := by
  have h := single (Nat.le_of_eq hoperands)
  rw [hoperands, hresults] at h
  exact h

theorem append (h : Leads low code mid) (hmore : Leads mid more high) :
    Leads low (code ++ more) high := by
  induction h with
  | nil => exact hmore
  | cons hi _ ih => exact .cons hi (ih hmore)

/-- What is below is left alone. -/
theorem above (h : Leads low code high) (below : Nat) :
    Leads (low + below) code (high + below) := by
  induction h with
  | nil => exact .nil _
  | @cons low high i code hi _ ih =>
    have hrest : low + below - i.operands + i.results = low - i.operands + i.results + below := by
      omega
    exact .cons (Nat.le_add_right_of_le hi) (hrest ▸ ih)

theorem netEffect_eq (h : Leads low code high) : (high : Int) = low + netEffect code := by
  induction h with
  | nil => simp
  | @cons low high i code hi _ ih =>
    rw [ih, netEffect_cons, i.effect_eq]
    omega

theorem operands_le {k : Nat} (h : Leads low code high) (hk : code[k]? = some i) :
    (i.operands : Int) ≤ low + netEffect (code.take k) := by
  induction h generalizing k with
  | nil => cases hk
  | @cons low high j code hj _ ih =>
    cases k with
    | zero =>
      obtain rfl := Option.some.inj hk
      simpa using hj
    | succ k =>
      have hrest := ih hk
      rw [List.take_succ_cons, netEffect_cons, j.effect_eq]
      omega

end Leads

/-! ### Programs -/

namespace Program

variable {p : Program Query} {k : Nat}

/-- After its first `k` instructions the program has come from `m` to the machine `m'`. -/
def Reaches (p : Program Query) (env : Env) (m : Machine) (k : Nat) (m' : Machine) : Prop :=
  k ≤ p.code.length ∧ runCode env p.queries { m with stack := [] } (p.code.take k) = .ok m'

theorem reaches_run : p.Reaches env m p.code.length m' ↔ p.run env m = .ok m' := by
  rw [Reaches, List.take_length]
  exact and_iff_right (Nat.le_refl _)

namespace Reaches

theorem unique {m'' : Machine} (h : p.Reaches env m k m') (h' : p.Reaches env m k m'') :
    m' = m'' :=
  Except.ok.inj (h.2.symm.trans h'.2)

/-- **The height after each instruction** is the sum of the effects so far. -/
theorem height (h : p.Reaches env m k m') :
    (m'.stack.length : Int) = netEffect (p.code.take k) := by
  simpa using height_of_runCode h.2

theorem le_stackDepth (h : p.Reaches env m k m') : m'.stack.length ≤ stackDepth p.code := by
  have hpeak := le_peak p.code 0 k
  have hheight := h.height
  rw [stackDepth]
  omega

/-- What comes after `l` instructions has passed every point before. -/
theorem of_le {l : Nat} (h : p.Reaches env m l m') (hk : k ≤ l) : ∃ m₁, p.Reaches env m k m₁ := by
  obtain ⟨hl, hrun⟩ := h
  have hsplit : p.code.take l = p.code.take k ++ (p.code.take l).drop k := by
    have htake := List.take_append_drop k (p.code.take l)
    rw [List.take_take, Nat.min_eq_left hk] at htake
    exact htake.symm
  rw [hsplit, runCode_append] at hrun
  obtain ⟨m₁, hfirst, -⟩ := bind_eq_ok_iff.1 hrun
  exact ⟨m₁, Nat.le_trans hk hl, hfirst⟩

/-- What comes further has done the instruction. -/
theorem exists_step {l : Nat} {m₁ : Machine} {i : Instr} (h : p.Reaches env m l m') (hk : k < l)
    (h₁ : p.Reaches env m k m₁) (hi : p.code[k]? = some i) :
    ∃ m₂, i.step env p.queries m₁ = .ok m₂ := by
  obtain ⟨m₂, -, hrun⟩ := h.of_le hk
  rw [List.take_add_one, hi, runCode_append, h₁.2, ok_bind] at hrun
  exact ⟨m₂, by rwa [Option.toList_some, runCode_singleton] at hrun⟩

end Reaches

/-- In a run that succeeds the stack is somewhere as high as the depth says. -/
theorem exists_stackDepth (h : p.run env m = .ok m') :
    ∃ k m₁, p.Reaches env m k m₁ ∧ m₁.stack.length = stackDepth p.code := by
  obtain ⟨k, hk, hpeak⟩ := exists_peak p.code 0
  obtain ⟨m₁, hreaches⟩ := (reaches_run.2 h).of_le hk
  have hheight := hreaches.height
  refine ⟨k, m₁, hreaches, ?_⟩
  rw [stackDepth]
  omega

/-- The program comes to the instruction at `k`, and it fails. -/
def FailsAt (p : Program Query) (env : Env) (m : Machine) (k : Nat) (f : Failure) : Prop :=
  ∃ m' i, p.Reaches env m k m' ∧ p.code[k]? = some i ∧ i.step env p.queries m' = .error f

namespace FailsAt

variable {f : Failure}

theorem lt_length (h : p.FailsAt env m k f) : k < p.code.length := by
  obtain ⟨m', i, -, hi, -⟩ := h
  exact (List.getElem?_eq_some_iff.1 hi).1

/-- There is no way on. -/
theorem not_lt {l : Nat} (h : p.FailsAt env m k f) (hl : p.Reaches env m l m') : ¬ k < l := by
  intro hk
  obtain ⟨m₁, i, hreaches, hi, hfail⟩ := h
  obtain ⟨m₂, hstep⟩ := hl.exists_step hk hreaches hi
  cases hstep.symm.trans hfail

theorem run_ne_ok (h : p.FailsAt env m k f) : p.run env m ≠ .ok m' :=
  fun hrun => h.not_lt (reaches_run.2 hrun) h.lt_length

end FailsAt

/-- A program that fails does so at one of its instructions. -/
theorem exists_failsAt {f : Failure} (h : p.run env m = .error f) : ∃ k, p.FailsAt env m k f := by
  obtain ⟨k, m', i, hrun, hi, hfail⟩ := exists_of_runCode_error h
  exact ⟨k, m', i, ⟨Nat.le_of_lt (List.getElem?_eq_some_iff.1 hi).1, hrun⟩, hi, hfail⟩

/-! ### Stack faults of programs -/

/-- The instruction at `k` meets an obstacle. -/
def Stops (p : Program Query) (env : Env) (m : Machine) (k : Nat) : Prop :=
  ∃ m' i e, p.Reaches env m k m' ∧ p.code[k]? = some i ∧ i.Obstacle env p.queries m' e

/-- By the effects of those before it the instruction at `k` lacks operands. -/
def Lacks (p : Program Query) (k : Nat) : Prop :=
  ∃ i, p.code[k]? = some i ∧ netEffect (p.code.take k) < i.operands

/-- By the effects of all instructions there is not one value left at the end. -/
def Unsettled (p : Program Query) (k : Nat) : Prop :=
  k = p.code.length ∧ netEffect p.code ≠ 1

/-- The instruction at `k` passes on a stack fault of its nested query. -/
def PassesOn (p : Program Query) (env : Env) (m : Machine) (k : Nat) : Prop :=
  ∃ m' i e, p.Reaches env m k m' ∧ p.code[k]? = some i ∧ i.PassesOn env p.queries e

/-- The evaluation of the program ends with a stack fault. -/
def Reports (p : Program Query) (env : Env) (m : Machine) : Prop :=
  ∃ f, p.evaluate env m = .error f ∧ f.error.OfStack

theorem Stops.exists_failsAt (h : p.Stops env m k) : ∃ f, p.FailsAt env m k f := by
  obtain ⟨m₁, i, e, hreaches, hi, hobstacle⟩ := h
  obtain ⟨m₂, hfail⟩ := hobstacle.exists_error
  exact ⟨_, m₁, i, hreaches, hi, hfail⟩

theorem PassesOn.exists_failsAt (h : p.PassesOn env m k) : ∃ f, p.FailsAt env m k f := by
  obtain ⟨m₁, i, e, hreaches, hi, hpasses⟩ := h
  exact ⟨_, m₁, i, hreaches, hi, hpasses.step_eq m₁⟩

/-- Without its operands the instruction cannot have been done. -/
theorem Lacks.not_lt {l : Nat} (h : p.Lacks k) (hl : p.Reaches env m l m') : ¬ k < l := by
  intro hk
  obtain ⟨i, hi, hlacks⟩ := h
  obtain ⟨m₁, hreaches⟩ := hl.of_le (Nat.le_of_lt hk)
  obtain ⟨m₂, hstep⟩ := hl.exists_step hk hreaches hi
  have hoperands := (Instr.height_of_step hstep).1
  rw [← hreaches.height] at hlacks
  omega

theorem Lacks.run_ne_ok (h : p.Lacks k) : p.run env m ≠ .ok m' := by
  intro hrun
  refine h.not_lt (reaches_run.2 hrun) ?_
  obtain ⟨i, hi, -⟩ := h
  exact (List.getElem?_eq_some_iff.1 hi).1

/-- A run that succeeds has to leave one value. -/
theorem reports_of_run (h : p.run env m = .ok m') :
    p.Reports env m ↔ m'.stack.length ≠ 1 := by
  have hevaluate : p.evaluate env m = m'.pop >>= fun r => r.2.requireEmpty >>= fun _ => .ok r := by
    rw [evaluate, h]
    rfl
  rw [Reports, hevaluate]
  obtain ⟨stack, output⟩ := m'
  rcases stack with _ | ⟨v, _ | ⟨w, rest⟩⟩
  case nil => exact iff_of_true ⟨_, rfl, trivial⟩ Nat.zero_ne_one
  case cons.nil =>
    refine iff_of_false ?_ fun hne => hne rfl
    rintro ⟨f, hf, -⟩
    cases hf
  case cons.cons => exact iff_of_true ⟨_, rfl, trivial⟩ (by simp)

theorem reports_of_error {f : Failure} (h : p.run env m = .error f) :
    p.Reports env m ↔ f.error.OfStack := by
  simp only [Reports, evaluate, h, error_bind, Except.error.injEq]
  constructor
  · rintro ⟨_, rfl, hstack⟩
    exact hstack
  · exact fun hstack => ⟨f, rfl, hstack⟩

/-- **When the evaluation ends with a stack fault**: no instruction meets an obstacle before one
lacks operands, or before the end, where there is not one value; or a nested query ends with one. -/
theorem reports_iff : p.Reports env m ↔ ∃ k, (∀ j ≤ k, ¬ p.Stops env m j) ∧
    (p.Lacks k ∨ p.Unsettled k ∨ p.PassesOn env m k) := by
  cases hrun : p.run env m with
  | ok m' =>
    have hheight := (reaches_run.2 hrun).height
    rw [List.take_length] at hheight
    rw [reports_of_run hrun]
    constructor
    · intro hne
      refine ⟨p.code.length, fun j _ hstops => ?_, .inr (.inl ⟨rfl, by omega⟩)⟩
      obtain ⟨f, hfails⟩ := hstops.exists_failsAt
      exact hfails.run_ne_ok hrun
    · rintro ⟨k, -, hlacks | ⟨-, hsum⟩ | hpasses⟩
      · exact absurd hrun hlacks.run_ne_ok
      · omega
      · obtain ⟨f, hfails⟩ := hpasses.exists_failsAt
        exact absurd hrun hfails.run_ne_ok
  | error f =>
    obtain ⟨l, m', i, hreaches, hi, hfail⟩ := exists_failsAt hrun
    have hcases := Instr.step_eq_error hfail
    rw [reports_of_error hrun]
    constructor
    · intro hstack
      -- an obstacle at the failing instruction would have been what it reports
      have hno : ¬ p.Stops env m l := by
        rintro ⟨m₁, i₁, e, hreaches₁, hi₁, hobstacle⟩
        obtain rfl := hreaches.unique hreaches₁
        obtain rfl := Option.some.inj (hi.symm.trans hi₁)
        obtain ⟨m₂, hstep⟩ := hobstacle.exists_error
        obtain rfl := Except.error.inj (hfail.symm.trans hstep)
        exact hobstacle.not_ofStack hstack
      refine ⟨l, fun j hj => ?_, ?_⟩
      · rcases Nat.lt_or_eq_of_le hj with hlt | rfl
        · intro hstops
          obtain ⟨g, hfails⟩ := hstops.exists_failsAt
          exact hfails.not_lt hreaches hlt
        · exact hno
      · rcases hcases with hobstacle | ⟨hlacks, -⟩ | hpasses
        · exact absurd ⟨m', i, _, hreaches, hi, hobstacle⟩ hno
        · have hheight := hreaches.height
          exact .inl ⟨i, hi, by omega⟩
        · exact .inr (.inr ⟨m', i, _, hreaches, hi, hpasses⟩)
    · rintro ⟨k, hnone, hfault⟩
      have hk : ¬ k < l := by
        rcases hfault with hlacks | hunsettled | hpasses
        · exact hlacks.not_lt hreaches
        · rw [hunsettled.1]
          exact Nat.not_lt_of_le hreaches.1
        · obtain ⟨g, hfails⟩ := hpasses.exists_failsAt
          exact hfails.not_lt hreaches
      rcases hcases with hobstacle | ⟨-, hunderflow⟩ | hpasses
      · exact absurd ⟨m', i, _, hreaches, hi, hobstacle⟩ (hnone l (Nat.le_of_not_lt hk))
      · rw [hunderflow]
        trivial
      · exact hpasses.ofStack

/-! ### Programs that end with no stack fault -/

section Avoids

variable {e : Error} {n : Nat}

/-- Code that never lacks operands fails with a stack fault only if a nested query does. -/
theorem run_avoids (he : e.OfStack) (hcode : Leads 0 p.code n)
    (hqueries : ∀ q ∈ p.queries, ∀ frames, Avoids e (q frames)) {f : Failure}
    (h : p.run env m = .error f) : f.error ≠ e := by
  rintro rfl
  obtain ⟨k, m', i, hreaches, hi, hfail⟩ := exists_failsAt h
  rcases Instr.step_eq_error hfail with hobstacle | ⟨hlacks, -⟩ | hpasses
  · exact hobstacle.not_ofStack he
  · have hheight := hreaches.height
    have hoperands := hcode.operands_le hi
    omega
  · cases hpasses with
    | query hq herror _ => exact hqueries _ (List.mem_of_getElem? hq) _ herror

theorem length_of_run (hcode : Leads 0 p.code n) (h : p.run env m = .ok m') :
    m'.stack.length = n := by
  have hheight := (reaches_run.2 h).height
  have hsum := hcode.netEffect_eq
  rw [List.take_length] at hheight
  omega

/-- **A program for a value** ends with a stack fault only if a nested query does. -/
theorem value_avoids (he : e.OfStack) (hcode : Leads 0 p.code 1)
    (hqueries : ∀ q ∈ p.queries, ∀ frames, Avoids e (q frames)) (env : Env) :
    Avoids e (p.value env) := by
  cases hrun : p.run env ⟨[], none⟩ with
  | ok m' =>
    obtain ⟨v, hstack⟩ := List.length_eq_one_iff.1 (length_of_run hcode hrun)
    simp only [value, evaluate, hrun, ok_bind, Machine.pop, hstack]
    exact .ok v
  | error f =>
    simp only [value, evaluate, hrun, error_bind]
    exact .error (run_avoids he hcode hqueries hrun)

/-- **A program for the output row** ends with a stack fault only if a nested query does. -/
theorem write_avoids (he : e.OfStack) (hcode : Leads 0 p.code 0)
    (hqueries : ∀ q ∈ p.queries, ∀ frames, Avoids e (q frames)) (env : Env) (row : List Value) :
    Avoids e (p.write env row) := by
  cases hrun : p.run env ⟨[], some row⟩ with
  | ok m' =>
    have hstack := List.length_eq_zero_iff.1 (length_of_run hcode hrun)
    simp only [write, execute, hrun, ok_bind, Machine.requireEmpty, hstack]
    exact .ok _
  | error f =>
    simp only [write, execute, hrun, error_bind]
    exact .error (run_avoids he hcode hqueries hrun)

end Avoids

end Program

end SqlEngine
