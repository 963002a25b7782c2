import SqlEngine.Program.Machine
import SqlEngine.Proofs.Formula.Tree
import SqlEngine.Proofs.Result

/-!
# Programs — what code yields

Code *yields* a result when from every machine it pushes the value, or fails with the error, and
does nothing else (`Yields`).  A program whose code yields a result has that result as its value,
whatever was on the stack (`Yields.evaluates`), and followed by `out` it adds that value to the
output row (`Yields.appends`).  The code of an operator tree yields the value of the tree
(`Formula.Tree.yields_code`).
-/

namespace SqlEngine

/-- The outcome of a run from `m` that gives the result and touches nothing else. -/
def Machine.Gives (m : Machine) (r : Except Error Value) : Except Failure Machine → Prop
  | .ok m'   => ∃ v, r = .ok v ∧ m' = m.push v
  | .error f => r = .error f.error ∧ f.machine.output = m.output

/-- From every machine the code pushes the value, or fails with the error. -/
def Yields (env : Env) (queries : List Query) (code : List Instr) (r : Except Error Value) : Prop :=
  ∀ m : Machine, m.Gives r (runCode env queries m code)

/-- The outcome of a run from `m` that gives several results, the first one deepest. -/
def Machine.GivesAll (m : Machine) (r : Except Error (List Value)) :
    Except Failure Machine → Prop
  | .ok m'   => ∃ vs, r = .ok vs ∧ m' = { m with stack := vs.reverse ++ m.stack }
  | .error f => r = .error f.error ∧ f.machine.output = m.output

/-- From every machine the code pushes the values, or fails with the first error. -/
def YieldsAll (env : Env) (queries : List Query) (code : List Instr)
    (r : Except Error (List Value)) : Prop :=
  ∀ m : Machine, m.GivesAll r (runCode env queries m code)

variable {env : Env} {queries : List Query}

theorem runCode_append (m : Machine) (a b : List Instr) :
    runCode env queries m (a ++ b) = runCode env queries m a >>= (runCode env queries · b) := by
  induction a generalizing m with
  | nil => rfl
  | cons i a ih =>
    simp only [List.cons_append, runCode]
    cases i.step env queries m with
    | ok m' => exact ih m'
    | error f => rfl

theorem runCode_singleton (m : Machine) (i : Instr) :
    runCode env queries m [i] = i.step env queries m := by
  simp only [runCode]
  cases i.step env queries m <;> rfl

/-! ### Single instructions -/

theorem Machine.gives_push (m : Machine) (v : Value) : m.Gives (.ok v) (.ok (m.push v)) :=
  ⟨v, rfl, rfl⟩

theorem Machine.gives_pushResult (m : Machine) (r : Except Error Value) :
    m.Gives r (m.pushResult r) := by
  cases r with
  | ok v => exact m.gives_push v
  | error e => exact ⟨rfl, rfl⟩

/-- An instruction yields what its step gives. -/
theorem Yields.of_step {i : Instr} {r : Except Error Value}
    (h : ∀ m : Machine, m.Gives r (i.step env queries m)) : Yields env queries [i] r := by
  intro m
  rw [runCode_singleton]
  exact h m

/-- Popping both operands and pushing the result of the operator. -/
theorem step_operator (op : Operator) (m : Machine) (a b : Value) :
    (Instr.operator op).step env queries ((m.push a).push b) = m.pushResult (a.apply op b) := rfl

/-! ### Code in sequence -/

theorem Yields.cases {code : List Instr} {r : Except Error Value} (h : Yields env queries code r)
    (m : Machine) :
    (∃ v, r = .ok v ∧ runCode env queries m code = .ok (m.push v)) ∨
      ∃ f, r = .error f.error ∧ f.machine.output = m.output ∧
        runCode env queries m code = .error f := by
  have hm := h m
  cases hrun : runCode env queries m code with
  | ok m' =>
    rw [hrun] at hm
    obtain ⟨v, hv, rfl⟩ := hm
    exact .inl ⟨v, hv, rfl⟩
  | error f =>
    rw [hrun] at hm
    exact .inr ⟨f, hm.1, hm.2, rfl⟩

theorem YieldsAll.cases {code : List Instr} {r : Except Error (List Value)}
    (h : YieldsAll env queries code r) (m : Machine) :
    (∃ vs, r = .ok vs ∧
        runCode env queries m code = .ok { m with stack := vs.reverse ++ m.stack }) ∨
      ∃ f, r = .error f.error ∧ f.machine.output = m.output ∧
        runCode env queries m code = .error f := by
  have hm := h m
  cases hrun : runCode env queries m code with
  | ok m' =>
    rw [hrun] at hm
    obtain ⟨vs, hvs, rfl⟩ := hm
    exact .inl ⟨vs, hvs, rfl⟩
  | error f =>
    rw [hrun] at hm
    exact .inr ⟨f, hm.1, hm.2, rfl⟩

/-- The operands are evaluated from left to right, and then the operator is applied. -/
theorem Yields.operator {a b : List Instr} {ra rb : Except Error Value} (op : Operator)
    (ha : Yields env queries a ra) (hb : Yields env queries b rb) :
    Yields env queries (a ++ (b ++ [.operator op]))
      (ra >>= fun x => rb >>= fun y => x.apply op y) := by
  intro m
  rw [runCode_append]
  obtain ⟨x, rfl, hrun⟩ | ⟨f, rfl, hout, hrun⟩ := ha.cases m
  · rw [hrun, ok_bind, ok_bind, runCode_append]
    obtain ⟨y, rfl, hrun⟩ | ⟨f, rfl, hout, hrun⟩ := hb.cases (m.push x)
    · rw [hrun, ok_bind, ok_bind, runCode_singleton, step_operator]
      exact m.gives_pushResult _
    · rw [hrun]
      exact ⟨rfl, hout⟩
  · rw [hrun]
    exact ⟨rfl, hout⟩

theorem YieldsAll.nil : YieldsAll env queries [] (.ok []) :=
  fun _ => ⟨[], rfl, rfl⟩

theorem YieldsAll.cons {a b : List Instr} {r : Except Error Value}
    {rs : Except Error (List Value)} (ha : Yields env queries a r)
    (hb : YieldsAll env queries b rs) :
    YieldsAll env queries (a ++ b) (r >>= fun v => rs >>= fun vs => .ok (v :: vs)) := by
  intro m
  rw [runCode_append]
  obtain ⟨v, rfl, hrun⟩ | ⟨f, rfl, hout, hrun⟩ := ha.cases m
  · rw [hrun, ok_bind, ok_bind]
    obtain ⟨vs, rfl, hrun⟩ | ⟨f, rfl, hout, hrun⟩ := hb.cases (m.push v)
    · rw [hrun]
      exact ⟨v :: vs, rfl, by simp [Machine.push]⟩
    · rw [hrun]
      exact ⟨rfl, hout⟩
  · rw [hrun]
    exact ⟨rfl, hout⟩

/-- The result of an overload that is a scalar function. -/
def Overload.call (env : Env) (o : Overload) (args : List Value) : Except Error Value :=
  match (env.catalog.variant? o).map Variant.implementation with
  | none                => .error (.internal (.noFunction o.function o.variant))
  | some (.aggregate _) => .error (.internal .aggregateCalled)
  | some (.scalar f)    => f.eval env.callContext args

/-- A call takes as many values off the stack as arguments were pushed. -/
theorem YieldsAll.call {code : List Instr} {rs : Except Error (List Value)} {count : Nat}
    (o : Overload) (h : YieldsAll env queries code rs)
    (hcount : ∀ vs, rs = .ok vs → vs.length = count) :
    Yields env queries (code ++ [.call o count]) (rs >>= o.call env) := by
  intro m
  rw [runCode_append]
  obtain ⟨vs, rfl, hrun⟩ | ⟨f, rfl, hout, hrun⟩ := h.cases m
  · obtain rfl := hcount vs rfl
    rw [hrun, ok_bind, ok_bind, runCode_singleton]
    simp only [Instr.step, Overload.call]
    cases (env.catalog.variant? o).map Variant.implementation with
    | none => exact ⟨rfl, rfl⟩
    | some implementation =>
      cases implementation with
      | aggregate f => exact ⟨rfl, rfl⟩
      | scalar f =>
        have hlen : ¬ (vs.reverse ++ m.stack).length < vs.length := by simp
        have htake : (vs.reverse ++ m.stack).take vs.length = vs.reverse := by simp
        have hdrop : (vs.reverse ++ m.stack).drop vs.length = m.stack := by simp
        simp only [Machine.call, if_neg hlen, htake, hdrop, List.reverse_reverse]
        exact m.gives_pushResult _
  · rw [hrun]
    exact ⟨rfl, hout⟩

/-! ### Programs -/

/-- Whatever is on the stack, the program evaluates to the result, and it leaves nothing there when
it succeeds. -/
def Program.Evaluates (p : Program Query) (env : Env) (r : Except Error Value) : Prop :=
  ∀ m : Machine, match r with
    | .ok v    => p.evaluate env m = .ok (v, ⟨[], m.output⟩)
    | .error e => ∃ m', p.evaluate env m = .error ⟨e, m'⟩ ∧ m'.output = m.output

/-- Whatever is on the stack, the program adds the value to the output row and does nothing else, or
fails with the error and leaves the output row as it was. -/
def Program.Appends (p : Program Query) (env : Env) (r : Except Error Value) : Prop :=
  ∀ (stack : List Value) (row : List Value), match r with
    | .ok v    => p.execute env ⟨stack, some row⟩ = .ok ⟨[], some (row ++ [v])⟩
    | .error e => ∃ m', p.execute env ⟨stack, some row⟩ = .error ⟨e, m'⟩ ∧ m'.output = some row

theorem Yields.evaluates {code : List Instr} {r : Except Error Value}
    (h : Yields env queries code r) : Program.Evaluates ⟨code, queries⟩ env r := by
  intro m
  obtain ⟨v, rfl, hrun⟩ | ⟨f, rfl, hout, hrun⟩ := h.cases { m with stack := [] }
  · simp only [Program.evaluate, Program.run, hrun]
    rfl
  · refine ⟨f.machine, ?_, hout⟩
    simp only [Program.evaluate, Program.run, hrun]
    rfl

theorem Yields.appends {code : List Instr} {r : Except Error Value}
    (h : Yields env queries code r) : Program.Appends ⟨code ++ [.out], queries⟩ env r := by
  intro stack row
  obtain ⟨v, rfl, hrun⟩ | ⟨f, rfl, hout, hrun⟩ := h.cases ⟨[], some row⟩
  · simp only [Program.execute, Program.run, runCode_append, hrun]
    rfl
  · refine ⟨f.machine, ?_, hout⟩
    simp only [Program.execute, Program.run, runCode_append, hrun]
    rfl

/-- What a program evaluates to is its value. -/
theorem Program.Evaluates.value {p : Program Query} {r : Except Error Value}
    (h : p.Evaluates env r) : p.value env = r := by
  have hm := h ⟨[], none⟩
  cases r with
  | ok v => simp only [Program.value, hm]
  | error e =>
    obtain ⟨m', hm', -⟩ := hm
    simp only [Program.value, hm']

theorem Program.Appends.write {p : Program Query} {r : Except Error Value}
    (h : p.Appends env r) (row : List Value) :
    p.write env row = r >>= fun v => .ok (row ++ [v]) := by
  have hm := h [] row
  cases r with
  | ok v => simp only [Program.write, hm]; rfl
  | error e =>
    obtain ⟨m', hm', -⟩ := hm
    simp only [Program.write, hm']
    rfl

/-! ### Operator trees -/

namespace Formula.Tree

/-- The value of a tree: the left operand is evaluated first, and the first error decides. -/
def value : Tree (Except Error Value) → Except Error Value
  | leaf r             => r
  | group t            => t.value
  | node op left right => do
    let a ← left.value
    let b ← right.value
    a.apply op b

/-- The code of a tree of code. -/
def code : Tree (List Instr) → List Instr
  | leaf code          => code
  | group t            => t.code
  | node op left right => left.code ++ (right.code ++ [.operator op])

/-- Where each value's code yields its result, the code of the tree yields the tree's value. -/
theorem yields_code {t : Tree (List Instr)} {u : Tree (Except Error Value)}
    (h : Rel (Yields env queries) t u) : Yields env queries t.code u.value := by
  induction h with
  | leaf h => exact h
  | group _ ih => exact ih
  | node op _ _ ihl ihr => exact ihl.operator op ihr

end Formula.Tree

end SqlEngine
