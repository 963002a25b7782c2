import SqlEngine.Plan.Execution
import SqlEngine.Proofs.Lists
import SqlEngine.Proofs.Plan.Emission

/-!
# Plans — compiled expressions keep their meaning

The value of a resolved expression without aggregates, said on the expression itself: each value
node has a result, and the expression has the value of the operator tree over these results
(`Expr.value`).  A sub-select has the value that its plan gives for the rows around it.

* `Expr.emit_yields`: the code of an expression yields the value of the expression.
* `program_evaluates_tree`: the program of an expression evaluates to the value of the one tiered
  tree over the results of its nodes, and the program for the output row, with the short form for
  single columns or without, adds that value to the row.
-/

namespace SqlEngine

open Formula (tree?)

/-- The value of a column of the statement itself or of one around it. -/
def ColumnRef.value (env : Env) (r : ColumnRef) : Except Error Value :=
  match r.binding with
  | none   => .error (.internal (.unresolvedReference r.text))
  | some b =>
    if r.level == 0 then
      match env.positions[b.source]? with
      | some p => .ok (p.read b.column)
      | none   => .error (.internal (.noSource b.source))
    else
      match env.frame? r.level with
      | some f => .ok (f.read b.source b.column)
      | none   => .error (.internal (.noFrame r.level))

/-- The value of a sub-select: that of its rows when the current rows are around it. -/
def Select.value (c : Catalog) (env : Env) (s : Select) : Except Error Value := do
  let plan ← s.compile c
  nestedValue (← plan.query env.catalog env.now (env.frame :: env.outer))

mutual

/-- The value of an expression without aggregates; one that is no formula has none. -/
def Expr.value (c : Catalog) (env : Env) : Expr → Except Error Value
  | ⟨nodes, _, _, _, _, _, _⟩ =>
    match tree? (Node.results c env nodes) with
    | some t => t.value
    | none   => .error (.internal .noOperand)

/-- The node with the result of its value. -/
def Node.result (c : Catalog) (env : Env) : Node → Item (Except Error Value)
  | .operator op => .operator op
  | .openParen   => .openParen
  | .closeParen  => .closeParen
  | .number x    => .value (.ok (.number x))
  | .text s      => .value (.ok (.text s))
  | .boolean b   => .value (.ok (.boolean b))
  | .null        => .value (.ok .null)
  | .column r    => .value (r.value env)
  | .call f      => .value (f.value c env)
  | .select s    => .value (s.value c env)

def Node.results (c : Catalog) (env : Env) : List Node → List (Item (Except Error Value))
  | []      => []
  | n :: ns => n.result c env :: Node.results c env ns

/-- The result of a call for the values of its arguments. -/
def Call.value (c : Catalog) (env : Env) : Call → Except Error Value
  | ⟨function, _, none, _, _, _⟩             => .error (.internal (.unresolvedCall function))
  | ⟨_, arguments, some target, _, _, _⟩ => do target.call env (← Expr.values c env arguments)

def Expr.values (c : Catalog) (env : Env) : List Expr → Except Error (List Value)
  | []      => .ok []
  | e :: es => do
    let v ← e.value c env
    .ok (v :: (← Expr.values c env es))

end

/-! ### Code of expressions -/

variable {c : Catalog} {env : Env}

theorem Plan.queryAll_eq_map (c : Catalog) (now : Date.Instant) (plans : List Plan) :
    Plan.queryAll c now plans = plans.map (Plan.query c now) := by
  induction plans with
  | nil => rfl
  | cons p ps ih => rw [Plan.queryAll, ih, List.map_cons]

theorem Expr.length_values {es : List Expr} : ∀ {vs : List Value},
    Expr.values c env es = .ok vs → vs.length = es.length := by
  induction es with
  | nil =>
    intro vs h
    obtain rfl := Except.ok.inj h
    rfl
  | cons e es ih =>
    intro vs h
    simp only [Expr.values, bind_eq_ok_iff] at h
    obtain ⟨v, -, ws, hws, h⟩ := h
    obtain rfl := Except.ok.inj h
    simp [ih hws]

theorem ColumnRef.yields {r : ColumnRef} {i : Instr} (h : r.instr = .ok i) (queries : List Query) :
    Yields env queries [i] (r.value env) := by
  simp only [ColumnRef.instr, ColumnRef.expectBinding, bind_eq_ok_iff] at h
  obtain ⟨b, hb, h⟩ := h
  obtain rfl := Except.ok.inj h
  cases hbinding : r.binding with
  | none => simp [hbinding] at hb
  | some b' =>
    simp only [hbinding] at hb
    obtain rfl := Except.ok.inj hb
    refine .of_step fun m => ?_
    simp only [ColumnRef.value, hbinding]
    split
    · simp only [Instr.step]
      cases env.positions[b'.source]? with
      | none => exact ⟨rfl, rfl⟩
      | some p => exact m.gives_push _
    · simp only [Instr.step]
      cases env.frame? r.level with
      | none => exact ⟨rfl, rfl⟩
      | some f => exact m.gives_push _

/-- A nested plan that is among those of the program is run on the current rows. -/
theorem yields_select {plans : List Plan} {i : Nat} {plan : Plan} (h : plans[i]? = some plan) :
    Yields env (Plan.queryAll env.catalog env.now plans) [.select i]
      (plan.query env.catalog env.now (env.frame :: env.outer) >>= nestedValue) := by
  refine .of_step fun m => ?_
  simp only [Instr.step, Plan.queryAll_eq_map, List.getElem?_map, h, Option.map_some]
  exact m.gives_pushResult _

mutual

theorem Expr.emit_yields : ∀ {e : Expr} {parts : Parts} {code : Code},
    e.emit c none parts = .ok code → ∀ {plans : List Plan}, code.parts.queries <+: plans →
    (tree? (Node.results c env e.nodes)).isSome = true ∧
      Yields env (Plan.queryAll env.catalog env.now plans) code.instrs (e.value c env)
  | ⟨nodes, _, _, _, _, _, _⟩, parts, code, h, plans, hplans => by
    cases Expr.emit_cases h with
    -- without groups no key is read
    | key hi => cases hi
    | formula hi hitems ht =>
      obtain ⟨u, hu, hrel⟩ := Formula.tree?_rel (Node.emitAll_yields hitems hplans) ht
      simp only [Expr.value, hu]
      exact ⟨rfl, Formula.Tree.yields_code hrel⟩

theorem Node.emit_yields : ∀ {n : Node} {parts parts' : Parts} {item : Item (List Instr)},
    n.emit c none parts = .ok (item, parts') → ∀ {plans : List Plan}, parts'.queries <+: plans →
    Item.Rel (Yields env (Plan.queryAll env.catalog env.now plans)) item (n.result c env)
  | n, parts, parts', item, h, plans, hplans => by
    cases Node.emit_cases h with
    | operator op => exact .operator op
    | openParen => exact .openParen
    | closeParen => exact .closeParen
    | key hn hi => cases hi
    | number x => exact .value (.of_step fun m => m.gives_push _)
    | text s => exact .value (.of_step fun m => m.gives_push _)
    | boolean b => exact .value (.of_step fun m => m.gives_push _)
    | null => exact .value (.of_step fun m => m.gives_push _)
    | column hi => exact .value (ColumnRef.yields hi _)
    | call hi hf => exact .value (Call.emit_yields hf hplans)
    | @select s plan hi hs =>
      refine .value ?_
      simp only [Select.value, hs, ok_bind]
      exact yields_select (getElem?_of_append_le hplans)

theorem Node.emitAll_yields : ∀ {ns : List Node} {parts parts' : Parts}
    {items : List (Item (List Instr))}, Node.emitAll c none parts ns = .ok (items, parts') →
    ∀ {plans : List Plan}, parts'.queries <+: plans →
    List.Forall₂ (Item.Rel (Yields env (Plan.queryAll env.catalog env.now plans))) items
      (Node.results c env ns)
  | [], parts, parts', items, h, plans, hplans => by
    obtain ⟨rfl, -⟩ := Prod.mk.inj (Except.ok.inj h)
    exact .nil
  | n :: ns, parts, parts', items, h, plans, hplans => by
    obtain ⟨item, mid, rest, hitem, hrest, rfl⟩ := Node.emitAll_cons h
    exact .cons (Node.emit_yields hitem ((Node.emitAll_le hrest).queries.trans hplans))
      (Node.emitAll_yields hrest hplans)

theorem Call.emit_yields : ∀ {f : Call} {parts : Parts} {code : Code},
    f.emit c none parts = .ok code → ∀ {plans : List Plan}, code.parts.queries <+: plans →
    Yields env (Plan.queryAll env.catalog env.now plans) code.instrs (f.value c env)
  | ⟨_, arguments, _, _, _, _⟩, parts, code, h, plans, hplans => by
    cases Call.emit_cases h with
    | aggregate hkeys => cases hkeys
    | scalar hargs =>
      exact (Expr.emitAll_yields hargs hplans).call _ fun vs hvs => Expr.length_values hvs

theorem Expr.emitAll_yields : ∀ {es : List Expr} {parts : Parts} {code : Code},
    Expr.emitAll c none parts es = .ok code → ∀ {plans : List Plan},
    code.parts.queries <+: plans →
    YieldsAll env (Plan.queryAll env.catalog env.now plans) code.instrs (Expr.values c env es)
  | [], parts, code, h, plans, hplans => by
    obtain rfl := Except.ok.inj h
    exact .nil
  | e :: es, parts, code, h, plans, hplans => by
    obtain ⟨first, more, hfirst, hmore, rfl⟩ := Expr.emitAll_cons h
    have hprefix : first.parts.queries <+: plans := (Expr.emitAll_le hmore).queries.trans hplans
    exact .cons (Expr.emit_yields hfirst hprefix).2 (Expr.emitAll_yields hmore hplans)

end

/-! ### Programs of expressions -/

/-- The code that writes the column at once does what reading and writing it does. -/
theorem ColumnRef.appends_outInstr {r : ColumnRef} {i : Instr} (h : r.outInstr = .ok i)
    (hlevel : (r.level == 0) = true) (env : Env) (queries : List Query) :
    Program.Appends ⟨[i], queries⟩ env (r.value env) := by
  obtain ⟨b, hb, hi⟩ := bind_eq_ok_iff.1 h
  obtain rfl := Except.ok.inj hi
  cases hbinding : r.binding with
  | none => simp [ColumnRef.expectBinding, hbinding] at hb
  | some b' =>
    simp only [ColumnRef.expectBinding, hbinding] at hb
    obtain rfl := Except.ok.inj hb
    intro stack row
    simp only [ColumnRef.value, hbinding, hlevel, if_true, Program.execute, Program.run,
      runCode_singleton, Instr.step]
    cases env.positions[b'.source]? with
    | none => exact ⟨_, rfl, rfl⟩
    | some p => rfl

/-- An expression that is one column has the value of the column. -/
theorem Expr.value_of_column? {e : Expr} {r : ColumnRef} (h : e.column? = some r) :
    e.value c env = r.value env := by
  obtain ⟨nodes, _, _, _, _, _, _⟩ := e
  match nodes, h with
  | [.column _], h =>
    obtain rfl := Option.some.inj h
    rfl

/-- The column of an expression that compiles can be read. -/
theorem Expr.instr_of_column? {e : Expr} {r : ColumnRef} {parts : Parts} {code : Code}
    (h : e.column? = some r) (hcode : e.emit c none parts = .ok code) : ∃ i, r.instr = .ok i := by
  obtain ⟨nodes, _, _, _, _, _, _⟩ := e
  match nodes, h with
  | [.column _], h =>
    obtain rfl := Option.some.inj h
    cases Expr.emit_cases hcode with
    | key hi => cases hi
    | formula _ hitems _ =>
      obtain ⟨item, mid, rest, hitem, -, -⟩ := Node.emitAll_cons hitems
      cases Node.emit_cases hitem with
      | key _ hi => cases hi
      | column hi => exact ⟨_, hi⟩

/-- The program for the output row adds the value of the expression to it. -/
theorem Expr.outputCode_appends {e : Expr} {slots : List (Slot Plan)} {out : Code}
    (h : e.outputCode none slots (e.emit c none ⟨[], slots⟩) = .ok out) (env : Env) :
    (out.program.withQueries env.catalog env.now).Appends env (e.value c env) := by
  cases Expr.outputCode_cases h with
  | column _ hr hlevel hi => exact Expr.value_of_column? hr ▸ ColumnRef.appends_outInstr hi hlevel env []
  | value hcode => exact (Expr.emit_yields hcode List.prefix_rfl).2.appends

/-- What compiles can also be written to the output row. -/
theorem Expr.exists_outputCode_of_emit {e : Expr} {code : Code}
    (h : e.emit c none ⟨[], []⟩ = .ok code) :
    ∃ out, e.outputCode none [] (e.emit c none ⟨[], []⟩) = .ok out := by
  simp only [Expr.outputCode, h]
  cases hown : e.ownColumn? none with
  | none => exact ⟨_, rfl⟩
  | some r =>
    obtain ⟨i, hi⟩ := Expr.instr_of_column? (Expr.ownColumn?_eq_some hown).2.1 h
    obtain ⟨b, hb, -⟩ := bind_eq_ok_iff.1 hi
    exact ⟨_, by simp only [ColumnRef.outInstr, hb]; rfl⟩

/-- **Compiled expressions keep their meaning.**  The results of the nodes have exactly one tiered
tree.  In every environment, and on every stack, the program of the expression evaluates to the
value of this tree, and the program for the output row adds that value to the row. -/
theorem program_evaluates_tree {e : Expr} {p : Program Plan} (h : e.program c = .ok p) (env : Env) :
    ∃ t : Formula.Tree (Except Error Value),
      (t.Tiered ∧ t.items = Node.results c env e.nodes) ∧
      (∀ u : Formula.Tree (Except Error Value), u.Tiered →
        u.items = Node.results c env e.nodes → u = t) ∧
      (p.withQueries env.catalog env.now).Evaluates env t.value ∧
      ∃ out, e.outputCode none [] (e.emit c none ⟨[], []⟩) = .ok out ∧
        (out.program.withQueries env.catalog env.now).Appends env t.value := by
  obtain ⟨code, hcode, rfl⟩ := map_eq_ok_iff.1 h
  obtain ⟨hsome, hyields⟩ : (tree? (Node.results c env e.nodes)).isSome = true ∧
      Yields env _ code.instrs (e.value c env) := Expr.emit_yields hcode List.prefix_rfl
  obtain ⟨t, ht⟩ := Option.isSome_iff_exists.1 hsome
  have hvalue : e.value c env = t.value := by
    obtain ⟨nodes, _, _, _, _, _, _⟩ := e
    simp only [Expr.value, ht]
  have htree := Formula.tree?_eq_some_iff.1 ht
  refine ⟨t, htree, fun u hu hitems => ?_, ?_, ?_⟩
  · exact Option.some.inj ((Formula.tree?_eq_some_iff.2 ⟨hu, hitems⟩).symm.trans ht)
  · rw [← hvalue]
    exact hyields.evaluates
  · obtain ⟨out, hout⟩ := Expr.exists_outputCode_of_emit hcode
    exact ⟨out, hout, hvalue ▸ Expr.outputCode_appends hout env⟩

/-- `'a' || LOWER('B') = 'ab' AND (FALSE OR (SELECT TRUE))` -/
def Expr.nestedExample : Expr :=
  .ofNodes
    [.text "a", .operator .concat,
      .call ⟨"LOWER", [.ofNodes [.text "B"] "" 0], some ⟨4, 0⟩, .text, false, 0⟩,
      .operator .equal, .text "ab", .operator .and, .openParen, .boolean false, .operator .or,
      .select ⟨"", false, [.ofNodes [.boolean true] "" 0], none, [], none, [], [], none, 0⟩,
      .closeParen] "" 0

theorem nestedExample_evaluates_true :
    ∃ p, Expr.nestedExample.program (.named "main") = .ok p ∧
      (p.withQueries (.named "main") ⟨0, 0⟩).Evaluates
        ⟨.named "main", [], [], [], [], 0, 0, ⟨0, 0⟩⟩ (.ok (.boolean true)) := by
  obtain ⟨p, hp⟩ : ∃ p, Expr.nestedExample.program (.named "main") = .ok p := ⟨_, rfl⟩
  refine ⟨p, hp, ?_⟩
  obtain ⟨t, -, hunique, heval, -⟩ := program_evaluates_tree hp
    ⟨.named "main", [], [], [], [], 0, 0, ⟨0, 0⟩⟩
  have ht := hunique
    (.node .and
      (.node .equal (.node .concat (.leaf (.ok (.text "a"))) (.leaf (.ok (.text "b"))))
        (.leaf (.ok (.text "ab"))))
      (.group (.node .or (.leaf (.ok (.boolean false))) (.leaf (.ok (.boolean true))))))
    (by simp [Formula.Tree.Tiered, Formula.Tree.rank, Operator.tier, Tier.rank]) rfl
  have hvalue : t.value = .ok (.boolean true) := by rw [← ht]; rfl
  rw [hvalue] at heval
  exact heval

end SqlEngine
