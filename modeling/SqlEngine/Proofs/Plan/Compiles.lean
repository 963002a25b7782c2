import SqlEngine.Proofs.Plan.Emission
import SqlEngine.Proofs.Statement.Formulas

/-!
# Plans — what compiles

The compiler relies on a resolved SELECT: its expressions are formulas, columns are bound, calls
have their overloads and tables their ids, aggregates stand only where groups are projected, and no
output is a wildcard (`Local.compilable`).  It rechecks little of that, and asks for nothing else.

* `Select.exists_compile`: a SELECT of which all parts are compilable has a plan.
-/

namespace SqlEngine

open Formula (IsFormula)

/-! ### What is compilable -/

/-- The expressions of ON, WHERE and GROUP BY, which are evaluated row by row. -/
def Select.rowExprs (s : Select) : List Expr :=
  s.joins.filterMap Join.condition ++ s.filter.toList ++ s.groupBy

/-- All expressions of a SELECT, sub-selects apart. -/
def Select.clauses (s : Select) : List Expr :=
  s.output ++ s.rowExprs ++ s.orderBy.map OrderKey.expr

/-- A table has the id of one in the catalog. -/
def Source.Known (c : Catalog) : Source → Prop
  | .table _ _ id _ => ∃ i t, id = some i ∧ c.tables[i]? = some t
  | .select ..      => True

/-- A formula of bound columns, which says itself whether there is an aggregate in it. -/
structure Expr.Compilable (e : Expr) : Prop where
  formula : IsFormula (Node.shape e.nodes)
  bound : ∀ r, Node.column r ∈ e.nodes → ∃ b, r.binding = some b
  aggregate : e.hasAggregate = e.calls.any Call.isAggregate

/-- A call of an overload; there are no aggregates in the arguments of an aggregate. -/
structure Call.Compilable (f : Call) : Prop where
  target : ∃ o, f.target = some o
  nested : f.isAggregate = true → ∀ a ∈ f.arguments, a.hasAggregate = false

/-- A SELECT of known tables, with aggregates and without wildcards where they are due. -/
structure Select.Compilable (c : Catalog) (s : Select) : Prop where
  sources : ∀ source ∈ s.sources, source.Known c
  rowExprs : ∀ e ∈ s.rowExprs, e.hasAggregate = false
  output : ∀ e ∈ s.output, e.containsWildcard = false

/-- Every expression, call and SELECT is what the compiler takes. -/
def Local.compilable (c : Catalog) : Local :=
  ⟨Expr.Compilable, Call.Compilable, Select.Compilable c⟩

/-- There are aggregates only where group keys are given. -/
def Fit (keys : Option (List Expr)) (calls : List Call) : Prop :=
  keys = none → calls.any Call.isAggregate = false

section Fit

variable {keys : Option (List Expr)} {as bs : List Call}

theorem Fit.left (h : Fit keys (as ++ bs)) : Fit keys as := fun hkeys => by
  have := h hkeys
  rw [List.any_append, Bool.or_eq_false_iff] at this
  exact this.1

theorem Fit.right (h : Fit keys (as ++ bs)) : Fit keys bs := fun hkeys => by
  have := h hkeys
  rw [List.any_append, Bool.or_eq_false_iff] at this
  exact this.2

end Fit

/-- The calls of a node are those of the list that it is alone in. -/
theorem Node.callsOf_cons (n : Node) (ns : List Node) :
    Node.callsOf (n :: ns) = Node.callsOf [n] ++ Node.callsOf ns := by
  cases n <;> simp [Node.callsOf]

/-- An expression that has no aggregate fits everywhere. -/
theorem Expr.Compilable.fit {e : Expr} (h : e.Compilable) {keys : Option (List Expr)}
    (hplain : keys = none → e.hasAggregate = false) : Fit keys e.calls := fun hkeys => by
  rw [← h.aggregate, hplain hkeys]

/-- The outputs and the sort keys of a SELECT that folds no rows have no aggregates. -/
theorem Select.fit (s : Select) (e : Expr) (he : e.Compilable)
    (hmem : e ∈ s.output ∨ e ∈ s.orderBy.map OrderKey.expr) :
    Fit (if s.isAggregate then some s.groupBy else none) e.calls := by
  refine he.fit fun hkeys => ?_
  split at hkeys
  · cases hkeys
  next hplain =>
    simp only [isAggregate, Bool.or_eq_true, not_or, Bool.not_eq_true, List.any_eq_false] at hplain
    obtain ⟨⟨-, houtput⟩, horder⟩ := hplain
    rcases hmem with hmem | hmem
    · simpa using houtput e hmem
    · obtain ⟨k, hk, rfl⟩ := List.mem_map.1 hmem
      simpa using horder k hk

/-! ### Emitting -/

variable {c : Catalog} {keys : Option (List Expr)}

theorem ColumnRef.exists_instr {r : ColumnRef} (h : ∃ b, r.binding = some b) :
    ∃ i, r.instr = .ok i := by
  obtain ⟨b, hb⟩ := h
  exact ⟨_, by rw [instr, expectBinding, hb]; rfl⟩

theorem ColumnRef.exists_outInstr {r : ColumnRef} (h : ∃ b, r.binding = some b) :
    ∃ i, r.outInstr = .ok i := by
  obtain ⟨b, hb⟩ := h
  exact ⟨_, by rw [outInstr, expectBinding, hb]; rfl⟩

/-- Code for the values of a formula makes code for the formula. -/
theorem exists_formulaCode {shape : List (Item Unit)} {items : List (Item (List Instr))}
    (h : IsFormula shape) (hrel : List.Forall₂ (Item.Rel fun _ _ => True) shape items) :
    ∃ code, formulaCode items = .ok code := by
  obtain ⟨t, ht⟩ := Formula.isFormula_iff_tree.1 (h.of_rel hrel)
  exact ⟨t.code, formulaCode_eq_ok_iff.2 ⟨t, ht, rfl⟩⟩

theorem Expr.mem_of_column? {e : Expr} {r : ColumnRef} (h : e.column? = some r) :
    .column r ∈ e.nodes := by
  simp only [column?] at h
  split at h
  next r' hnodes =>
    obtain rfl := Option.some.inj h
    exact hnodes ▸ List.mem_singleton_self _
  next => cases h

theorem Expr.Compilable.column {e : Expr} (h : e.Compilable) {r : ColumnRef}
    (hr : e.ownColumn? keys = some r) : ∃ b, r.binding = some b :=
  h.bound r (Expr.mem_of_column? (Expr.ownColumn?_eq_some hr).2.1)

theorem Expr.exists_outputCode {e : Expr} (he : e.Compilable) (keys : Option (List Expr))
    (slots : List (Slot Plan)) {value : Except Error Code} (hvalue : ∃ code, value = .ok code) :
    ∃ code, e.outputCode keys slots value = .ok code := by
  simp only [outputCode]
  split
  next r hr =>
    obtain ⟨i, hi⟩ := ColumnRef.exists_outInstr (he.column hr)
    exact ⟨_, by rw [hi]; rfl⟩
  next =>
    obtain ⟨code, rfl⟩ := hvalue
    exact ⟨_, rfl⟩

mutual

theorem Expr.exists_emit : ∀ {e : Expr} (keys : Option (List Expr)) (parts : Parts),
    e.Everywhere (.compilable c) → Fit keys e.calls → ∃ code, e.emit c keys parts = .ok code
  | ⟨nodes, _, _, _, _, _, _⟩, keys, parts, ⟨he, hnodes⟩, hfit => by
    obtain ⟨hformula, hbound, -⟩ := he
    rw [Expr.emit]
    split
    · exact ⟨_, rfl⟩
    · obtain ⟨items, parts', hitems, hrel⟩ := Node.exists_emitAll keys parts hnodes hbound hfit
      obtain ⟨code, hcode⟩ := exists_formulaCode hformula hrel
      exact ⟨⟨code, parts'⟩, by simp only [hitems, ok_bind, hcode]⟩

theorem Node.exists_emit : ∀ {n : Node} (keys : Option (List Expr)) (parts : Parts),
    n.Everywhere (.compilable c) → (∀ r, n = .column r → ∃ b, r.binding = some b) →
    Fit keys (Node.callsOf [n]) →
    ∃ item parts', n.emit c keys parts = .ok (item, parts') ∧
      Item.Rel (fun _ _ => True) (n.item ()) item
  | .operator op, keys, parts, _, _, _ => ⟨_, _, rfl, .operator op⟩
  | .openParen, keys, parts, _, _, _ => ⟨_, _, rfl, .openParen⟩
  | .closeParen, keys, parts, _, _, _ => ⟨_, _, rfl, .closeParen⟩
  | .number _, keys, parts, _, _, _ | .text _, keys, parts, _, _, _
  | .boolean _, keys, parts, _, _, _ | .null, keys, parts, _, _, _ => by
    rw [Node.emit]
    split <;> exact ⟨_, _, rfl, .value trivial⟩
  | .column r, keys, parts, _, hbound, _ => by
    rw [Node.emit]
    split
    · exact ⟨_, _, rfl, .value trivial⟩
    · obtain ⟨i, hi⟩ := ColumnRef.exists_instr (hbound r rfl)
      exact ⟨_, _, by simp only [hi]; rfl, .value trivial⟩
  | .call f, keys, parts, h, _, hfit => by
    rw [Node.emit]
    split
    · exact ⟨_, _, rfl, .value trivial⟩
    · obtain ⟨code, hcode⟩ := Call.exists_emit keys parts h hfit
      exact ⟨_, _, by simp only [hcode]; rfl, .value trivial⟩
  | .select s, keys, parts, h, _, _ => by
    rw [Node.emit]
    split
    · exact ⟨_, _, rfl, .value trivial⟩
    · obtain ⟨plan, hplan⟩ := Select.exists_compile h
      exact ⟨_, _, by simp only [hplan]; rfl, .value trivial⟩

theorem Node.exists_emitAll : ∀ {ns : List Node} (keys : Option (List Expr)) (parts : Parts),
    Node.EverywhereAll (.compilable c) ns →
    (∀ r, Node.column r ∈ ns → ∃ b, r.binding = some b) → Fit keys (Node.callsOf ns) →
    ∃ items parts', Node.emitAll c keys parts ns = .ok (items, parts') ∧
      List.Forall₂ (Item.Rel fun _ _ => True) (Node.shape ns) items
  | [], keys, parts, _, _, _ => ⟨[], parts, rfl, .nil⟩
  | n :: ns, keys, parts, h, hbound, hfit => by
    rw [Node.callsOf_cons] at hfit
    obtain ⟨item, mid, hitem, hrel⟩ := Node.exists_emit keys parts h.1
      (fun r hr => hbound r (hr ▸ List.mem_cons_self)) hfit.left
    obtain ⟨items, last, hitems, hrels⟩ := Node.exists_emitAll keys mid h.2
      (fun r hr => hbound r (List.mem_cons_of_mem _ hr)) hfit.right
    exact ⟨item :: items, last, by simp only [Node.emitAll, hitem, hitems, ok_bind],
      .cons hrel hrels⟩

theorem Call.exists_emit : ∀ {f : Call} (keys : Option (List Expr)) (parts : Parts),
    f.Everywhere (.compilable c) → Fit keys (Node.callsOf [.call f]) →
    ∃ code, f.emit c keys parts = .ok code
  | ⟨function, arguments, target, type, isAggregate, offset⟩, keys, parts, ⟨hf, harguments⟩,
      hfit => by
    obtain ⟨⟨o, rfl⟩, hnested⟩ := hf
    cases isAggregate with
    | true =>
      obtain ⟨programs, hprograms⟩ := Expr.exists_programs harguments (hnested rfl)
      cases keys with
      | none => exact absurd (hfit rfl) (by simp [Node.callsOf])
      | some keys => exact ⟨_, by simp only [Call.emit, hprograms, ok_bind]; rfl⟩
    | false =>
      have hargs : Fit keys (Expr.callsOf arguments) := by
        intro hkeys
        have := hfit hkeys
        simpa [Node.callsOf, Call.nested] using this
      obtain ⟨code, hcode⟩ := Expr.exists_emitAll keys parts harguments hargs
      exact ⟨_, by simp only [Call.emit, hcode, ok_bind]; rfl⟩

theorem Expr.exists_emitAll : ∀ {es : List Expr} (keys : Option (List Expr)) (parts : Parts),
    Expr.EverywhereAll (.compilable c) es → Fit keys (Expr.callsOf es) →
    ∃ code, Expr.emitAll c keys parts es = .ok code
  | [], keys, parts, _, _ => ⟨_, rfl⟩
  | e :: es, keys, parts, h, hfit => by
    obtain ⟨code, hcode⟩ := Expr.exists_emit keys parts h.1 hfit.left
    obtain ⟨more, hmore⟩ := Expr.exists_emitAll keys code.parts h.2 hfit.right
    exact ⟨_, by simp only [Expr.emitAll, hcode, hmore, ok_bind]; rfl⟩

theorem Expr.exists_programs : ∀ {es : List Expr}, Expr.EverywhereAll (.compilable c) es →
    (∀ e ∈ es, e.hasAggregate = false) → ∃ programs, Expr.programs c es = .ok programs
  | [], _, _ => ⟨_, rfl⟩
  | e :: es, h, hplain => by
    obtain ⟨he, hes⟩ := List.forall_mem_cons.1 hplain
    obtain ⟨code, hcode⟩ := Expr.exists_emit none ⟨[], []⟩ h.1 (h.1.self.fit fun _ => he)
    obtain ⟨programs, hprograms⟩ := Expr.exists_programs h.2 hes
    exact ⟨_, by simp only [Expr.programs, hcode, hprograms, ok_bind]; rfl⟩

theorem Expr.exists_programOption : ∀ {e : Option Expr},
    Expr.EverywhereOption (.compilable c) e → (∀ e' ∈ e, e'.hasAggregate = false) →
    ∃ program, Expr.programOption c e = .ok program
  | none, _, _ => ⟨_, rfl⟩
  | some e, h, hplain => by
    obtain ⟨code, hcode⟩ := Expr.exists_emit none ⟨[], []⟩ h (h.self.fit fun _ => hplain e rfl)
    exact ⟨_, by simp only [Expr.programOption, hcode, ok_bind]; rfl⟩

theorem Expr.exists_outputPrograms : ∀ {es : List Expr} (keys : Option (List Expr))
    (slots : List (Slot Plan)), Expr.EverywhereAll (.compilable c) es →
    (∀ e ∈ es, Fit keys e.calls) → (∀ e ∈ es, e.containsWildcard = false) →
    ∃ result, Expr.outputPrograms c keys slots es = .ok result
  | [], keys, slots, _, _, _ => ⟨_, rfl⟩
  | e :: es, keys, slots, h, hfit, hplain => by
    obtain ⟨he, hes⟩ := List.forall_mem_cons.1 hfit
    obtain ⟨hwildcard, hwildcards⟩ := List.forall_mem_cons.1 hplain
    obtain ⟨code, hcode⟩ := Expr.exists_outputCode h.1.self keys slots
      (Expr.exists_emit keys ⟨[], slots⟩ h.1 he)
    obtain ⟨⟨programs, last⟩, hprograms⟩ :=
      Expr.exists_outputPrograms keys code.parts.slots h.2 hes hwildcards
    exact ⟨_, by
      simp only [Expr.outputPrograms, hwildcard, Bool.false_eq_true, if_false, hcode, hprograms,
        ok_bind]; rfl⟩

theorem OrderKey.exists_sortKeys : ∀ {ks : List OrderKey} (keys : Option (List Expr))
    (slots : List (Slot Plan)), OrderKey.EverywhereAll (.compilable c) ks →
    (∀ k ∈ ks, Fit keys k.expr.calls) →
    ∃ result, OrderKey.sortKeys c keys slots ks = .ok result
  | [], keys, slots, _, _ => ⟨_, rfl⟩
  | ⟨e, ascending⟩ :: ks, keys, slots, h, hfit => by
    obtain ⟨he, hks⟩ := List.forall_mem_cons.1 hfit
    obtain ⟨code, hcode⟩ := Expr.exists_emit keys ⟨[], slots⟩ h.1 he
    obtain ⟨⟨sortKeys, last⟩, hrest⟩ := OrderKey.exists_sortKeys keys code.parts.slots h.2 hks
    exact ⟨_, by simp only [OrderKey.sortKeys, hcode, hrest, ok_bind]; rfl⟩

theorem Source.exists_supply : ∀ {s : Source}, s.Everywhere (.compilable c) → s.Known c →
    ∃ supply, s.supply c = .ok supply
  | .table name aliasName id offset, _, ⟨i, t, hid, ht⟩ =>
    ⟨.table i t.columns.length, by simp [Source.supply, hid, ht]⟩
  | .select s aliasName offset, h, _ => by
    obtain ⟨plan, hplan⟩ := Select.exists_compile h
    exact ⟨_, by simp only [Source.supply, hplan, ok_bind]; rfl⟩

theorem Source.exists_supplies : ∀ {s : Option Source},
    Source.EverywhereOption (.compilable c) s → (∀ source ∈ s, source.Known c) →
    ∃ supplies, Source.supplies c s = .ok supplies
  | none, _, _ => ⟨_, rfl⟩
  | some s, h, hknown => by
    obtain ⟨supply, hsupply⟩ := Source.exists_supply h (hknown s rfl)
    exact ⟨_, by simp only [Source.supplies, hsupply, ok_bind]; rfl⟩

theorem Join.exists_supplies : ∀ {js : List Join}, Join.EverywhereAll (.compilable c) js →
    (∀ j ∈ js, j.source.Known c) → ∃ supplies, Join.supplies c js = .ok supplies
  | [], _, _ => ⟨_, rfl⟩
  | ⟨source, kind, condition⟩ :: js, h, hknown => by
    obtain ⟨hj, hjs⟩ := List.forall_mem_cons.1 hknown
    obtain ⟨supply, hsupply⟩ := Source.exists_supply h.1 hj
    obtain ⟨rest, hrest⟩ := Join.exists_supplies h.2.2 hjs
    exact ⟨_, by simp only [Join.supplies, hsupply, hrest, ok_bind]; rfl⟩

theorem Join.exists_steps : ∀ {js : List Join}, Join.EverywhereAll (.compilable c) js →
    (∀ e ∈ js.filterMap Join.condition, e.hasAggregate = false) →
    ∃ steps, Join.steps c js = .ok steps
  | [], _, _ => ⟨_, rfl⟩
  | ⟨source, kind, condition⟩ :: js, h, hplain => by
    have hjs : ∀ e ∈ js.filterMap Join.condition, e.hasAggregate = false := fun e he =>
      hplain e (List.mem_filterMap.2 (by
        obtain ⟨j, hj, heq⟩ := List.mem_filterMap.1 he
        exact ⟨j, List.mem_cons_of_mem _ hj, heq⟩))
    have hhere : ∀ e ∈ condition, e.hasAggregate = false := fun e he =>
      hplain e (List.mem_filterMap.2 ⟨_, List.mem_cons_self, he⟩)
    obtain ⟨program, hprogram⟩ := Expr.exists_programOption h.2.1 hhere
    obtain ⟨rest, hrest⟩ := Join.exists_steps h.2.2 hjs
    exact ⟨_, by simp only [Join.steps, hprogram, hrest, ok_bind]; rfl⟩

/-- **A SELECT of which all parts are compilable has a plan.** -/
theorem Select.exists_compile : ∀ {s : Select}, s.Everywhere (.compilable c) →
    ∃ plan, s.compile c = .ok plan
  | ⟨text, distinct, output, origin, joins, filter, groupBy, orderBy, limit, offset⟩,
      ⟨hs, houtput, horigin, hjoins, hfilter, hgroup, horder⟩ => by
    have hkeys := Select.fit ⟨text, distinct, output, origin, joins, filter, groupBy, orderBy,
      limit, offset⟩
    obtain ⟨hknown, hplain, hwildcard⟩ := hs
    simp only [Select.rowExprs, Select.sources, List.forall_mem_append, List.forall_mem_map,
      Option.mem_toList] at hknown hplain
    obtain ⟨⟨hplainJoins, hplainFilter⟩, hplainGroup⟩ := hplain
    obtain ⟨first, hfirst⟩ := Source.exists_supplies horigin hknown.1
    obtain ⟨more, hmore⟩ := Join.exists_supplies hjoins hknown.2
    obtain ⟨steps, hsteps⟩ := Join.exists_steps hjoins hplainJoins
    obtain ⟨program, hprogram⟩ := Expr.exists_programOption hfilter hplainFilter
    obtain ⟨groups, hgroups⟩ := Expr.exists_programs hgroup hplainGroup
    obtain ⟨⟨outputs, slots⟩, houtputs⟩ := Expr.exists_outputPrograms _ [] houtput
      (fun e he => hkeys e (Expr.everywhereAll_iff.1 houtput e he).self (.inl he)) hwildcard
    obtain ⟨⟨order, last⟩, hlast⟩ := OrderKey.exists_sortKeys _ slots horder
      (fun k hk => hkeys k.expr (OrderKey.everywhereAll_iff.1 horder k hk).self
        (.inr (List.mem_map_of_mem hk)))
    exact ⟨_, by
      simp only [Select.compile, hfirst, hmore, hsteps, hprogram, hgroups, houtputs, hlast, ok_bind]
      rfl⟩

end

end SqlEngine
