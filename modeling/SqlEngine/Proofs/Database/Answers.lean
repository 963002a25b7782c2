import SqlEngine.Proofs.Database.State
import SqlEngine.Proofs.Plan.Phases
import SqlEngine.Proofs.Plan.Places
import SqlEngine.Proofs.Plan.Soundness
import SqlEngine.Proofs.Resolution.Phases

/-!
# Database — the answer to a SELECT

A SELECT is answered under the scopes of the statements around it and for the rows around it
(`Select.answer`); as a statement of its own it has none.  One SELECT *stands for* another when in
any place they are resolved and compiled alike, to plans with the same columns and the same rows
(`Select.StandsFor`).

* `Database.execute_select`: what running the text of a SELECT does.
* `Select.StandsFor.answer`: the answers are the same up to the places in errors.
* `Catalog.Sound.inMemory`: sound catalogs have all rows in memory.
-/

namespace SqlEngine

variable {c : Catalog} {now : Date.Instant}

/-- Resolves a SELECT under the scopes around it, compiles it, and runs its plan for the rows around
it. -/
def Select.answer (c : Catalog) (outer : List Scope) (now : Date.Instant) (frames : List Frame)
    (s : Select) : Except Error Output := do
  let q ← s.resolve c outer
  let plan ← q.compile c
  .ok ⟨plan.stages.columns, ← plan.query c now frames, 0⟩

/-- The text of a SELECT gives its answer, and changes nothing. -/
theorem Database.execute_select {db : Database} {text : String} {s : Select}
    (h : Statement.parse db.config.parser text = .ok (.select s)) (now : Date.Instant) :
    db.execute now text = (s.answer db.catalog [] now [], db) := by
  simp only [execute, Catalog.run, Catalog.outcome, Statement.prepare, h, ok_bind,
    Statement.resolve, Select.answer]
  cases s.resolve db.catalog [] with
  | error e => rfl
  | ok q => rfl

/-! ### The rows that a SELECT finds -/

/-- The combinations of rows that the sources and the WHERE clause of a SELECT find. -/
def Select.found (c : Catalog) (outer : List Scope) (now : Date.Instant) (frames : List Frame)
    (s : Select) : Except Error (Setting × List Combination) := do
  let f ← s.resolveFrom c outer
  let filter ← Expr.resolveFilter c (f.scope :: outer) s.filter
  let base ← Select.compileFrom c { s with origin := f.origin, joins := f.joins, filter }
  (Stages.queries c now base).kept c now frames

theorem Select.found_eq_ok (hc : c.InMemory) {s : Select} {outer : List Scope} {frames : List Frame}
    {here : Setting} {kept : List Combination} (h : s.found c outer now frames = .ok (here, kept)) :
    here.catalog = c ∧ ∀ row ∈ kept, row.Known here.providers := by
  simp only [found, bind_eq_ok_iff] at h
  obtain ⟨f, -, filter, -, base, -, h⟩ := h
  exact ⟨(Stages.catalog_of_kept h).1, Stages.kept_known hc h⟩

/-- The rows of a plan are made of the rows that its first stages keep. -/
theorem Plan.query_from {q : Select} {base : Stages Plan} {plan : Plan}
    (h : q.compileClauses c base = .ok plan) (now : Date.Instant) (frames : List Frame) :
    plan.query c now frames = (Stages.queries c now base).kept c now frames >>= fun p =>
      (Stages.queries c now plan.stages).finish p.1 p.2 := by
  simp only [Select.compileClauses, bind_eq_ok_iff] at h
  obtain ⟨groups, -, ⟨outputs, slots⟩, -, ⟨order, slots'⟩, -, h⟩ := h
  obtain rfl := Except.ok.inj h
  simp only [Plan.query, Plan.stages, Stages.rows_eq, Stages.queries_eq]
  rfl

/-- **An answer is made of the rows that the SELECT finds.** -/
theorem Select.answer_eq_ok {s : Select} {outer : List Scope} {frames : List Frame} {out : Output}
    (h : s.answer c outer now frames = .ok out) :
    ∃ (f : Sources) (q : Select) (base : Stages Plan) (plan : Plan) (here : Setting)
      (kept : List Combination) (rows : List OutputRow),
      s.resolveClauses c outer f = .ok q ∧ q.compileClauses c base = .ok plan ∧
      s.found c outer now frames = .ok (here, kept) ∧
      (Stages.queries c now plan.stages).finish here kept = .ok rows ∧
      out = ⟨plan.stages.columns, rows, 0⟩ := by
  simp only [answer, resolve_eq, compile_eq, bind_eq_ok_iff] at h
  obtain ⟨q, ⟨f, hf, hq⟩, plan, ⟨base, hbase, hplan⟩, rows, hrows, h⟩ := h
  rw [Plan.query_from hplan, bind_eq_ok_iff] at hrows
  obtain ⟨⟨here, kept⟩, hkept, hfinish⟩ := hrows
  refine ⟨f, q, base, plan, here, kept, rows, hq, hplan, ?_, hfinish, (Except.ok.inj h).symm⟩
  simp only [resolveClauses, bind_eq_ok_iff] at hq
  obtain ⟨output, -, filter, hfilter, groupBy, -, orderBy, -, u, -, output', -, hq⟩ := hq
  obtain rfl := Except.ok.inj hq
  have hbase' : Select.compileFrom c { s with origin := f.origin, joins := f.joins, filter } =
      .ok base := hbase
  simp only [found, hf, hfilter, hbase', ok_bind, hkept]

/-- What becomes of the rows that a SELECT finds, when it neither groups nor sorts. -/
def Select.listing (s : Select) (listed : List Expr) (outputs : List (Program Plan))
    (slots : List (Slot Plan)) : Stages Plan where
  sources := []
  joins := []
  filter := none
  outputs := outputs
  columns := listed.map fun e => ⟨e.name, e.type⟩
  groupBy := []
  aggregates := slots
  orderBy := []
  distinct := s.distinct
  limit := s.limit
  aggregated := listed.any Expr.hasAggregate

/-- The clauses of a SELECT without grouping and sorting, but for its WHERE clause. -/
theorem Select.resolveClauses_listing {s : Select} (hgroup : s.groupBy = [])
    (horder : s.orderBy = []) {listed : List Expr} {outer : List Scope} {f : Sources}
    (hlisted : Expr.resolveOutputs c (f.scope :: outer) s.output = .ok listed)
    (hplain : f.scope.expandAll listed = .ok listed)
    (hfaults : listed.any Expr.hasAggregate = true → listed.findSome? Expr.aggregateFault? = none) :
    s.resolveClauses c outer f = (Expr.resolveFilter c (f.scope :: outer) s.filter).map fun filter =>
      { s with output := listed, origin := f.origin, joins := f.joins, filter } := by
  obtain ⟨text, distinct, output, origin, joins, filter, groupBy, orderBy, limit, offset⟩ := s
  obtain rfl : groupBy = [] := hgroup
  obtain rfl : orderBy = [] := horder
  simp only [resolveClauses, hlisted, ok_bind]
  cases Expr.resolveFilter c (f.scope :: outer) filter with
  | error e => rfl
  | ok filter' =>
    have hfault : Select.groupFault?
        ⟨text, distinct, listed, f.origin, f.joins, filter', [], [], limit, offset⟩ = none := by
      simp only [groupFault?, isAggregate, List.isEmpty_nil, Bool.not_true, Bool.false_eq_true,
        if_false, List.map_nil, List.append_nil, Bool.false_or, List.any_nil, Bool.or_false]
      split
      · exact hfaults ‹_›
      · rfl
    simp only [Expr.resolveAll, OrderKey.resolveAll, ok_bind, requireGroups, hfault, hplain]
    rfl

theorem Select.compileClauses_listing {q : Select} (hgroup : q.groupBy = [])
    (horder : q.orderBy = []) {outputs : List (Program Plan)} {slots : List (Slot Plan)}
    (hprograms : Expr.outputPrograms c (if q.output.any Expr.hasAggregate then some [] else none) []
      q.output = .ok (outputs, slots)) (base : Stages Plan) :
    q.compileClauses c base = .ok (.of { q.listing q.output outputs slots with
      sources := base.sources, joins := base.joins, filter := base.filter }) := by
  obtain ⟨text, distinct, output, origin, joins, filter, groupBy, orderBy, limit, offset⟩ := q
  obtain rfl : groupBy = [] := hgroup
  obtain rfl : orderBy = [] := horder
  have haggregate : Select.isAggregate
      ⟨text, distinct, output, origin, joins, filter, [], [], limit, offset⟩ =
        output.any Expr.hasAggregate := by
    simp only [isAggregate, List.isEmpty_nil, Bool.not_true, Bool.false_or, List.any_nil,
      Bool.or_false]
  simp only [compileClauses, groupKeys, haggregate, Expr.programs, ok_bind, hprograms,
    OrderKey.sortKeys]
  rfl

/-- The answer to a SELECT without grouping and sorting, whose outputs are the same in every
scope. -/
theorem Select.answer_eq_found {s : Select} (hgroup : s.groupBy = []) (horder : s.orderBy = [])
    {listed : List Expr} (hlisted : ∀ scopes, Expr.resolveOutputs c scopes s.output = .ok listed)
    (hplain : ∀ scope : Scope, scope.expandAll listed = .ok listed)
    (hfaults : listed.any Expr.hasAggregate = true → listed.findSome? Expr.aggregateFault? = none)
    {outputs : List (Program Plan)} {slots : List (Slot Plan)}
    (hprograms : Expr.outputPrograms c (if listed.any Expr.hasAggregate then some [] else none) []
      listed = .ok (outputs, slots))
    (outer : List Scope) (now : Date.Instant) (frames : List Frame) :
    s.answer c outer now frames = s.found c outer now frames >>= fun p =>
      ((Stages.queries c now (s.listing listed outputs slots)).finish p.1 p.2).map fun rows =>
        ⟨listed.map fun e => ⟨e.name, e.type⟩, rows, 0⟩ := by
  simp only [answer, found, resolve_eq, compile_eq, bind_assoc]
  refine bind_congr_ok fun f _ => ?_
  rw [resolveClauses_listing hgroup horder (hlisted _) (hplain _) hfaults]
  cases Expr.resolveFilter c (f.scope :: outer) s.filter with
  | error e => rfl
  | ok filter =>
    simp only [Except.map, ok_bind]
    refine bind_congr_ok fun base _ => ?_
    have hplan := compileClauses_listing
      (q := { s with output := listed, origin := f.origin, joins := f.joins, filter })
      hgroup horder hprograms base
    rw [hplan, ok_bind, Plan.query_from hplan, bind_assoc]
    refine bind_congr_ok fun p _ => ?_
    have hfinish : (Stages.queries c now { s.listing listed outputs slots with
        sources := base.sources, joins := base.joins, filter := base.filter }).finish p.1 p.2 =
          (Stages.queries c now (s.listing listed outputs slots)).finish p.1 p.2 := by
      rw [Stages.queries_eq, Stages.queries_eq]
      exact (Stages.finish_from _ _ _ _ _ _).symm
    rw [← hfinish]
    rfl

/-! ### One SELECT for another -/

/-- The names and the types of the outputs. -/
def Select.columns (s : Select) : Columns :=
  s.output.map fun e => ⟨e.name, e.type⟩

/-- The plans have the same columns, and give the same rows whatever the rows around them. -/
structure Plan.Same (c : Catalog) (p q : Plan) : Prop where
  columns : q.stages.columns = p.stages.columns
  query : ∀ now frames, q.query c now frames = p.query c now frames

/-- Wherever `s` stands, `s'` may stand. -/
def Select.StandsFor (c : Catalog) (s' s : Select) : Prop :=
  ∀ outer, UpToPlaces
    (fun q q' : Select =>
      q'.columns = q.columns ∧ UpToPlaces (Plan.Same c) (q.compile c) (q'.compile c))
    (s.resolve c outer) (s'.resolve c outer)

theorem Select.columns_placed (φ : Placing) (s : Select) : (s.placed φ).columns = s.columns := by
  simp only [Select.columns, Select.placed_output, List.map_map, Function.comp_def,
    Expr.placed_name, Expr.placed_type]

/-- A SELECT stands for itself at other places. -/
theorem Select.placed_standsFor (φ : Placing) (s : Select) : (s.placed φ).StandsFor c s := by
  refine fun outer => (Select.resolve_placed φ outer s).places.mono ?_
  rintro q _ rfl
  rw [Select.compile_placed]
  refine ⟨Select.columns_placed φ q, UpToPlaces.refl.mono ?_⟩
  rintro p _ rfl
  exact ⟨rfl, fun _ _ => rfl⟩

/-- A SELECT that stands for another one has its answers. -/
theorem Select.StandsFor.answer {s s' : Select} (h : s'.StandsFor c s) (outer : List Scope)
    (now : Date.Instant) (frames : List Frame) :
    UpToPlaces Eq (s.answer c outer now frames) (s'.answer c outer now frames) := by
  refine (h outer).bind fun q q' hq => hq.2.bind fun p p' hp => ?_
  rw [hp.query, hp.columns]
  exact .refl

/-! ### Sound catalogs -/

theorem Catalog.Sound.inMemory (h : c.Sound) : c.InMemory := by
  intro id p hp
  obtain ⟨t, ht, hprovider⟩ := Option.bind_eq_some_iff.1 hp
  obtain ⟨m, hm, -⟩ := (h.table ht).memory
  exact ⟨m, Option.some.inj (hprovider.symm.trans hm)⟩

end SqlEngine
