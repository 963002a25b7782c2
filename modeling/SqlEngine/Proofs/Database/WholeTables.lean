import SqlEngine.Proofs.Database.Updates
import SqlEngine.Proofs.Database.WildcardRows

/-!
# Databases — reading whole tables

`SELECT * FROM table` is answered without an error, unless a column has the name of a wildcard: its
stages are the table and nothing else, and each of its rows is the row of the table, with its id.

* `Select.ReadsAll.resolve_eq`: what the names mean.
* `Select.ReadsAll.query_eq`: the rows of the plan.
* `Select.ReadsAll.answer_eq`: the answer.
-/

namespace SqlEngine

variable {c : Catalog} {now : Date.Instant} {outer : List Frame} {t : Table} {id : Nat}
  {m : MemoryTable} {q : Select} {table : String} {aliasName : Option String} {offset place : Nat}
  {stages : Stages Plan}

/-- `SELECT * FROM table`, and nothing else. -/
structure Select.ReadsAll (q : Select) (table : String) : Prop where
  output : ∃ r, q.output = [.ofColumn r] ∧ r.isWildcard = true ∧ r.qualifier = none
  origin : ∃ aliasName id offset, q.origin = some (.table table aliasName id offset)
  joins : q.joins = []
  filter : q.filter = none
  groupBy : q.groupBy = []
  orderBy : q.orderBy = []
  distinct : q.distinct = false
  limit : q.limit = none

/-- The SELECT with all columns of the table. -/
def Select.columnsOf (q : Select) (table : String) (id : Nat) (t : Table)
    (aliasName : Option String) (offset place : Nat) : Select :=
  { q with
    origin := some (.table table aliasName (some id) offset),
    output := Scope.columnsOf ⟨aliasName.getD table, some t.name, t.columns⟩ 0 place }

/-- A column of a source is compilable, if it has not the name of a wildcard. -/
theorem Scope.columnsOf_compilable {source : ScopeSource} {i : Nat}
    (hnames : ∀ column ∈ source.columns, column.name ≠ "*") :
    ∀ e ∈ columnsOf source i offset,
      e.containsWildcard = false ∧ e.Everywhere (.compilable c) := by
  intro e he
  obtain ⟨⟨column, j⟩, hmem, rfl⟩ := List.mem_map.1 he
  have hname := hnames column (List.fst_mem_of_mem_zipIdx hmem)
  refine ⟨?_, ⟨.operand (.value ()), fun r hr => ?_, rfl⟩, trivial, trivial⟩
  · simpa [Expr.containsWildcard, Expr.ofColumn, Node.isWildcard, ColumnRef.isWildcard] using hname
  · obtain rfl := Node.column.inj (List.mem_singleton.1 hr)
    exact ⟨_, rfl⟩

namespace Select.ReadsAll

theorem resolve_eq (hq : q.ReadsAll table) (hfound : c.findTable? table = some (id, t))
    (scopes : List Scope) : ∃ aliasName offset place,
      q.resolve c scopes = .ok (q.columnsOf table id t aliasName offset place) := by
  obtain ⟨text, distinct, output, origin, joins, filter, groupBy, orderBy, limit, at'⟩ := q
  obtain ⟨⟨r, rfl, hwildcard, hr⟩, ⟨aliasName, id', offset, rfl⟩, rfl, rfl, rfl, rfl, rfl, rfl⟩ := hq
  refine ⟨aliasName, offset, r.offset, ?_⟩
  have hlisted : (Expr.ofColumn r).isWildcard = true := hwildcard
  have ht := Catalog.getElem?_of_findTable? hfound
  have hscope : (Source.table table aliasName (some id) offset).scopeSource c =
      ⟨aliasName.getD table, some t.name, t.columns⟩ := by
    simp only [Source.scopeSource, Option.bind_some, ht]
  have hexpand (source : ScopeSource) : Scope.expandAll [source] [.ofColumn r] =
      .ok (Scope.columnsOf source 0 r.offset) := by
    simp only [Scope.expandAll, Expr.column?, Expr.ofColumn, hwildcard, if_true, Scope.expand,
      Scope.candidates, hr, List.length_singleton, List.range_one, ok_bind]
    simp
  simp only [Select.resolve, Source.resolveOption, Source.resolve, hfound, ok_bind,
    Join.resolveSources, Join.resolveConditions, Expr.resolveOutputs, hlisted, if_true,
    Expr.resolveFilter, Expr.resolveAll, OrderKey.resolveAll, List.zipWith_nil_left, Select.sources,
    Option.toList_some, List.map_nil, List.append_nil, List.map_singleton, hscope, hexpand]
  rfl

/-! ### The plan -/

theorem isAggregate_eq (hq : q.ReadsAll table) :
    (q.columnsOf table id t aliasName offset place).isAggregate = false := by
  have hcolumns : (Scope.columnsOf ⟨aliasName.getD table, some t.name, t.columns⟩ 0 place).any
      Expr.hasAggregate = false := by
    refine List.any_eq_false.2 fun e he => ?_
    obtain ⟨_, -, rfl⟩ := List.mem_map.1 he
    exact Bool.false_ne_true
  simp [Select.isAggregate, Select.columnsOf, hq.groupBy, hq.orderBy, hcolumns]

theorem exists_compile (hq : q.ReadsAll table) (ht : c.tables[id]? = some t)
    (hnames : ∀ column ∈ t.columns, column.name ≠ "*") (aliasName : Option String)
    (offset place : Nat) :
    ∃ stages, (q.columnsOf table id t aliasName offset place).compile c = .ok (.of stages) := by
  obtain ⟨text, distinct, output, origin, joins, filter, groupBy, orderBy, limit, at'⟩ := q
  obtain ⟨-, -, rfl, rfl, rfl, rfl, -, -⟩ := hq
  have hselect : (Select.columnsOf ⟨text, distinct, output, origin, [], none, [], [], limit, at'⟩
      table id t aliasName offset place).Everywhere (.compilable c) :=
    ⟨⟨List.forall_mem_singleton.2 ⟨id, t, rfl, ht⟩, List.forall_mem_nil _,
      fun e he => (Scope.columnsOf_compilable (c := c) hnames e he).1⟩,
      Expr.everywhereAll_iff.2 fun e he => (Scope.columnsOf_compilable hnames e he).2, trivial,
      trivial, trivial, trivial, trivial⟩
  obtain ⟨plan, hplan⟩ := Select.exists_compile hselect
  obtain ⟨stages, rfl, -⟩ := Select.compile_eq_ok hplan
  exact ⟨stages, hplan⟩

/-- The stages are the table and nothing else. -/
theorem stages_eq (hq : q.ReadsAll table) (ht : c.tables[id]? = some t)
    (h : (q.columnsOf table id t aliasName offset place).Compiles c stages) :
    stages.sources = [.table id t.columns.length] ∧ stages.joins = [] ∧ stages.filter = none ∧
      stages.columns = t.columns ∧ stages.aggregated = false := by
  refine ⟨?_, ?_, ?_, ?_, h.aggregated.trans hq.isAggregate_eq⟩
  · obtain ⟨first, more, hfirst, hmore, hsources⟩ := h.sources
    simp only [Select.columnsOf, hq.joins, Source.supplies, Source.supply, Join.supplies,
      Option.bind_some, ht, Option.map_some, ok_bind] at hfirst hmore
    rw [hsources, ← Except.ok.inj hfirst, ← Except.ok.inj hmore, List.append_nil]
  · have hjoins := h.joins
    rw [Select.columnsOf, hq.joins] at hjoins
    exact (Except.ok.inj hjoins).symm
  · have hfilter := h.filter
    rw [Select.columnsOf, hq.filter] at hfilter
    exact (Except.ok.inj hfilter).symm
  · rw [h.columns]
    refine List.ext_getElem (by simp [Select.columnsOf, Scope.columnsOf]) fun i hi hi' => ?_
    simp [Select.columnsOf, Scope.columnsOf]
    rfl

end Select.ReadsAll

/-! ### The rows -/

theorem Stages.projectRows_of {s : Stages Query} {here : Setting} {cs : List Combination}
    {projected : List Projected} (h : List.Forall₂ (fun row p => ∀ number, ∃ env,
      here.envFor row number = .ok env ∧ s.project env = .ok p) cs projected) (number : Nat) :
    s.projectRows here number cs = .ok projected := by
  induction h generalizing number with
  | nil => rfl
  | cons hrow _ ih =>
    obtain ⟨env, henv, hproject⟩ := hrow number
    simp only [projectRows, henv, hproject, ih, ok_bind]

theorem Stages.setting_eq (hsources : stages.sources = [.table id t.columns.length])
    (hprovider : c.provider? id = some (.memory m)) :
    (Stages.queries c now stages).setting c now outer = .ok ⟨c, outer, [.memory m], now⟩ := by
  have htables : [Supply.table id t.columns.length].mapM (Supply.materialize outer) =
      .ok [.table id t.columns.length] := mapM_eq_ok_iff.2 (.cons rfl .nil)
  have hproviders : [Supply.table id t.columns.length].mapM (Supply.provider c) =
      .ok [.memory m] :=
    mapM_eq_ok_iff.2 (.cons (by simp only [Supply.provider, hprovider]) .nil)
  simp only [Stages.queries_eq, Stages.setting, hsources, Supply.queriesAll, htables, ok_bind,
    hproviders]

namespace Select.ReadsAll

/-- A row of the table is projected to itself. -/
theorem project_eq (hq : q.ReadsAll table) (hsound : m.Sound t.types)
    (h : (q.columnsOf table id t aliasName offset place).Compiles c stages)
    {e : RowId × Row} (he : e ∈ m.rows) (number : Nat) :
    ∃ env, Setting.envFor ⟨c, outer, [.memory m], now⟩ [some e.1] number = .ok env ∧
      (Stages.queries c now stages).project env = .ok ⟨⟨e.1, e.2⟩, []⟩ := by
  have hseek : m.rows.at? e.1 = some e.2 := (Entries.at?_eq_some_iff hsound.ascending).2 he
  let env := Setting.env ⟨c, outer, [.memory m], now⟩ [some e] number e.1
  refine ⟨env, ?_, ?_⟩
  · simp only [Setting.envFor, locateAll, Provider.locate, Provider.seek, hseek, ok_bind]
    rfl
  · let source : ScopeSource := ⟨aliasName.getD table, some t.name, t.columns⟩
    have hlength : e.2.length = source.columns.length := by
      rw [(hsound.typed e he).length_eq, Table.types, List.length_map]
    have hreads : List.Forall₂ (fun e' v => e'.value c env = .ok v)
        (Scope.columnsOf source 0 place) (Scope.rowAt [source] env.positions 0) :=
      Scope.columnsOf_reads rfl rfl (fun e' he' => Option.some.inj he' ▸ hlength) place
    have hproject := h.project_eq hq.isAggregate_eq env
    rw [Select.columnsOf, hq.orderBy, mapM_eq_ok_iff.2 hreads] at hproject
    exact hproject

/-- Nothing is arranged. -/
theorem arrange_eq (hq : q.ReadsAll table)
    (hplan : (q.columnsOf table id t aliasName offset place).compile c = .ok (.of stages))
    (projected : List Projected) :
    arrange (Stages.queries c now stages).distinct
      ((Stages.queries c now stages).orderBy.map SortKey.ascending)
      (Stages.queries c now stages).limit projected = projected.map Projected.row := by
  obtain ⟨hdistinct, hlimit, hascending⟩ := Select.arranges_of_compile hplan
  have horder : (Stages.queries c now stages).orderBy.map SortKey.ascending = [] := by
    rw [Stages.queries_eq, List.map_map]
    exact hascending.trans (by rw [Select.columnsOf, hq.orderBy]; rfl)
  rw [horder, Stages.queries_eq, hdistinct, hlimit, Select.columnsOf, hq.distinct, hq.limit]
  rfl

/-- The plan gives the rows of the table. -/
theorem query_eq (hq : q.ReadsAll table) (ht : c.tables[id]? = some t)
    (hm : t.provider = some (.memory m)) (hsound : m.Sound t.types)
    (hplan : (q.columnsOf table id t aliasName offset place).compile c = .ok (.of stages)) :
    (Plan.of stages).query c now outer = .ok (m.rows.map fun e => ⟨e.1, e.2⟩) := by
  obtain ⟨stages', heq, hcompiles⟩ := Select.compile_eq_ok hplan
  obtain rfl := Plan.of.inj heq
  obtain ⟨hsources, hjoins, hfilter, -, hplain⟩ := hq.stages_eq ht hcompiles
  have hprovider : c.provider? id = some (.memory m) := by
    simp only [Catalog.provider?, ht, Option.bind_some, hm]
  let here : Setting := ⟨c, outer, [.memory m], now⟩
  have hhere : (Stages.queries c now stages).setting c now outer = .ok here :=
    Stages.setting_eq hsources hprovider
  have hcombined : combine here (Stages.queries c now stages).joins =
      .ok (m.rows.map fun e => [some e.1]) := by
    simp only [Stages.queries_eq, hjoins, combine, here, hsound.rowIds_eq, MemoryTable.ids,
      List.map_map]
    rfl
  have hkept (cs : List Combination) :
      keep here (Stages.queries c now stages).filter cs = .ok cs := by
    simp only [Stages.queries_eq, hfilter]
    rfl
  have haggregated : (Stages.queries c now stages).aggregated = false := by
    rw [Stages.queries_eq]
    exact hplain
  have hprojected : (Stages.queries c now stages).projectRows here 1
      (m.rows.map fun e => [some e.1]) = .ok (m.rows.map fun e => ⟨⟨e.1, e.2⟩, []⟩) := by
    refine Stages.projectRows_of ?_ 1
    rw [List.forall₂_map_left_iff, List.forall₂_map_right_iff, List.forall₂_same]
    exact fun e he => hq.project_eq hsound hcompiles he
  simp only [Plan.query, Stages.rows, hhere, hcombined, hkept, Stages.projectAll, haggregated,
    hprojected, ok_bind, Bool.false_eq_true, if_false]
  rw [dropBlank_of_length (by rw [List.length_map, List.length_map]), hq.arrange_eq hplan,
    List.map_map]
  rfl

/-- **`SELECT *` gives the rows of its table**, each with its id, in the order of a visit. -/
theorem answer_eq (hc : c.Sound) (hq : q.ReadsAll table)
    (hfound : c.findTable? table = some (id, t)) (hm : t.provider = some (.memory m))
    (hnames : ∀ column ∈ t.columns, column.name ≠ "*") (scopes : List Scope) :
    q.answer c scopes now outer = .ok ⟨t.columns, m.rows.map fun e => ⟨e.1, e.2⟩, 0⟩ := by
  have ht := Catalog.getElem?_of_findTable? hfound
  obtain ⟨m', hm', hsound⟩ := (hc.table ht).memory
  obtain rfl := Provider.memory.inj (Option.some.inj (hm.symm.trans hm'))
  obtain ⟨aliasName, offset, place, hresolve⟩ := hq.resolve_eq hfound scopes
  obtain ⟨stages, hplan⟩ := hq.exists_compile ht hnames aliasName offset place
  obtain ⟨stages', heq, hcompiles⟩ := Select.compile_eq_ok hplan
  obtain rfl := Plan.of.inj heq
  obtain ⟨-, -, -, hcolumns, -⟩ := hq.stages_eq ht hcompiles
  simp only [Select.answer, hresolve, hplan, hq.query_eq ht hm hsound hplan, ok_bind, Plan.stages,
    hcolumns]

end Select.ReadsAll

end SqlEngine
