import SqlEngine.Proofs.Plan.Outputs
import SqlEngine.Proofs.Plan.Sharing

/-!
# Plans — numbers of rows

Rows are numbered twice: WHERE sees all combinations, in the order of the joins, and what is
projected are the combinations that it keeps, numbered anew.  On each combination the outputs and
the sort keys have the values of their expressions, and the row has the id of the row of the first
source.

* `filterRows_eq_ok`, `Stages.projectRows_eq_ok`: the two passes.
* `Select.Compiles.project_eq`: an output row has the values of the outputs and of the sort keys.
* `Select.rows_numbered`: the rows of a SELECT without aggregates.
-/

namespace SqlEngine

variable {c : Catalog} {now : Date.Instant} {outer : List Frame} {here : Setting} {env : Env}
  {cs kept : List Combination}

/-! ### Passes over combinations -/

/-- The combinations whose values are TRUE. -/
def keptFor (cs : List Combination) (values : List Value) : List Combination :=
  ((cs.zip values).filter fun r => r.2.isTrue).map Prod.fst

theorem keptFor_cons (row : Combination) (cs : List Combination) (v : Value) (values : List Value) :
    keptFor (row :: cs) (v :: values) =
      if v.isTrue then row :: keptFor cs values else keptFor cs values := by
  rw [keptFor, List.zip_cons_cons, List.filter_cons]
  split <;> rfl

/-- **The first pass**: WHERE is evaluated on each combination with its number. -/
theorem filterRows_eq_ok {p : Program Query} : ∀ {cs kept : List Combination} {number : Nat},
    filterRows here p number cs = .ok kept → ∃ values,
      List.Forall₂ (fun r v => ∃ env, here.envFor r.1 r.2 = .ok env ∧ p.value env = .ok v)
        (cs.zipIdx number) values ∧
      kept = keptFor cs values
  | [], kept, number, h => ⟨[], .nil, (Except.ok.inj h).symm⟩
  | row :: cs, kept, number, h => by
    simp only [filterRows, bind_eq_ok_iff] at h
    obtain ⟨env, henv, v, hv, rest, hrest, h⟩ := h
    obtain ⟨values, hvalues, rfl⟩ := filterRows_eq_ok hrest
    exact ⟨v :: values, .cons ⟨env, henv, hv⟩ hvalues, by
      rw [keptFor_cons, ← Except.ok.inj h]⟩

/-- **The second pass**: each combination is projected with its number. -/
theorem Stages.projectRows_eq_ok {s : Stages Query} : ∀ {cs : List Combination} {number : Nat}
    {projected : List Projected}, s.projectRows here number cs = .ok projected →
    List.Forall₂ (fun r p => ∃ env, here.envFor r.1 r.2 = .ok env ∧ s.project env = .ok p)
      (cs.zipIdx number) projected
  | [], number, projected, h => by
    obtain rfl := Except.ok.inj h
    exact .nil
  | row :: cs, number, projected, h => by
    simp only [projectRows, bind_eq_ok_iff] at h
    obtain ⟨env, henv, p, hp, rest, hrest, h⟩ := h
    obtain rfl := Except.ok.inj h
    exact .cons ⟨env, henv, hp⟩ (projectRows_eq_ok hrest)

/-- The id of the row of the first source; `beforeFirst` on its row of NULLs. -/
def Combination.primary (row : Combination) : RowId :=
  (row.head?.getD none).getD beforeFirst

theorem Provider.id_of_locate {p : Provider} {id : Option RowId} {position : Position}
    (h : p.locate id = .ok position) : position.id = id.getD beforeFirst := by
  cases id with
  | none =>
    obtain rfl := Except.ok.inj h
    rfl
  | some id =>
    rw [locate] at h
    split at h
    · obtain rfl := Except.ok.inj h
      rfl
    · cases h

theorem primaryId_eq {row : Combination} (hrow : Workspace.Covers here row)
    {positions : List Position} (h : locateAll here.providers row = .ok positions) :
    primaryId positions = row.primary := by
  rw [Workspace.Covers] at hrow
  cases hproviders : here.providers with
  | nil =>
    rw [hproviders] at h hrow
    obtain rfl := List.length_eq_zero_iff.1 hrow
    obtain rfl := Except.ok.inj h
    rfl
  | cons p providers =>
    rw [hproviders] at h hrow
    cases row with
    | nil => cases hrow
    | cons id row =>
      obtain ⟨position, hposition, h⟩ := bind_eq_ok_iff.1 h
      obtain ⟨rest, -, h⟩ := bind_eq_ok_iff.1 h
      obtain rfl := Except.ok.inj h
      exact Provider.id_of_locate hposition

/-! ### Output rows -/

/-- An output row has the values of the outputs, and the values of the sort keys with it. -/
theorem Stages.project_eq_of {α : Type} {s : Stages Query} {outputs keys : List α}
    {value : α → Except Error Value}
    (houtputs : List.Forall₂ (fun p a => Program.Appends p env (value a)) s.outputs outputs)
    (hkeys : List.Forall₂ (fun k a => k.program.value env = value a) s.orderBy keys) :
    s.project env = (do
      let values ← outputs.mapM value
      let keys ← keys.mapM value
      .ok ⟨⟨env.rowId, values⟩, keys⟩) := by
  have hvalues : s.orderBy.mapM (fun k => k.program.value env) = keys.mapM value :=
    (mapM_congr_forall₂ (hkeys.imp fun k a h => h.symm)).symm
  rw [project, foldlM_write houtputs, hvalues]
  cases outputs.mapM value <;> rfl

/-- The programs of outputs add the values of the outputs. -/
theorem Expr.outputPrograms_values (env : Env) : ∀ {es : List Expr}
    {slots slots' : List (Slot Plan)} {programs : List (Program Plan)},
    Expr.outputPrograms c none slots es = .ok (programs, slots') →
    List.Forall₂ (fun p e => Program.Appends p env (e.value c env))
      (programs.map (Program.withQueries env.catalog env.now)) es
  | [], slots, slots', programs, h => by
    obtain ⟨rfl, -⟩ := Prod.mk.inj (Except.ok.inj h)
    exact .nil
  | e :: es, slots, slots', programs, h => by
    obtain ⟨code, rest, hcode, hrest, rfl⟩ := Expr.outputPrograms_cons h
    exact .cons (Expr.outputCode_appends hcode env) (Expr.outputPrograms_values env hrest)

theorem OrderKey.sortKeys_values (env : Env) : ∀ {ks : List OrderKey}
    {slots slots' : List (Slot Plan)} {sortKeys : List (SortKey Plan)},
    OrderKey.sortKeys c none slots ks = .ok (sortKeys, slots') →
    List.Forall₂ (fun k e =>
        Program.value (k.program.withQueries env.catalog env.now) env = e.value c env)
      sortKeys (ks.map OrderKey.expr)
  | [], slots, slots', sortKeys, h => by
    obtain ⟨rfl, -⟩ := Prod.mk.inj (Except.ok.inj h)
    exact .nil
  | ⟨e, ascending⟩ :: ks, slots, slots', sortKeys, h => by
    obtain ⟨code, rest, hcode, hrest, rfl⟩ := OrderKey.sortKeys_cons h
    exact .cons (Expr.value_of_emit hcode env) (OrderKey.sortKeys_values env hrest)

/-- **An output row** of a SELECT without aggregates has the values of its outputs and of its sort
keys. -/
theorem Select.Compiles.project_eq {q : Select} {stages : Stages Plan} (h : q.Compiles c stages)
    (hplain : q.isAggregate = false) (env : Env) :
    (Stages.queries env.catalog env.now stages).project env = (do
      let values ← q.output.mapM (Expr.value c env)
      let keys ← (q.orderBy.map OrderKey.expr).mapM (Expr.value c env)
      .ok ⟨⟨env.rowId, values⟩, keys⟩) := by
  obtain ⟨slots, houtputs, horder⟩ := h.projection
  have hkeys : q.groupKeys = none := by rw [Select.groupKeys, hplain]; rfl
  rw [hkeys] at houtputs horder
  refine Stages.project_eq_of ?_ ?_
  · rw [Stages.queries_eq]
    exact Expr.outputPrograms_values env houtputs
  · rw [Stages.queries_eq]
    exact List.forall₂_map_left_iff.2 (OrderKey.sortKeys_values env horder)

/-! ### The rows of a SELECT -/

theorem OrderKey.ascending_of_sortKeys {keys : Option (List Expr)} : ∀ {ks : List OrderKey}
    {slots slots' : List (Slot Plan)} {sortKeys : List (SortKey Plan)},
    OrderKey.sortKeys c keys slots ks = .ok (sortKeys, slots') →
    sortKeys.map SortKey.ascending = ks.map OrderKey.ascending
  | [], slots, slots', sortKeys, h => by
    obtain ⟨rfl, -⟩ := Prod.mk.inj (Except.ok.inj h)
    rfl
  | ⟨e, ascending⟩ :: ks, slots, slots', sortKeys, h => by
    obtain ⟨code, rest, -, hrest, rfl⟩ := OrderKey.sortKeys_cons h
    rw [List.map_cons, List.map_cons, OrderKey.ascending_of_sortKeys hrest]

/-- The stages arrange rows as the SELECT says. -/
theorem Select.arranges_of_compile {q : Select} {stages : Stages Plan}
    (h : q.compile c = .ok (.of stages)) :
    stages.distinct = q.distinct ∧ stages.limit = q.limit ∧
      stages.orderBy.map SortKey.ascending = q.orderBy.map OrderKey.ascending := by
  rw [Select.compile_eq] at h
  obtain ⟨base, -, h⟩ := bind_eq_ok_iff.1 h
  simp only [Select.compileClauses, bind_eq_ok_iff] at h
  obtain ⟨groups, -, ⟨outputs, slots⟩, -, ⟨order, slots'⟩, horder, h⟩ := h
  obtain rfl := Plan.of.inj (Except.ok.inj h)
  exact ⟨rfl, rfl, OrderKey.ascending_of_sortKeys horder⟩

/-- The rows of a compiled SELECT, arranged. -/
theorem Select.rows_eq_ok {q : Select} {stages : Stages Plan} {rows : List OutputRow}
    (hplan : q.compile c = .ok (.of stages))
    (hrows : (Plan.of stages).query c now outer = .ok rows) :
    ∃ here cs kept projected,
      (Stages.queries c now stages).setting c now outer = .ok here ∧
      combine here (Stages.queries c now stages).joins = .ok cs ∧
      keep here (Stages.queries c now stages).filter cs = .ok kept ∧
      (Stages.queries c now stages).projectAll here kept = .ok projected ∧
      rows = arrange q.distinct (q.orderBy.map OrderKey.ascending) q.limit
        (dropBlank kept.isEmpty projected) := by
  obtain ⟨hdistinct, hlimit, hascending⟩ := Select.arranges_of_compile hplan
  rw [Plan.query, Stages.rows] at hrows
  obtain ⟨here, hhere, hrows⟩ := bind_eq_ok_iff.1 hrows
  obtain ⟨cs, hcs, hrows⟩ := bind_eq_ok_iff.1 hrows
  obtain ⟨kept, hkept, hrows⟩ := bind_eq_ok_iff.1 hrows
  obtain ⟨projected, hprojected, hrows⟩ := bind_eq_ok_iff.1 hrows
  refine ⟨here, cs, kept, projected, hhere, hcs, hkept, hprojected, ?_⟩
  rw [← Except.ok.inj hrows, ← hdistinct, ← hlimit, ← hascending, Stages.queries_eq, List.map_map]
  rfl

/-- WHERE keeps the combinations for which it is TRUE, the first one being numbered 1. -/
def Select.Keeps (q : Select) (c : Catalog) (here : Setting) (cs kept : List Combination) : Prop :=
  match q.filter with
  | none   => kept = cs
  | some e => ∃ values,
      List.Forall₂ (fun r v => ∃ positions, locateAll here.providers r.1 = .ok positions ∧
          e.value c (here.env positions r.2 r.1.primary) = .ok v)
        (cs.zipIdx 1) values ∧
      kept = keptFor cs values

/-- The output row and the sort keys of a combination with its number. -/
def Select.Shows (q : Select) (c : Catalog) (here : Setting) (row : Combination × Nat)
    (p : Projected) : Prop :=
  ∃ positions, locateAll here.providers row.1 = .ok positions ∧
    let env := here.env positions row.2 row.1.primary
    p.row.id = row.1.primary ∧
    q.output.mapM (Expr.value c env) = .ok p.row.values ∧
    (q.orderBy.map OrderKey.expr).mapM (Expr.value c env) = .ok p.keys

theorem Setting.envFor_eq_ok {row : Combination} {number : Nat}
    (hrow : Workspace.Covers here row) (h : here.envFor row number = .ok env) :
    ∃ positions, locateAll here.providers row = .ok positions ∧
      env = here.env positions number row.primary := by
  obtain ⟨positions, hpositions, h⟩ := bind_eq_ok_iff.1 h
  exact ⟨positions, hpositions, by rw [← primaryId_eq hrow hpositions, Except.ok.inj h]⟩

theorem Select.Compiles.keeps {q : Select} {stages : Stages Plan}
    (h : q.Compiles here.catalog stages) (hcs : ∀ row ∈ cs, Workspace.Covers here row)
    (hkept : keep here (Stages.queries here.catalog here.now stages).filter cs = .ok kept) :
    q.Keeps here.catalog here cs kept := by
  have hfilter := h.filter
  rw [Stages.queries_eq] at hkept
  unfold Select.Keeps
  cases hq : q.filter with
  | none =>
    rw [hq] at hfilter
    rw [← Except.ok.inj hfilter] at hkept
    exact (Except.ok.inj hkept).symm
  | some e =>
    rw [hq] at hfilter
    obtain ⟨code, hcode, hfilter⟩ := bind_eq_ok_iff.1 hfilter
    rw [← Except.ok.inj hfilter] at hkept
    obtain ⟨values, hvalues, hkept⟩ := filterRows_eq_ok hkept
    have hcovers : ∀ r ∈ cs.zipIdx 1, Workspace.Covers here r.1 := fun r hr =>
      hcs r.1 (List.fst_mem_of_mem_zipIdx hr)
    refine ⟨values, ((List.forall₂_and_left _ _).2 ⟨hcovers, hvalues⟩).imp ?_, hkept⟩
    rintro ⟨row, number⟩ v ⟨hrow, env, henv, hv⟩
    obtain ⟨positions, hpositions, rfl⟩ := Setting.envFor_eq_ok hrow henv
    have hvalue := Expr.value_of_emit hcode (here.env positions number row.primary)
    exact ⟨positions, hpositions, hvalue.symm.trans hv⟩

theorem Select.Compiles.shows {q : Select} {stages : Stages Plan}
    (h : q.Compiles here.catalog stages) (hplain : q.isAggregate = false)
    (hkept : ∀ row ∈ kept, Workspace.Covers here row) {projected : List Projected}
    (hprojected : (Stages.queries here.catalog here.now stages).projectRows here 1 kept =
      .ok projected) :
    List.Forall₂ (q.Shows here.catalog here) (kept.zipIdx 1) projected := by
  have hcovers : ∀ r ∈ kept.zipIdx 1, Workspace.Covers here r.1 := fun r hr =>
    hkept r.1 (List.fst_mem_of_mem_zipIdx hr)
  refine ((List.forall₂_and_left _ _).2 ⟨hcovers, Stages.projectRows_eq_ok hprojected⟩).imp ?_
  rintro ⟨row, number⟩ p ⟨hrow, env, henv, hp⟩
  obtain ⟨positions, hpositions, rfl⟩ := Setting.envFor_eq_ok hrow henv
  have hproject := h.project_eq hplain (here.env positions number row.primary)
  obtain ⟨values, hvalues, hkeys⟩ := bind_eq_ok_iff.1 (hproject.symm.trans hp)
  obtain ⟨keys, hkeys, hp⟩ := bind_eq_ok_iff.1 hkeys
  rw [← Except.ok.inj hp]
  exact ⟨positions, hpositions, rfl, hvalues, hkeys⟩

/-- The row of NULLs of an aggregate is not among the rows of combinations. -/
theorem dropBlank_of_length {projected : List Projected} (h : projected.length = kept.length) :
    dropBlank kept.isEmpty projected = projected := by
  match projected, h with
  | [], _ => rfl
  | [p], h =>
    have hkept : kept.isEmpty = false := by
      cases kept with
      | nil => cases h
      | cons row kept => rfl
    simp only [dropBlank, hkept, Bool.false_and, Bool.false_eq_true, if_false]
  | _ :: _ :: _, _ => rfl

/-- The rows of a SELECT without aggregates: the combinations that WHERE keeps, each one shown by a
row, and these arranged. -/
theorem Select.rows_plain {q : Select} {stages : Stages Plan} {rows : List OutputRow}
    (hplan : q.compile c = .ok (.of stages)) (hplain : q.isAggregate = false)
    (hrows : (Plan.of stages).query c now outer = .ok rows) :
    ∃ here cs kept projected,
      (Stages.queries c now stages).setting c now outer = .ok here ∧
      combine here (Stages.queries c now stages).joins = .ok cs ∧
      q.Keeps c here cs kept ∧
      List.Forall₂ (q.Shows c here) (kept.zipIdx 1) projected ∧
      rows = arrange q.distinct (q.orderBy.map OrderKey.ascending) q.limit projected := by
  obtain ⟨here, cs, kept, projected, hhere, hcs, hkept, hprojected, harrange⟩ :=
    Select.rows_eq_ok hplan hrows
  obtain ⟨stages', hstages', hcompiles⟩ := Select.compile_eq_ok hplan
  obtain rfl := Plan.of.inj hstages'
  have hcovers := hcompiles.covers hhere hcs
  obtain ⟨rfl, rfl, rfl⟩ := Stages.fields_of_setting hhere
  have haggregated : (Stages.queries here.catalog here.now stages).aggregated = false := by
    rw [Stages.queries_eq]
    exact hcompiles.aggregated.trans hplain
  rw [Stages.projectAll, haggregated, if_neg Bool.false_ne_true] at hprojected
  have hkeptCovers : ∀ row ∈ kept, Workspace.Covers here row := fun row hrow =>
    hcovers row ((keep_sublist hkept).subset hrow)
  have hshows := hcompiles.shows hplain hkeptCovers hprojected
  -- a row for each combination, so no row of NULLs is taken away
  have hlength : projected.length = kept.length := by
    rw [← hshows.length_eq, List.length_zipIdx]
  rw [dropBlank_of_length hlength] at harrange
  exact ⟨here, cs, kept, projected, hhere, hcs, hcompiles.keeps hcovers hkept, hshows, harrange⟩

/-- **Rows are numbered twice.**  Of the combinations in the order of the joins, WHERE keeps those
for which it is TRUE, `ROWNUM()` being their place among all combinations.  Those that are kept are
projected one by one: the outputs and the sort keys have the values of their expressions on the
combination, `ROWNUM()` now being its place among the kept ones, and the row has the id of the first
source's row.  DISTINCT, ORDER BY and LIMIT come after that.  So it is too when the numbers are read
off one list that serves both passes, wherever cursors and sub-selects have been before; and a
sub-select does not see the number of the row that it is evaluated for. -/
theorem Select.rows_numbered {q : Select} {stages : Stages Plan} {rows : List OutputRow}
    (hplan : q.compile c = .ok (.of stages)) (hplain : q.isAggregate = false)
    (hrows : (Plan.of stages).query c now outer = .ok rows) :
    (∃ here cs kept projected,
      (Stages.queries c now stages).setting c now outer = .ok here ∧
      combine here (Stages.queries c now stages).joins = .ok cs ∧
      q.Keeps c here cs kept ∧
      List.Forall₂ (q.Shows c here) (kept.zipIdx 1) projected ∧
      rows = arrange q.distinct (q.orderBy.map OrderKey.ascending) q.limit projected ∧
      ∀ hash start, start.map Cursor.provider = here.providers →
        Workspace.run hash here (Stages.queries c now stages) start cs = .ok rows) ∧
    (∀ (o : Overload) (env : Env),
      (env.catalog.variant? o).map Variant.implementation = some (.scalar .rowNumber) →
      o.call env [] = .ok (.number (Float.ofNat env.rowNumber))) ∧
    ∀ (s : Select) (env : Env) (number : Nat) (id : RowId),
      s.value c { env with rowNumber := number, rowId := id } = s.value c env := by
  refine ⟨?_, fun o env ho => ?_, fun s env number id => rfl⟩
  · obtain ⟨here, cs, kept, projected, hhere, hcs, hkeeps, hshows, harrange⟩ :=
      Select.rows_plain hplan hplain hrows
    obtain ⟨stages', hstages', hcompiles⟩ := Select.compile_eq_ok hplan
    obtain rfl := Plan.of.inj hstages'
    exact ⟨here, cs, kept, projected, hhere, hcs, hkeeps, hshows, harrange, fun hash start hstart =>
      (hcompiles.run_eq hhere hcs hash hstart).trans hrows⟩
  · simp only [Overload.call, ho]
    rfl

/-- A table of three switches, of which the first one is off. -/
def Catalog.switches : Catalog :=
  let rows := [(0, [.boolean false]), (1, [.boolean true]), (2, [.boolean true])]
  ⟨"wooby", [⟨"switches", [⟨"on", .boolean⟩], some (.memory ⟨rows, 2, 3⟩)⟩], Function.builtins⟩

/-- `SELECT on FROM switches WHERE on ORDER BY on`, with names bound. -/
def Select.switchedOn : Select :=
  let on : Expr := .ofColumn ⟨none, "on", .boolean, 0, some ⟨0, 0⟩, 0⟩
  ⟨"", false, [on], some (.table "switches" none (some 0) 0), [], some on, [], [⟨on, true⟩],
    none, 0⟩

theorem Select.switchedOn_numbered :
    ∃ stages here cs kept projected, Select.switchedOn.compile .switches = .ok (.of stages) ∧
      combine here (Stages.queries .switches ⟨0, 0⟩ stages).joins = .ok cs ∧
      Select.switchedOn.Keeps .switches here cs kept ∧
      List.Forall₂ (Select.switchedOn.Shows .switches here) (kept.zipIdx 1) projected ∧
      arrange false [true] none projected = [⟨1, [.boolean true]⟩, ⟨2, [.boolean true]⟩] := by
  have hanswer : (do (← Select.switchedOn.compile .switches).query .switches ⟨0, 0⟩ []) =
      .ok [⟨1, [.boolean true]⟩, ⟨2, [.boolean true]⟩] := by
    cbv
  obtain ⟨plan, hplan, hrows⟩ := bind_eq_ok_iff.1 hanswer
  obtain ⟨stages, rfl, -⟩ := Select.compile_eq_ok hplan
  obtain ⟨⟨here, cs, kept, projected, -, hcs, hkeeps, hshows, harrange, -⟩, -⟩ :=
    Select.rows_numbered hplan rfl hrows
  exact ⟨stages, here, cs, kept, projected, hplan, hcs, hkeeps, hshows, harrange.symm⟩

end SqlEngine
