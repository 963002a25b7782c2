import SqlEngine.Plan.Execution
import SqlEngine.Proofs.Plan.Combination
import SqlEngine.Proofs.Plan.Soundness

/-!
# Plans — the rows that are kept, and what is made of them

A query first finds the combinations of rows that its WHERE clause keeps (`Stages.kept`), and then
makes its output rows of them (`Stages.finish`).  Queries that differ in the second half only are
compared on the kept combinations.  When all tables are in memory, every row that a kept combination
names is there.

* `Stages.kept_known`: kept combinations are known.
* `Stages.rows_of_true`: a condition that is always TRUE changes no rows.
-/

namespace SqlEngine

variable {c : Catalog} {now : Date.Instant} {outer : List Frame} {here : Setting}

/-! ### The two halves of a plan -/

/-- The stages of a SELECT up to its WHERE clause, with nothing that is made of the rows. -/
def Select.compileFrom (c : Catalog) (s : Select) : Except Error (Stages Plan) := do
  let first ← Source.supplies c s.origin
  let more ← Join.supplies c s.joins
  let steps ← Join.steps c s.joins
  let filter ← Expr.programOption c s.filter
  .ok
    { sources := first ++ more
      joins := steps
      filter := filter
      outputs := []
      columns := []
      groupBy := []
      aggregates := []
      orderBy := []
      distinct := false
      limit := none
      aggregated := false }

/-- The plan with the other stages. -/
def Select.compileClauses (c : Catalog) (s : Select) (base : Stages Plan) : Except Error Plan := do
  let groups ← Expr.programs c s.groupBy
  let (outputs, slots) ← Expr.outputPrograms c s.groupKeys [] s.output
  let (order, slots) ← OrderKey.sortKeys c s.groupKeys slots s.orderBy
  .ok <| .of
    { base with
      outputs := outputs
      columns := s.output.map fun e => ⟨e.name, e.type⟩
      groupBy := groups
      aggregates := slots
      orderBy := order
      distinct := s.distinct
      limit := s.limit
      aggregated := s.isAggregate }

theorem Select.compile_eq (c : Catalog) (s : Select) :
    s.compile c = s.compileFrom c >>= s.compileClauses c := by
  obtain ⟨text, distinct, output, origin, joins, filter, groupBy, orderBy, limit, offset⟩ := s
  simp only [compile, compileFrom, bind_assoc, ok_bind]
  rfl

/-! ### Tables in memory -/

/-- The rows of every table are in memory. -/
def Catalog.InMemory (c : Catalog) : Prop :=
  ∀ id p, c.provider? id = some p → ∃ m, p = .memory m

theorem Supply.exists_memory (hc : c.InMemory) {supply : Supply MemoryTable} {p : Provider}
    (h : supply.provider c = .ok p) : ∃ m, p = .memory m := by
  cases supply with
  | query t width =>
    obtain rfl := Except.ok.inj h
    exact ⟨t, rfl⟩
  | table id width =>
    simp only [Supply.provider] at h
    split at h
    next q hq =>
      obtain rfl := Except.ok.inj h
      exact hc id q hq
    next => cases h

/-- The sources of a query announce only rows that are there. -/
theorem Stages.announced_of_setting (hc : c.InMemory) {s : Stages Query}
    (h : s.setting c now outer = .ok here) : here.Announced := by
  obtain ⟨tables, -, h⟩ := bind_eq_ok_iff.1 h
  obtain ⟨providers, hproviders, h⟩ := bind_eq_ok_iff.1 h
  obtain rfl := Except.ok.inj h
  intro p hp
  obtain ⟨supply, -, hsupply⟩ := exists_mem_of_forall₂ (mapM_eq_ok_iff.1 hproviders) hp
  obtain ⟨m, rfl⟩ := Supply.exists_memory hc hsupply
  exact Provider.announced_memory m

/-! ### The two halves of a query -/

namespace Stages

/-- The setting of a query, and the combinations that WHERE keeps in it. -/
def kept (s : Stages Query) (c : Catalog) (now : Date.Instant) (outer : List Frame) :
    Except Error (Setting × List Combination) := do
  let here ← s.setting c now outer
  .ok (here, ← keep here s.filter (← combine here s.joins))

/-- The output rows that are made of the kept combinations. -/
def finish (s : Stages Query) (here : Setting) (kept : List Combination) :
    Except Error (List OutputRow) := do
  let projected ← s.projectAll here kept
  .ok (arrange s.distinct (s.orderBy.map SortKey.ascending) s.limit
    (dropBlank kept.isEmpty projected))

theorem rows_eq (s : Stages Query) :
    s.rows c now outer = s.kept c now outer >>= fun p => s.finish p.1 p.2 := by
  simp only [rows, kept, bind_assoc]
  rfl

variable {s : Stages Query} {kept : List Combination}

theorem setting_of_kept (h : s.kept c now outer = .ok (here, kept)) :
    s.setting c now outer = .ok here := by
  obtain ⟨here', hhere, h⟩ := bind_eq_ok_iff.1 h
  obtain ⟨cs, -, h⟩ := bind_eq_ok_iff.1 h
  obtain ⟨kept', -, h⟩ := bind_eq_ok_iff.1 h
  obtain ⟨rfl, -⟩ := Prod.mk.inj (Except.ok.inj h)
  exact hhere

theorem catalog_of_kept (h : s.kept c now outer = .ok (here, kept)) :
    here.catalog = c ∧ here.now = now := by
  have hsetting := setting_of_kept h
  simp only [setting, bind_eq_ok_iff] at hsetting
  obtain ⟨tables, -, providers, -, hsetting⟩ := hsetting
  rw [← Except.ok.inj hsetting]
  exact ⟨rfl, rfl⟩

/-- **Kept combinations are known**, when all tables are in memory. -/
theorem kept_known (hc : c.InMemory) (h : s.kept c now outer = .ok (here, kept)) :
    ∀ row ∈ kept, row.Known here.providers := by
  have hannounced := announced_of_setting hc (setting_of_kept h)
  obtain ⟨here', -, h⟩ := bind_eq_ok_iff.1 h
  obtain ⟨cs, hcs, h⟩ := bind_eq_ok_iff.1 h
  obtain ⟨kept', hkept, h⟩ := bind_eq_ok_iff.1 h
  obtain ⟨rfl, rfl⟩ := Prod.mk.inj (Except.ok.inj h)
  exact fun row hrow => combine_known hannounced hcs row ((keep_sublist hkept).subset hrow)

end Stages

/-! ### Other sources -/

theorem Stages.projectRows_from (s : Stages Query) (sources : List (Supply Query))
    (joins : List (JoinStep Query)) (filter : Option (Program Query)) (here : Setting) :
    ∀ (rows : List Combination) (number : Nat),
    Stages.projectRows { s with sources, joins, filter } here number rows =
      s.projectRows here number rows
  | [], _ => rfl
  | row :: rows, number => by
    simp only [projectRows, projectRows_from s sources joins filter here rows (number + 1)]
    rfl

theorem Stages.projectGroups_from (s : Stages Query) (sources : List (Supply Query))
    (joins : List (JoinStep Query)) (filter : Option (Program Query)) (here : Setting)
    (functions : List AggregateFunction) : ∀ (gs : List (Group Combination)) (done : List Projected),
    Stages.projectGroups { s with sources, joins, filter } here functions done gs =
      s.projectGroups here functions done gs
  | [], _ => rfl
  | g :: gs, done => by
    simp only [projectGroups, projectGroups_from s sources joins filter here functions gs]
    rfl

/-- What is made of the kept combinations does not depend on where they come from. -/
theorem Stages.finish_from (s : Stages Query) (sources : List (Supply Query))
    (joins : List (JoinStep Query)) (filter : Option (Program Query)) (here : Setting)
    (kept : List Combination) :
    Stages.finish { s with sources, joins, filter } here kept = s.finish here kept := by
  simp only [finish, projectAll, projectRows_from, projectGroups_from]
  rfl

/-! ### A condition that is TRUE -/

theorem filterRows_of_true {p : Program Query} (hp : ∀ env, p.value env = .ok (.boolean true)) :
    ∀ {cs : List Combination} {number : Nat}, (∀ c ∈ cs, c.Known here.providers) →
    filterRows here p number cs = .ok cs
  | [], _, _ => rfl
  | c :: cs, number, h => by
    obtain ⟨hc, hcs⟩ := List.forall_mem_cons.1 h
    obtain ⟨env, henv, -⟩ := Setting.exists_envFor hc number
    simp only [filterRows, henv, ok_bind, hp env, filterRows_of_true hp hcs, Value.isTrue, if_true]

/-- **A condition that is always TRUE changes no rows**, when all tables are in memory. -/
theorem Stages.rows_of_true (hc : c.InMemory) {s : Stages Query} (hs : s.filter = none)
    {p : Program Query} (hp : ∀ env, p.value env = .ok (.boolean true)) :
    Stages.rows { s with filter := some p } c now outer = s.rows c now outer := by
  have hkept : Stages.kept { s with filter := some p } c now outer = s.kept c now outer := by
    simp only [Stages.kept, hs]
    refine bind_congr_ok fun here hhere => bind_congr_ok fun cs hcs => ?_
    have hannounced : here.Announced := announced_of_setting hc hhere
    simp only [keep, filterRows_of_true hp (combine_known hannounced hcs)]
  simp only [rows_eq, hkept]
  exact bind_congr_ok fun p _ => finish_from s s.sources s.joins _ p.1 p.2

end SqlEngine
