import SqlEngine.Proofs.Database.Answers
import SqlEngine.Proofs.Database.Grouping
import SqlEngine.Proofs.Database.Selection
import SqlEngine.Proofs.Plan.Steady
import SqlEngine.Proofs.Resolution.Ambiguity

/-!
# Database — DISTINCT and GROUP BY

`SELECT e ... GROUP BY e` and `SELECT DISTINCT e ...` list the same rows, when the outputs depend on
the current rows alone.

* `Select.GroupsByOutputs.answer`: the two SELECTs side by side.
* `Database.Reachable.distinct_eq_grouped`: so they are in every reachable database.
-/

namespace SqlEngine

variable {c : Catalog} {s : Select} {f : Sources} {listed keys : List Expr} {scope : Scope}

/-! ### The two SELECTs -/

/-- The SELECT groups by its outputs, in their order, and does not sort. -/
structure Select.GroupsByOutputs (s : Select) : Prop where
  nonempty : s.output ≠ []
  plain : ∀ e ∈ s.output, e.isWildcard = false
  groupBy : List.Forall₂ Expr.Repeats s.output s.groupBy
  orderBy : s.orderBy = []
  distinct : s.distinct = false

/-- The resolved outputs depend on the current rows alone: there are no aggregates, no functions of
the output row, no sub-selects and no negative zeros in them. -/
def Select.SteadyOutputs (c : Catalog) (s : Select) : Prop :=
  ∀ f listed, s.resolveFrom c [] = .ok f →
    Expr.resolveOutputs c [f.scope] s.output = .ok listed →
    ∀ e ∈ listed, e.Everywhere (.steady c)

/-- The SELECT with DISTINCT in the place of GROUP BY. -/
def Select.distinctly (s : Select) : Select :=
  { s with distinct := true, groupBy := [] }

/-- The outputs of the two SELECTs as they are resolved, and the keys. -/
structure Sources.Lists (c : Catalog) (f : Sources) (s : Select) (listed keys : List Expr) : Prop
    where
  output : Expr.resolveOutputs c [f.scope] s.output = .ok listed
  groupBy : Expr.resolveAll c [f.scope] false s.groupBy = .ok keys
  nonempty : listed ≠ []
  settled : ∀ e ∈ listed, e.Everywhere (.settled c f.scope)
  plain : ∀ e ∈ listed, e.containsWildcard = false
  repeats : List.Forall₂ Expr.Repeats listed keys
  distinct : f.scope.Distinct

theorem Select.GroupsByOutputs.lists (hs : s.GroupsByOutputs)
    (hc : c.functions = Function.builtins) (hsteady : s.SteadyOutputs c)
    (hnumbers : s.Everywhere (.numbers Number.IsNumber)) (hf : s.resolveFrom c [] = .ok f)
    (hlisted : Expr.resolveOutputs c [f.scope] s.output = .ok listed) :
    ∃ keys, f.Lists c s listed keys := by
  have hlistedSteady := hsteady f listed hf hlisted
  have hresolved : List.Forall₂ (fun e e' => e.resolve c [f.scope] true = .ok e') s.output listed :=
    ((List.forall₂_and_left _ _).2 ⟨hs.plain, Expr.resolveOutputs_forall₂ hlisted⟩).imp
      fun _ _ h => h.2.2 h.1
  obtain ⟨keys, hkeys, hrepeats⟩ := Expr.resolveAll_of_repeats hs.groupBy hresolved hlistedSteady
  refine ⟨keys, hlisted, hkeys, ?_, ?_, ?_, hrepeats, Select.distinct_of_resolveFrom hf⟩
  · rintro rfl
    exact hs.nonempty (List.forall₂_nil_right_iff.1 hresolved)
  · intro e' he'
    obtain ⟨e, hmem, he⟩ := exists_mem_of_forall₂ hresolved he'
    exact Expr.resolve_settled hc (hnumbers.output e hmem) he (hlistedSteady e' he')
  · intro e' he'
    obtain ⟨e, -, he⟩ := exists_mem_of_forall₂ hresolved he'
    exact (Expr.resolve_plain he).2

/-! ### Resolution -/

theorem Expr.ungrouped?_of_key {e : Expr} {i : Nat} (h : e.keyIndex? (some keys) = some i) :
    e.ungrouped? keys = none := by
  have hindex : (e.indexIn? keys).isSome = true := Option.isSome_iff_exists.2 ⟨i, h⟩
  obtain ⟨nodes, _, _, _, _, _, _⟩ := e
  rw [Expr.ungrouped?, if_pos hindex]

/-- An output that is a key has no fault. -/
theorem Sources.Lists.groupFault? (h : f.Lists c s listed keys) {e : Expr} (he : e ∈ listed) :
    e.groupFault? keys = none := by
  obtain ⟨i, hi, -⟩ := Expr.keyIndex?_of_repeats h.distinct h.repeats h.settled he
  have hcalls : e.calls.findSome? (Call.keyArgument? keys) = none := by
    refine List.findSome?_eq_none_iff.2 fun g hg => ?_
    rw [Call.keyArgument?, (Expr.forall_calls (h.settled e he) g hg).steady.scalar]
    rfl
  rw [Expr.groupFault?, h.plain e he, hcalls, Expr.ungrouped?_of_key hi]
  rfl

theorem Sources.Lists.expandAll (h : f.Lists c s listed keys) :
    f.scope.expandAll listed = .ok listed :=
  Scope.expandAll_plain _ fun e he => Expr.isWildcard_of_contains (h.plain e he)

theorem Sources.Lists.keys_nonempty (h : f.Lists c s listed keys) : keys.isEmpty = false := by
  refine List.isEmpty_eq_false_iff.2 ?_
  rintro rfl
  exact h.nonempty (List.forall₂_nil_right_iff.1 h.repeats)

theorem Sources.Lists.resolveClauses (h : f.Lists c s listed keys) (horder : s.orderBy = []) :
    s.resolveClauses c [] f = (Expr.resolveFilter c [f.scope] s.filter).map fun filter =>
      { s with output := listed, origin := f.origin, joins := f.joins, filter, groupBy := keys } := by
  obtain ⟨text, distinct, output, origin, joins, filter, groupBy, orderBy, limit, offset⟩ := s
  obtain rfl : orderBy = [] := horder
  simp only [Select.resolveClauses, h.output, ok_bind]
  cases Expr.resolveFilter c [f.scope] filter with
  | error e => rfl
  | ok filter' =>
    have hfault : Select.groupFault?
        ⟨text, distinct, listed, f.origin, f.joins, filter', keys, [], limit, offset⟩ = none := by
      simp only [Select.groupFault?, h.keys_nonempty, Bool.not_false, if_true, List.map_nil,
        List.append_nil]
      exact List.findSome?_eq_none_iff.2 fun e he => h.groupFault? he
    simp only [h.groupBy, OrderKey.resolveAll, ok_bind, Select.requireGroups, hfault, h.expandAll]
    rfl

theorem Sources.Lists.resolveClauses_distinctly (h : f.Lists c s listed keys)
    (horder : s.orderBy = []) :
    s.distinctly.resolveClauses c [] f = (Expr.resolveFilter c [f.scope] s.filter).map fun filter =>
      { s.distinctly with output := listed, origin := f.origin, joins := f.joins, filter } := by
  have hany : listed.any Expr.hasAggregate = false := List.any_eq_false.2 fun e he => by
    rw [Expr.hasAggregate_of_settled (h.settled e he)]
    exact Bool.false_ne_true
  refine Select.resolveClauses_listing (s := s.distinctly) rfl horder h.output h.expandAll
    fun haggregate => ?_
  rw [hany] at haggregate
  cases haggregate

/-! ### Compilation -/

theorem Sources.Lists.hasAggregate (h : f.Lists c s listed keys) :
    listed.any Expr.hasAggregate = false :=
  List.any_eq_false.2 fun e he => by
    rw [Expr.hasAggregate_of_settled (h.settled e he)]
    exact Bool.false_ne_true

theorem Sources.Lists.compilable (h : f.Lists c s listed keys) :
    Expr.EverywhereAll (.compilable c) listed :=
  Expr.everywhereAll_iff.2 fun e he => (h.settled e he).give Local.settled_compilable (h.settled e he)

/-- The plan with DISTINCT. -/
theorem Sources.Lists.compileClauses_distinctly {q : Select} (h : f.Lists c s q.output keys)
    (hgroup : q.groupBy = []) (horder : q.orderBy = []) (hdistinct : q.distinct = true)
    (base : Stages Plan) :
    ∃ plan, q.compileClauses c base = .ok plan ∧ plan.stages.columns = q.columns ∧
      plan.stages.limit = q.limit ∧ ∀ here : Setting, here.catalog = c →
        (Stages.queries c here.now plan.stages).Selects here
          (q.output.map (Expr.rowValue c here)) := by
  obtain ⟨⟨outputs, slots⟩, hprograms⟩ := Expr.exists_outputPrograms none [] h.compilable
    (fun e he _ => Expr.any_calls_of_settled (h.settled e he)) h.plain
  have hprograms' : Expr.outputPrograms c
      (if q.output.any Expr.hasAggregate then some [] else none) [] q.output =
        .ok (outputs, slots) := by
    rw [h.hasAggregate]
    exact hprograms
  refine ⟨_, Select.compileClauses_listing hgroup horder hprograms' base, rfl, rfl,
    fun here hhere => ?_⟩
  rw [Plan.stages, Stages.queries_eq]
  refine ⟨fun positions number id => ?_, h.hasAggregate, rfl, hdistinct⟩
  exact Expr.appends_of_outputPrograms hhere positions number id
    (fun e he => Expr.steady_of_settled (h.settled e he)) hprograms

/-- The plan with GROUP BY. -/
theorem Sources.Lists.compileClauses {q : Select} (h : f.Lists c s q.output q.groupBy)
    (horder : q.orderBy = []) (hdistinct : q.distinct = false) (base : Stages Plan) :
    ∃ plan, q.compileClauses c base = .ok plan ∧ plan.stages.columns = q.columns ∧
      plan.stages.limit = q.limit ∧ ∀ here : Setting, here.catalog = c →
        (Stages.queries c here.now plan.stages).Groups here
          (q.output.map (Expr.rowValue c here)) := by
  obtain ⟨programs, hprograms⟩ := Expr.exists_programs h.compilable
    fun e he => Expr.hasAggregate_of_settled (h.settled e he)
  obtain ⟨outputs, houtputs, hkeys⟩ := Expr.outputPrograms_of_repeats h.distinct h.repeats h.settled
    [] fun e he => ⟨he, h.plain e he⟩
  have haggregate : q.isAggregate = true := by
    simp only [Select.isAggregate, h.keys_nonempty, Bool.not_false, Bool.true_or]
  have hgroups : Expr.programs c q.groupBy = .ok programs := by
    rw [Expr.programs_of_repeats h.repeats, hprograms]
  have hcompile : q.compileClauses c base = .ok (.of { base with
      outputs := outputs, columns := q.columns, groupBy := programs, aggregates := []
      orderBy := [], distinct := q.distinct, limit := q.limit, aggregated := q.isAggregate }) := by
    simp only [Select.compileClauses, hgroups, ok_bind, Select.groupKeys, haggregate, if_true,
      houtputs, horder, OrderKey.sortKeys]
    rfl
  refine ⟨_, hcompile, rfl, rfl, fun here hhere => ?_⟩
  rw [Plan.stages, Stages.queries_eq]
  refine ⟨fun positions number id => ?_, hkeys here, ?_, rfl, haggregate, rfl, hdistinct⟩
  · exact Expr.value_of_programs hhere positions number id
      (fun e he => Expr.steady_of_settled (h.settled e he)) hprograms
  · exact fun hnil => h.nonempty (List.map_eq_nil_iff.1 hnil)

/-! ### Answers -/

theorem Select.answer_eq (s : Select) (outer : List Scope) (now : Date.Instant)
    (frames : List Frame) : s.answer c outer now frames =
      s.resolveFrom c outer >>= fun f => s.resolveClauses c outer f >>= fun q =>
        q.compileFrom c >>= fun base => q.compileClauses c base >>= fun plan =>
          (plan.query c now frames).map fun rows => ⟨plan.stages.columns, rows, 0⟩ := by
  simp only [answer, resolve_eq, compile_eq, bind_assoc]
  rfl

/-- **A SELECT that groups by its outputs has the answer of the one with DISTINCT.** -/
theorem Select.GroupsByOutputs.answer (hs : s.GroupsByOutputs)
    (hc : c.functions = Function.builtins) (hsteady : s.SteadyOutputs c)
    (hnumbers : s.Everywhere (.numbers Number.IsNumber)) (now : Date.Instant)
    (frames : List Frame) : s.answer c [] now frames = s.distinctly.answer c [] now frames := by
  have hfrom : s.distinctly.resolveFrom c [] = s.resolveFrom c [] := rfl
  rw [Select.answer_eq, Select.answer_eq, hfrom]
  refine bind_congr_ok fun f hf => ?_
  cases hlisted : Expr.resolveOutputs c [f.scope] s.output with
  | error e =>
    have houtput : s.distinctly.output = s.output := rfl
    simp only [Select.resolveClauses, houtput, hlisted, error_bind]
  | ok listed =>
    obtain ⟨keys, hlists⟩ := hs.lists hc hsteady hnumbers hf hlisted
    rw [hlists.resolveClauses hs.orderBy, hlists.resolveClauses_distinctly hs.orderBy]
    cases Expr.resolveFilter c [f.scope] s.filter with
    | error e => rfl
    | ok filter =>
      simp only [Except.map, ok_bind]
      refine bind_congr_ok fun base _ => ?_
      obtain ⟨plan, hplan, hcolumns, hlimit, hgroups⟩ := Sources.Lists.compileClauses
        (q := { s with output := listed, origin := f.origin, joins := f.joins, filter,
                       groupBy := keys }) hlists hs.orderBy hs.distinct base
      obtain ⟨plan', hplan', hcolumns', hlimit', hselects⟩ := hlists.compileClauses_distinctly
        (q := { s.distinctly with output := listed, origin := f.origin, joins := f.joins, filter })
        rfl hs.orderBy rfl base
      have hquery : plan.query c now frames = plan'.query c now frames := by
        rw [Plan.query_from hplan, Plan.query_from hplan']
        refine bind_congr_ok fun p hp => ?_
        obtain ⟨here, kept⟩ := p
        obtain ⟨hcatalog, rfl⟩ := Stages.catalog_of_kept hp
        have hlimits : (Stages.queries c here.now plan.stages).limit =
            (Stages.queries c here.now plan'.stages).limit := by
          rw [Stages.queries_eq, Stages.queries_eq]
          exact hlimit.trans hlimit'.symm
        exact (hgroups here hcatalog).finish (hselects here hcatalog) hlimits kept
      rw [hplan, hplan', ok_bind, ok_bind, hquery, hcolumns, hcolumns']
      rfl

/-- The text of a SELECT says nothing that its parts do not say. -/
theorem Select.answer_withText (s : Select) (text : String) (outer : List Scope)
    (now : Date.Instant) (frames : List Frame) :
    Select.answer c outer now frames { s with text } = s.answer c outer now frames := by
  have hresolve : Select.resolve c outer { s with text } =
      (s.resolve c outer).map fun q => { q with text } := by
    rw [Select.resolve_eq, Select.resolve_eq, bind_map]
    refine bind_congr_ok fun f _ => ?_
    simp only [Select.resolveClauses, bind_map]
    rfl
  have hcompile (q : Select) : Select.compile c { q with text } = q.compile c := by
    rw [Select.compile_eq, Select.compile_eq]
    rfl
  simp only [Select.answer, hresolve]
  exact bind_map_congr fun q _ => by rw [hcompile]

/-- **DISTINCT agrees with grouping by all outputs**, in every reachable database. -/
theorem Database.Reachable.distinct_eq_grouped {db : Database} (h : db.Reachable)
    (hs : s.GroupsByOutputs) (hsteady : s.SteadyOutputs db.catalog) (φ : Placing) (text : String)
    (now : Date.Instant) {t t' : String}
    (ht : Statement.parse db.config.parser t = .ok (.select s))
    (ht' : Statement.parse db.config.parser t' =
      .ok (.select { s.distinctly.placed φ with text })) :
    UpToPlaces Eq (db.execute now t).1 (db.execute now t').1 := by
  have hnumbers : s.Everywhere (.numbers Number.IsNumber) := Statement.parse_numbers ht
  rw [Database.execute_select ht, Database.execute_select ht', Select.answer_withText,
    hs.answer h.sound.functions hsteady hnumbers now []]
  exact (Select.placed_standsFor φ s.distinctly).answer [] now []

namespace Database

/-- The written `LOWER('ON')`. -/
def lowerOn (offset : Nat) : Expr :=
  .ofNodes [.call ⟨"LOWER", [.ofNodes [.text "ON"] "'ON'" (offset + 6)], none, .null, false, offset⟩]
    "LOWER('ON')" offset

/-- The written `SELECT lit, LOWER('ON') FROM lamps GROUP BY lit, LOWER('ON')`. -/
def litGroups : Select :=
  let lit (offset : Nat) : Expr := .ofNodes [.column { qualifier := none, column := "lit", offset }]
    "lit" offset
  ⟨"SELECT lit, LOWER('ON') FROM lamps GROUP BY lit, LOWER('ON')", false, [lit 7, lowerOn 12],
    some (.table "lamps" none none 29), [], none, [lit 44, lowerOn 49], [], none, 0⟩

theorem litGroups_groupsByOutputs : litGroups.GroupsByOutputs where
  nonempty := List.cons_ne_nil _ _
  plain := by decide
  groupBy := .cons ⟨.shift 37, by cbv⟩ (.cons ⟨.shift 37, by cbv⟩ .nil)
  orderBy := rfl
  distinct := rfl

theorem litGroups_steady : litGroups.SteadyOutputs lamps.catalog := by
  intro f listed hf hlisted
  have hfrom : litGroups.resolveFrom lamps.catalog [] =
      .ok ⟨some (.table "lamps" none (some 0) 29), [],
        [⟨"lamps", some "lamps", [⟨"lit", .boolean⟩]⟩]⟩ := by cbv
  obtain rfl := Except.ok.inj (hf.symm.trans hfrom)
  cbv at hlisted
  obtain rfl := Except.ok.inj hlisted
  have hlower : Call.Steady lamps.catalog ⟨"LOWER", [⟨[.text "ON"], .text, false, false, "'ON'", none,
      18⟩], some ⟨4, 0⟩, .text, false, 12⟩ := by
    refine ⟨rfl, fun o v ho hv => ?_⟩
    have hvariant : lamps.catalog.variant? ⟨4, 0⟩ = some ⟨[.text], .text, .scalar .lower⟩ := by cbv
    obtain rfl := Option.some.inj ho
    obtain rfl := Option.some.inj (hv.symm.trans hvariant)
    constructor <;> intro heq <;> cases heq
  exact Expr.everywhereAll_iff.1
    ⟨⟨List.forall_mem_singleton.2 trivial, trivial, trivial⟩,
      ⟨List.forall_mem_singleton.2 trivial, ⟨hlower,
        ⟨List.forall_mem_singleton.2 trivial, trivial, trivial⟩, trivial⟩, trivial⟩, trivial⟩

theorem litGroups_distinct :
    let text := "SELECT DISTINCT lit, LOWER('ON') FROM lamps"
    Statement.parse {} litGroups.text = .ok (.select litGroups) ∧
      Statement.parse {} text = .ok (.select { litGroups.distinctly.placed (.gap 7 9) with text }) ∧
      UpToPlaces Eq (lamps.execute ⟨0, 0⟩ litGroups.text).1 (lamps.execute ⟨0, 0⟩ text).1 ∧
      (lamps.execute ⟨0, 0⟩ text).1 = .ok ⟨[⟨"lit", .boolean⟩, ⟨"LOWER('ON')", .text⟩],
        [⟨0, [.boolean true, .text "on"]⟩, ⟨1, [.boolean false, .text "on"]⟩], 0⟩ := by
  intro text
  have hs : Statement.parse {} litGroups.text = .ok (.select litGroups) := by cbv
  have hs' : Statement.parse {} text =
      .ok (.select { litGroups.distinctly.placed (.gap 7 9) with text }) := by cbv
  exact ⟨hs, hs', reachable_lamps.distinct_eq_grouped litGroups_groupsByOutputs litGroups_steady
    (.gap 7 9) text ⟨0, 0⟩ hs hs', by cbv⟩

end Database

end SqlEngine
