import SqlEngine.Proofs.Database.Answers
import SqlEngine.Proofs.Database.Grouping
import SqlEngine.Proofs.Database.Selection
import SqlEngine.Proofs.Plan.Counts
import SqlEngine.Proofs.Resolution.Ambiguity

/-!
# Database — COUNT

`SELECT 1` has a row for each combination that its sources and its WHERE clause find, and
`SELECT COUNT()` of the same sources one row with their number.

* `Expr.outputPrograms_count`: the code of the output `COUNT()`.
* `Select.Lists.answer_counts`, `Select.Lists.answer_countsAt`: the two SELECTs side by side, also
  when there are more outputs.
* `Database.Reachable.count_eq_length`: so they are in every reachable database.
-/

namespace SqlEngine

variable {c : Catalog}

/-! ### The output `COUNT()` -/

/-- The overload of COUNT that has no arguments. -/
def Variant.countAll : Variant :=
  ⟨[], .number, .aggregate .count⟩

/-- The call is that of COUNT, without arguments. -/
structure Call.IsCount (f : Call) : Prop where
  function : Text.upper f.function = "COUNT"
  arguments : f.arguments = []

/-- The expression is `COUNT()`. -/
def Expr.IsCount (e : Expr) : Prop :=
  ∃ f : Call, f.IsCount ∧ e.nodes = [.call f]

/-- The call resolved to an overload of COUNT. -/
def Call.counting (f : Call) (target : Overload) : Call :=
  { f with target := some target, type := .number, isAggregate := true }

/-- The expression with its call resolved. -/
def Expr.counting (e : Expr) (f : Call) (target : Overload) : Expr :=
  { e with nodes := [.call (f.counting target)], type := .number, isBoolean := false,
           hasAggregate := true }

/-- The built-in function COUNT. -/
def Function.counts : Function :=
  ⟨"COUNT", .countAll ::
    [DataType.number, .text, .boolean, .date].map fun t => ⟨[t], .number, .aggregate .count⟩⟩

theorem Catalog.findFunction?_count (hc : c.functions = Function.builtins) {name : String}
    (hname : Text.upper name = "COUNT") :
    c.findFunction? name = some (9, .counts) ∧ c.variant? ⟨9, 0⟩ = some .countAll := by
  have hfind : (Function.builtins.zipIdx.reverse.find? fun p => p.1.name == "COUNT") =
      some (.counts, 9) := by cbv
  have hvariant : (Function.builtins[9]?.bind fun f => f.variants[0]?) = some .countAll := by cbv
  rw [Catalog.findFunction?, Catalog.variant?, hc, hname, hfind]
  exact ⟨rfl, hvariant⟩

theorem Call.IsCount.resolve {f : Call} (hf : f.IsCount) (hc : c.functions = Function.builtins)
    (scopes : List Scope) : f.resolve c scopes true = .ok (f.counting ⟨9, 0⟩) := by
  obtain ⟨function, arguments, target, type, isAggregate, offset⟩ := f
  obtain ⟨hname, rfl⟩ := hf
  rw [Call.resolve, (Catalog.findFunction?_count hc hname).1]
  rfl

theorem Expr.resolve_count {e : Expr} {f : Call} (hf : f.IsCount) (he : e.nodes = [.call f])
    (hc : c.functions = Function.builtins) (scopes : List Scope) :
    e.resolve c scopes true = .ok (e.counting f ⟨9, 0⟩) := by
  obtain ⟨nodes, type, isBoolean, hasAggregate, source, aliasName, offset⟩ := e
  obtain rfl : nodes = [.call f] := he
  simp only [Expr.resolve, Node.resolveAll, Node.resolve, hf.resolve hc, ok_bind]
  rfl

theorem Expr.emit_count {e : Expr} {f : Call} (hf : f.IsCount) (target : Overload)
    (slots : List (Slot Plan)) : (e.counting f target).emit c (some []) ⟨[], slots⟩ =
      .ok ⟨[.aggregate slots.length], ⟨[], slots ++ [⟨target, []⟩]⟩⟩ := by
  obtain ⟨function, arguments, _, _, _, _⟩ := f
  obtain rfl : arguments = [] := hf.arguments
  simp only [Expr.counting, Call.counting, Expr.emit, Expr.keyIndex?, Option.bind_some,
    Expr.indexIn?, List.findIdx?_nil, Node.emitAll, Node.emit, Node.keyIndex?, Node.indexIn?,
    Call.emit, Expr.programs, ok_bind]
  rfl

theorem Expr.counting_aggregateFault? (e : Expr) (f : Call) (target : Overload) :
    (e.counting f target).aggregateFault? = none := by
  have hindex : ((Node.call (f.counting target)).indexIn? []).isSome = false := rfl
  have hungrouped : (e.counting f target).ungrouped? [] = none := by
    simp only [counting, ungrouped?, Node.ungrouped?, hindex]
    rfl
  rw [aggregateFault?, hungrouped]
  rfl

theorem Slot.isCount_counts (hc : c.functions = Function.builtins) :
    Slot.IsCount c ⟨⟨9, 0⟩, []⟩ where
  function := by
    have hupper : Text.upper "COUNT" = "COUNT" := by decide
    rw [Slot.function, (Catalog.findFunction?_count hc hupper).2]
    rfl
  arguments := rfl

/-- The output has a slot of its own, which has no arguments. -/
theorem Expr.outputPrograms_count {e : Expr} {f : Call} (hf : f.IsCount) (target : Overload)
    (slots : List (Slot Plan)) (es : List Expr) :
    Expr.outputPrograms c (some []) slots (e.counting f target :: es) =
      (Expr.outputPrograms c (some []) (slots ++ [⟨target, []⟩]) es).map fun p =>
        (.ofSlot slots.length :: p.1, p.2) := by
  have hcode : (e.counting f target).outputCode (some []) slots
      ((e.counting f target).emit c (some []) ⟨[], slots⟩) =
        .ok ⟨[.aggregate slots.length, .out], ⟨[], slots ++ [⟨target, []⟩]⟩⟩ := by
    rw [Expr.emit_count hf]
    rfl
  exact Expr.outputPrograms_of_code rfl hcode es

/-! ### `COUNT()` among other outputs -/

theorem Expr.isWildcard_call {e : Expr} {f : Call} (he : e.nodes = [.call f]) :
    e.isWildcard = false := by
  rw [isWildcard, column?, he]
  rfl

theorem Expr.resolveOutputs_cons {scopes : List Scope} {e : Expr} {es listed : List Expr}
    (h : Expr.resolveOutputs c scopes (e :: es) = .ok listed) :
    ∃ e' rest, Expr.resolveOutputs c scopes es = .ok rest ∧ listed = e' :: rest := by
  simp only [Expr.resolveOutputs] at h
  split at h
  · rw [ok_bind] at h
    obtain ⟨rest, hrest, h⟩ := bind_eq_ok_iff.1 h
    exact ⟨e, rest, hrest, (Except.ok.inj h).symm⟩
  · obtain ⟨e', -, h⟩ := bind_eq_ok_iff.1 h
    obtain ⟨rest, hrest, h⟩ := bind_eq_ok_iff.1 h
    exact ⟨e', rest, hrest, (Except.ok.inj h).symm⟩

theorem Expr.resolveOutputs_count {e : Expr} {f : Call} (hf : f.IsCount) (he : e.nodes = [.call f])
    (hc : c.functions = Function.builtins) {scopes : List Scope} {after : List Expr} :
    ∀ {before listed : List Expr},
    Expr.resolveOutputs c scopes (before ++ e :: after) = .ok listed →
    ∃ before' after', listed = before' ++ e.counting f ⟨9, 0⟩ :: after' ∧
      before'.length = before.length
  | [], listed, h => by
    simp only [List.nil_append, Expr.resolveOutputs, Expr.isWildcard_call he, Bool.false_eq_true,
      if_false, Expr.resolve_count hf he hc, ok_bind, bind_eq_ok_iff] at h
    obtain ⟨after', -, h⟩ := h
    exact ⟨[], after', (Except.ok.inj h).symm, rfl⟩
  | first :: before, listed, h => by
    obtain ⟨first', rest, hrest, rfl⟩ := Expr.resolveOutputs_cons h
    obtain ⟨before', after', rfl, hlength⟩ := Expr.resolveOutputs_count hf he hc hrest
    exact ⟨first' :: before', after', rfl, congrArg (· + 1) hlength⟩

theorem Expr.outputPrograms_countAt {e : Expr} {f : Call} (hf : f.IsCount) (target : Overload)
    (after : List Expr) : ∀ {before : List Expr} {slots slots' : List (Slot Plan)}
    {programs : List (Program Plan)},
    Expr.outputPrograms c (some []) slots (before ++ e.counting f target :: after) =
      .ok (programs, slots') →
    ∃ i, programs[before.length]? = some (.ofSlot i) ∧ slots'[i]? = some ⟨target, []⟩
  | [], slots, slots', programs, h => by
    rw [List.nil_append, Expr.outputPrograms_count hf, map_eq_ok_iff] at h
    obtain ⟨⟨rest, final⟩, hrest, h⟩ := h
    obtain ⟨rfl, rfl⟩ := Prod.mk.inj h
    exact ⟨slots.length, rfl, getElem?_of_append_le (Expr.outputPrograms_le hrest)⟩
  | first :: before, slots, slots', programs, h => by
    obtain ⟨code, rest, -, hrest, rfl⟩ := Expr.outputPrograms_cons h
    obtain ⟨i, hi, hslot⟩ := Expr.outputPrograms_countAt hf target after hrest
    exact ⟨i, hi, hslot⟩

/-! ### SELECTs of the same sources -/

/-- The SELECT lists the outputs for the rows that it finds, and does nothing else with them. -/
structure Select.Lists (s : Select) (output : List Expr) : Prop where
  output : s.output = output
  distinct : s.distinct = false
  groupBy : s.groupBy = []
  orderBy : s.orderBy = []
  limit : s.limit = none

theorem Select.Lists.placed {s : Select} {output : List Expr} (hs : s.Lists output) (φ : Placing) :
    (s.placed φ).Lists (output.map (Expr.placed φ)) where
  output := by rw [Select.placed_output, hs.output]
  distinct := by rw [Select.placed_distinct, hs.distinct]
  groupBy := by rw [Select.placed_groupBy, hs.groupBy, List.map_nil]
  orderBy := by rw [Select.placed_orderBy, hs.orderBy, List.map_nil]
  limit := by rw [Select.placed_limit, hs.limit]

theorem Select.Lists.withOutput {s : Select} {output : List Expr} (hs : s.Lists output)
    (text : String) (es : List Expr) : Select.Lists { s with text, output := es } es :=
  ⟨rfl, hs.distinct, hs.groupBy, hs.orderBy, hs.limit⟩

/-- The outputs do not matter for what is found. -/
theorem Select.found_withOutput (s : Select) (text : String) (es : List Expr)
    (outer : List Scope) (now : Date.Instant) (frames : List Frame) :
    Select.found c outer now frames { s with text, output := es } = s.found c outer now frames :=
  rfl

/-- `SELECT 1` has a row for each combination that is found. -/
theorem Select.Lists.answer_number {s : Select} {one : Expr} (hs : s.Lists [one]) {x : Float}
    (hone : one.nodes = [.number x]) :
    ∃ listing : Stages Plan, (∀ now, (Stages.queries c now listing).Enumerates x) ∧
      ∀ outer now frames, s.answer c outer now frames = s.found c outer now frames >>= fun p =>
        ((Stages.queries c now listing).finish p.1 p.2).map fun rows =>
          ⟨listing.columns, rows, 0⟩ := by
  obtain ⟨nodes, type, isBoolean, hasAggregate, source, aliasName, offset⟩ := one
  obtain rfl : nodes = [.number x] := hone
  let listed : Expr := ⟨[.number x], .number, false, false, source, aliasName, offset⟩
  have hlisted : ∀ scopes, Expr.resolveOutputs c scopes s.output = .ok [listed] := by
    intro scopes
    rw [hs.output]
    rfl
  have hprograms : Expr.outputPrograms c none [] [listed] =
      .ok ([⟨[.number x, .out], []⟩], []) := rfl
  refine ⟨s.listing [listed] [⟨[.number x, .out], []⟩] [], fun now => ?_,
    Select.answer_eq_found hs.groupBy hs.orderBy hlisted (fun _ => rfl) nofun hprograms⟩
  rw [Stages.queries_eq]
  exact ⟨rfl, rfl, rfl, hs.distinct, hs.limit⟩

/-- `SELECT COUNT()` adds up the combinations that are found. -/
theorem Select.Lists.answer_count {s : Select} {e : Expr} (hs : s.Lists [e]) (he : e.IsCount)
    (hc : c.functions = Function.builtins) :
    ∃ listing : Stages Plan, (∀ now, (Stages.queries c now listing).Totals ∧
        (Stages.queries c now listing).outputs = [.ofSlot 0] ∧
        (Stages.queries c now listing).aggregates = [⟨⟨9, 0⟩, []⟩]) ∧
      ∀ outer now frames, s.answer c outer now frames = s.found c outer now frames >>= fun p =>
        ((Stages.queries c now listing).finish p.1 p.2).map fun rows =>
          ⟨listing.columns, rows, 0⟩ := by
  obtain ⟨f, hf, hnodes⟩ := he
  have hlisted : ∀ scopes, Expr.resolveOutputs c scopes s.output = .ok [e.counting f ⟨9, 0⟩] := by
    intro scopes
    simp only [hs.output, Expr.resolveOutputs, Expr.isWildcard_call hnodes, Bool.false_eq_true,
      if_false, Expr.resolve_count hf hnodes hc, ok_bind]
  have hprograms : Expr.outputPrograms c (some []) [] [e.counting f ⟨9, 0⟩] =
      .ok ([.ofSlot 0], [⟨⟨9, 0⟩, []⟩]) := Expr.outputPrograms_count hf ⟨9, 0⟩ [] []
  refine ⟨s.listing [e.counting f ⟨9, 0⟩] [.ofSlot 0] [⟨⟨9, 0⟩, []⟩], fun now => ?_,
    Select.answer_eq_found hs.groupBy hs.orderBy hlisted (fun _ => rfl)
      (fun _ => by rw [List.findSome?_singleton, Expr.counting_aggregateFault?]) hprograms⟩
  rw [Stages.queries_eq]
  exact ⟨⟨rfl, rfl, rfl, hs.distinct, hs.limit⟩, rfl, rfl⟩

/-! ### The two SELECTs side by side -/

variable {s : Select} {one e : Expr} {x : Float}

/-- The second answer is one row, which holds the number of rows of the first one. -/
def Output.Counts (out out' : Output) : Prop :=
  ∃ id, out'.rows = [⟨id, [.number (Float.ofNat out.rows.length)]⟩]

/-- The second answer is one row, whose value at the position is the number of rows of the first
one. -/
def Output.CountsAt (k : Nat) (out out' : Output) : Prop :=
  ∃ row, out'.rows = [row] ∧ row.values[k]? = some (.number (Float.ofNat out.rows.length))

theorem Select.Lists.answer_of_found (hs : s.Lists [one]) (hone : one.nodes = [.number x])
    (hc : c.InMemory) {outer : List Scope} {now : Date.Instant} {frames : List Frame}
    {here : Setting} {kept : List Combination}
    (hfound : s.found c outer now frames = .ok (here, kept)) :
    ∃ out, s.answer c outer now frames = .ok out ∧ out.rows.length = kept.length := by
  obtain ⟨listing, hlisting, hanswer⟩ := hs.answer_number (c := c) hone
  obtain ⟨rows, hrows, hlength⟩ :=
    Stages.length_of_numbers (hlisting now) (Select.found_eq_ok hc hfound).2
  refine ⟨⟨listing.columns, rows, 0⟩, ?_, hlength⟩
  rw [hanswer, hfound, ok_bind, hrows]
  rfl

/-- **`SELECT COUNT()` counts the rows of `SELECT 1`**, or fails as it does. -/
theorem Select.Lists.answer_counts (hs : s.Lists [one]) (hone : one.nodes = [.number x])
    (he : e.IsCount) (hfunctions : c.functions = Function.builtins) (hc : c.InMemory)
    (text : String) (outer : List Scope) (now : Date.Instant) (frames : List Frame) :
    UpToPlaces Output.Counts (s.answer c outer now frames)
      (Select.answer c outer now frames { s with text, output := [e] }) := by
  obtain ⟨listing, hlisting, hcount⟩ :=
    (hs.withOutput text [e]).answer_count (c := c) he hfunctions
  obtain ⟨htotals, houtputs, haggregates⟩ := hlisting now
  rw [hcount, Select.found_withOutput]
  cases hfound : s.found c outer now frames with
  | error fault =>
    obtain ⟨numbers, -, hnumber⟩ := hs.answer_number (c := c) hone
    rw [hnumber, hfound]
    exact .error rfl
  | ok p =>
    obtain ⟨out, hout, hlength⟩ := hs.answer_of_found hone hc hfound
    obtain ⟨hcatalog, hkept⟩ := Select.found_eq_ok hc hfound
    obtain ⟨id, hfinish⟩ := Stages.finish_count htotals houtputs haggregates
      (hcatalog ▸ Slot.isCount_counts hfunctions) hkept
    rw [hout, ok_bind, hfinish]
    exact .ok ⟨id, by rw [hlength]⟩

/-- The plan of a SELECT whose outputs include `COUNT()`. -/
theorem Select.Lists.totals {before after : List Expr} {f : Call}
    (hs : s.Lists (before ++ e :: after)) (hf : f.IsCount) (he : e.nodes = [.call f])
    (hc : c.functions = Function.builtins) {outer : List Scope} {sources : Sources} {q : Select}
    {base : Stages Plan} {plan : Plan} (hq : s.resolveClauses c outer sources = .ok q)
    (hplan : q.compileClauses c base = .ok plan) (now : Date.Instant) :
    let stages := Stages.queries c now plan.stages
    stages.Totals ∧ (∀ p ∈ stages.outputs, p.AppendsOne) ∧
      ∃ i : Nat, stages.outputs[before.length]? = some (.ofSlot i) ∧
        stages.aggregates[i]? = some ⟨⟨9, 0⟩, []⟩ := by
  obtain ⟨text, distinct, output, origin, joins, filter, groupBy, orderBy, limit, offset⟩ := s
  obtain ⟨houtput, hdistinct, hgroup, horder, hlimit⟩ := hs
  obtain rfl : output = before ++ e :: after := houtput
  obtain rfl : groupBy = [] := hgroup
  obtain rfl : orderBy = [] := horder
  simp only [resolveClauses, Expr.resolveAll, OrderKey.resolveAll, ok_bind, bind_eq_ok_iff] at hq
  obtain ⟨listed, hlisted, filter', -, u, hgroups, output', houtput', hq⟩ := hq
  obtain rfl := Except.ok.inj hq
  obtain ⟨before', after', rfl, hlength⟩ := Expr.resolveOutputs_count hf he hc hlisted
  -- the count makes the SELECT aggregate, so that no output is a wildcard
  have hany : (before' ++ e.counting f ⟨9, 0⟩ :: after').any Expr.hasAggregate = true :=
    List.any_eq_true.2 ⟨_, List.mem_append_right _ List.mem_cons_self, rfl⟩
  have haggregate (origin : Option Source) (joins : List Join) : Select.isAggregate
      ⟨text, distinct, before' ++ e.counting f ⟨9, 0⟩ :: after', origin, joins, filter', [], [],
        limit, offset⟩ = true := by
    simp only [isAggregate, hany, List.isEmpty_nil, Bool.not_true, Bool.false_or, Bool.true_or]
  have hplain := Select.forall_of_groupFault? (groupFault?_of_requireGroups hgroups)
    (haggregate sources.origin sources.joins)
  obtain rfl := Scope.expandAll_self
    (fun e he => Expr.isWildcard_of_contains (hplain e (List.mem_append_left _ he)).1) houtput'
  simp only [compileClauses, groupKeys, haggregate, if_true, Expr.programs, OrderKey.sortKeys,
    ok_bind, bind_eq_ok_iff] at hplan
  obtain ⟨⟨outputs, slots⟩, hprograms, hplan⟩ := hplan
  obtain rfl := Except.ok.inj hplan
  obtain ⟨i, houtput, hslot⟩ := Expr.outputPrograms_countAt hf ⟨9, 0⟩ after' hprograms
  rw [hlength] at houtput
  simp only [Plan.stages, Stages.queries_eq]
  refine ⟨⟨rfl, rfl, rfl, hdistinct, hlimit⟩, Expr.outputPrograms_appends hprograms c now, i, ?_, ?_⟩
  · rw [List.getElem?_map, houtput]
    rfl
  · rw [List.getElem?_map, hslot]
    rfl

/-- **Further outputs do not change the count.** -/
theorem Select.Lists.answer_countsAt (hs : s.Lists [one]) (hone : one.nodes = [.number x])
    (he : e.IsCount) (hfunctions : c.functions = Function.builtins) (hc : c.InMemory)
    (text : String) (before after : List Expr) {outer : List Scope} {now : Date.Instant}
    {frames : List Frame} {out' : Output}
    (h : Select.answer c outer now frames { s with text, output := before ++ e :: after } =
      .ok out') :
    ∃ out, s.answer c outer now frames = .ok out ∧ out.CountsAt before.length out' := by
  obtain ⟨f, hf, hnodes⟩ := he
  obtain ⟨sources, q, base, plan, here, kept, rows, hq, hplan, hfound, hfinish, rfl⟩ :=
    Select.answer_eq_ok h
  obtain ⟨out, hout, hlength⟩ := hs.answer_of_found hone hc hfound
  obtain ⟨hcatalog, hkept⟩ := Select.found_eq_ok hc hfound
  obtain ⟨htotals, houtputs, i, hi, hslot⟩ :=
    (hs.withOutput text (before ++ e :: after)).totals hf hnodes hfunctions hq hplan now
  obtain ⟨row, rfl, hvalue⟩ := Stages.count_of_finish htotals houtputs hi hslot
    (hcatalog ▸ Slot.isCount_counts hfunctions) hkept hfinish
  exact ⟨out, hout, row, rfl, by rw [hvalue, hlength]⟩

/-- **COUNT counts what a plain query returns**, in every reachable database: it fails where
`SELECT 1` fails, and else gives one row, the number of its rows, which other outputs that succeed
do not change. -/
theorem Database.Reachable.count_eq_length {db : Database} (h : db.Reachable) (hs : s.Lists [one])
    (hone : one.nodes = [.number x]) (he : e.IsCount) (φ : Placing) (text : String)
    (before after : List Expr) :
    let counting : Select := { s.placed φ with text, output := [e] }
    let totals : Select := { s.placed φ with text, output := before ++ e :: after }
    (∀ outer now frames, UpToPlaces Output.Counts (s.answer db.catalog outer now frames)
        (counting.answer db.catalog outer now frames)) ∧
      (∀ outer now frames out', totals.answer db.catalog outer now frames = .ok out' →
        ∃ out, s.answer db.catalog outer now frames = .ok out ∧ out.CountsAt before.length out') ∧
      ∀ now t t', Statement.parse db.config.parser t = .ok (.select s) →
        (Statement.parse db.config.parser t' = .ok (.select counting) →
          UpToPlaces Output.Counts (db.execute now t).1 (db.execute now t').1) ∧
        (Statement.parse db.config.parser t' = .ok (.select totals) →
          ∀ out', (db.execute now t').1 = .ok out' →
            ∃ out, (db.execute now t).1 = .ok out ∧ out.CountsAt before.length out') := by
  intro counting totals
  have hfunctions := h.sound.functions
  have hc := h.sound.inMemory
  have hone' : (one.placed φ).nodes = [.number x] := by
    rw [Expr.placed_nodes, hone]
    rfl
  have hcounts (outer now frames) : UpToPlaces Output.Counts
      (s.answer db.catalog outer now frames) (counting.answer db.catalog outer now frames) :=
    ((Select.placed_standsFor φ s).answer outer now frames).of_eq
      ((hs.placed φ).answer_counts hone' he hfunctions hc text outer now frames)
  have hcountsAt (outer now frames out')
      (hout' : totals.answer db.catalog outer now frames = .ok out') :
      ∃ out, s.answer db.catalog outer now frames = .ok out ∧
        out.CountsAt before.length out' := by
    obtain ⟨out, hout, hcount⟩ :=
      (hs.placed φ).answer_countsAt hone' he hfunctions hc text before after hout'
    have hplaced := (Select.placed_standsFor (c := db.catalog) φ s).answer outer now frames
    rw [hout] at hplaced
    exact ⟨out, hplaced.eq_ok, hcount⟩
  refine ⟨hcounts, hcountsAt, fun now t t' ht => ⟨fun ht' => ?_, fun ht' out' hout' => ?_⟩⟩
  · rw [Database.execute_select ht, Database.execute_select ht']
    exact hcounts [] now []
  · rw [Database.execute_select ht'] at hout'
    rw [Database.execute_select ht]
    exact hcountsAt [] now [] out' hout'

namespace Database

/-- The written `SELECT 0 FROM lamps WHERE lit`. -/
def zeroPerLitLamp : Select :=
  ⟨"SELECT 0 FROM lamps WHERE lit", false, [.ofNodes [.number 0] "0" 7],
    some (.table "lamps" none none 14), [],
    some (.ofNodes [.column { qualifier := none, column := "lit", offset := 26 }] "lit" 26), [], [],
    none, 0⟩

/-- The written `COUNT(*)` or `COUNT()`. -/
def countAt (source : String) (offset : Nat) : Expr :=
  .ofNodes [.call ⟨"COUNT", [], none, .null, false, offset⟩] source offset

theorem countAt_isCount (source : String) (offset : Nat) : (countAt source offset).IsCount :=
  ⟨⟨"COUNT", [], none, .null, false, offset⟩,
    ⟨show Text.upper "COUNT" = "COUNT" by decide, rfl⟩, rfl⟩

theorem zeroPerLitLamp_counts :
    let text := "SELECT COUNT() FROM lamps WHERE lit"
    let counting : Select :=
      { zeroPerLitLamp.placed (.gap 9 6) with text, output := [countAt "COUNT()" 7] }
    let more := "SELECT COUNT(lit), COUNT(*) FROM lamps WHERE lit"
    let lit : Expr :=
      .ofNodes [.column { qualifier := none, column := "lit", offset := 13 }] "lit" 13
    let first : Expr := .ofNodes [.call ⟨"COUNT", [lit], none, .null, false, 7⟩] "COUNT(lit)" 7
    let totals : Select := { zeroPerLitLamp.placed (.gap 9 19) with
      text := more, output := [first, countAt "COUNT(*)" 19] }
    Statement.parse {} zeroPerLitLamp.text = .ok (.select zeroPerLitLamp) ∧
      Statement.parse {} text = .ok (.select counting) ∧
      Statement.parse {} more = .ok (.select totals) ∧
      (lamps.execute ⟨0, 0⟩ zeroPerLitLamp.text).1 =
        .ok ⟨[⟨"0", .number⟩], [⟨0, [.number 0]⟩, ⟨2, [.number 0]⟩], 0⟩ ∧
      UpToPlaces Output.Counts (lamps.execute ⟨0, 0⟩ zeroPerLitLamp.text).1
        (lamps.execute ⟨0, 0⟩ text).1 ∧
      ∃ out out', (lamps.execute ⟨0, 0⟩ more).1 = .ok out' ∧
        (lamps.execute ⟨0, 0⟩ zeroPerLitLamp.text).1 = .ok out ∧ out.CountsAt 1 out' := by
  intro text counting more lit first totals
  have hs : Statement.parse {} zeroPerLitLamp.text = .ok (.select zeroPerLitLamp) := by cbv
  have hcounting : Statement.parse {} text = .ok (.select counting) := by cbv
  have htotals : Statement.parse {} more = .ok (.select totals) := by cbv
  have hlists : zeroPerLitLamp.Lists [.ofNodes [.number 0] "0" 7] := ⟨rfl, rfl, rfl, rfl, rfl⟩
  obtain ⟨out', hanswer⟩ := exists_of_isOk
    (show (totals.answer lamps.catalog [] ⟨0, 0⟩ []).isOk = true by decide +kernel)
  have hout' : (lamps.execute ⟨0, 0⟩ more).1 = .ok out' := by
    rw [execute_select htotals, hanswer]
  obtain ⟨-, -, hcounts⟩ := reachable_lamps.count_eq_length hlists rfl
    (countAt_isCount "COUNT()" 7) (.gap 9 6) text [] []
  obtain ⟨-, -, hcountsAt⟩ := reachable_lamps.count_eq_length hlists rfl
    (countAt_isCount "COUNT(*)" 19) (.gap 9 19) more [first] []
  obtain ⟨out, hout, hat⟩ := (hcountsAt ⟨0, 0⟩ _ _ hs).2 htotals out' hout'
  exact ⟨hs, hcounting, htotals, by cbv, (hcounts ⟨0, 0⟩ _ _ hs).1 hcounting, out, out', hout', hout,
    hat⟩

end Database

end SqlEngine
