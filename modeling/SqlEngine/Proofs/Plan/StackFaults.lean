import SqlEngine.Proofs.Plan.Soundness
import SqlEngine.Proofs.Program.Heights

/-!
# Plans — no stack faults

The code of an expression never lacks operands and raises the stack by one value, so its program
ends with a stack fault only if a nested query does.  A query does so only if one of its programs or
sources does (`Stages.rows_avoids`); from the innermost plans outwards no compiled plan does
(`Select.compile_quiet`).

`Program.stackDepth_exact` puts together what the sums of the effects say about the runs of a
program.
-/

namespace SqlEngine

variable {err : Error}

/-! ### Queries -/

/-- In no environment the error is the value of the program. -/
def Program.Quiet (err : Error) (p : Program Query) : Prop :=
  ∀ env, Avoids err (p.value env)

/-- In no environment the program ends with the error instead of writing to the output row. -/
def Program.WritesQuietly (err : Error) (p : Program Query) : Prop :=
  ∀ env row, Avoids err (p.write env row)

/-- No program of the query ends with the error, and no source. -/
structure Stages.Quiet (err : Error) (s : Stages Query) : Prop where
  sources : ∀ q width, .query q width ∈ s.sources → ∀ frames, Avoids err (q frames)
  joins : ∀ j ∈ s.joins, ∀ p, j.condition = some p → p.Quiet err
  filter : ∀ p, s.filter = some p → p.Quiet err
  outputs : ∀ p ∈ s.outputs, p.WritesQuietly err
  groupBy : ∀ p ∈ s.groupBy, p.Quiet err
  aggregates : ∀ slot ∈ s.aggregates, ∀ p ∈ slot.arguments, p.Quiet err
  orderBy : ∀ k ∈ s.orderBy, k.program.Quiet err

section Combinations

variable {here : Setting}

theorem Provider.locate_avoids (he : err.OfStack) (p : Provider) (row : Option RowId) :
    Avoids err (p.locate row) := by
  cases row with
  | none => exact .ok _
  | some row =>
    rw [locate]
    split
    · exact .ok _
    · exact he.avoids id

theorem locateAll_avoids (he : err.OfStack) : ∀ (ps : List Provider) (ids : Combination),
    Avoids err (locateAll ps ids)
  | [], _ => .ok []
  | _ :: ps, [] => (locateAll_avoids he ps []).bind fun _ => .ok _
  | p :: ps, id :: ids =>
    (p.locate_avoids he id).bind fun _ => (locateAll_avoids he ps ids).bind fun _ => .ok _

theorem Setting.envAt_avoids (he : err.OfStack) (c : Combination) : Avoids err (here.envAt c) :=
  (locateAll_avoids he here.providers c).bind fun _ => .ok _

theorem Setting.envFor_avoids (he : err.OfStack) (c : Combination) (number : Nat) :
    Avoids err (here.envFor c number) :=
  (locateAll_avoids he here.providers c).bind fun _ => .ok _

theorem Setting.holds_avoids (he : err.OfStack) {condition : Option (Program Query)}
    (h : ∀ p, condition = some p → p.Quiet err) (c : Combination) :
    Avoids err (here.holds condition c) := by
  cases condition with
  | none => exact .ok true
  | some p => exact (envAt_avoids he c).bind fun env => (h p rfl env).bind fun _ => .ok _

theorem matching_avoids {holds : Combination → Except Error Bool}
    (h : ∀ c, Avoids err (holds c)) (left : Combination) :
    ∀ ids, Avoids err (matching holds left ids)
  | [] => .ok []
  | _ :: ids => (h _).bind fun _ => (matching_avoids h left ids).bind fun _ => .ok _

theorem joinRows_avoids {holds : Combination → Except Error Bool}
    (h : ∀ c, Avoids err (holds c)) (kind : JoinKind) (width : Nat) (left : List Combination)
    (right : List RowId) : Avoids err (joinRows kind holds width left right) :=
  (Avoids.mapM fun c _ => matching_avoids h c right).bind fun _ => .ok _

theorem joinAll_avoids (he : err.OfStack) : ∀ {joins : List (JoinStep Query)},
    (∀ j ∈ joins, ∀ p, j.condition = some p → p.Quiet err) → ∀ width left,
    Avoids err (joinAll here width left joins)
  | [], _, _, left => .ok left
  | j :: js, h, width, left => by
    obtain ⟨hj, hjs⟩ := List.forall_mem_cons.1 h
    rw [joinAll]
    split
    · exact he.avoids id
    · exact (joinRows_avoids (Setting.holds_avoids he hj) _ _ _ _).bind fun joined =>
        joinAll_avoids he hjs (width + 1) joined

theorem combine_avoids (he : err.OfStack) {joins : List (JoinStep Query)}
    (h : ∀ j ∈ joins, ∀ p, j.condition = some p → p.Quiet err) :
    Avoids err (combine here joins) := by
  rw [combine]
  split
  · exact .ok _
  · exact joinAll_avoids he h 1 _

theorem filterRows_avoids (he : err.OfStack) {p : Program Query} (h : p.Quiet err) :
    ∀ (cs : List Combination) (number : Nat), Avoids err (filterRows here p number cs)
  | [], _ => .ok []
  | c :: cs, number =>
    (Setting.envFor_avoids he c number).bind fun env => (h env).bind fun _ =>
      (filterRows_avoids he h cs (number + 1)).bind fun _ => .ok _

theorem keep_avoids (he : err.OfStack) {filter : Option (Program Query)}
    (h : ∀ p, filter = some p → p.Quiet err) (cs : List Combination) :
    Avoids err (keep here filter cs) := by
  cases filter with
  | none => exact .ok cs
  | some p => exact filterRows_avoids he (h p rfl) cs 1

end Combinations

namespace Accumulator

theorem firstNumber_avoids (he : err.OfStack) (f : AggregateFunction) (args : List Value) :
    Avoids err (firstNumber f args) := by
  rw [firstNumber.eq_def]
  split
  · exact .ok none
  · exact .ok none
  · exact .ok _
  · exact he.avoids id

theorem add_avoids (he : err.OfStack) (args : List Value) (a : Accumulator) :
    Avoids err (a.add args) := by
  cases a with
  | count n =>
    simp only [add]
    split <;> exact .ok _
  | sum total =>
    refine (firstNumber_avoids he .sum args).bind fun x => ?_
    cases x <;> exact .ok _
  | average total n =>
    refine (firstNumber_avoids he .average args).bind fun x => ?_
    cases x <;> exact .ok _
  | minimum least => exact .ok _
  | maximum greatest => exact .ok _

theorem addAll_avoids (he : err.OfStack) : ∀ (rows : List (List Value)) (a : Accumulator),
    Avoids err (addAll rows a)
  | [], a => .ok a
  | args :: rows, a => (a.add_avoids he args).bind fun b => addAll_avoids he rows b

end Accumulator

theorem Slot.function_avoids (he : err.OfStack) (c : Catalog) (slot : Slot Query) :
    Avoids err (slot.function c) := by
  rw [function]
  split
  · exact he.avoids id
  · exact he.avoids id
  · exact .ok _

namespace Stages

variable {s : Stages Query} {here : Setting}

theorem project_avoids (h : s.Quiet err) (env : Env) : Avoids err (s.project env) :=
  (Avoids.foldlM (fun p hp row => h.outputs p hp env row) []).bind fun _ =>
    (Avoids.mapM fun k hk => h.orderBy k hk env).bind fun _ => .ok _

theorem projectRows_avoids (he : err.OfStack) (h : s.Quiet err) :
    ∀ (cs : List Combination) (number : Nat), Avoids err (s.projectRows here number cs)
  | [], _ => .ok []
  | c :: cs, number =>
    (Setting.envFor_avoids he c number).bind fun env => (project_avoids h env).bind fun _ =>
      (projectRows_avoids he h cs (number + 1)).bind fun _ => .ok _

theorem collect_avoids (he : err.OfStack) (h : s.Quiet err) (kept : List Combination) :
    Avoids err (s.collect here kept) :=
  (Avoids.mapM fun c _ => (Setting.envAt_avoids he c).bind fun env =>
    (Avoids.mapM fun p hp => h.groupBy p hp env).bind fun _ => .ok _).bind fun _ => .ok _

theorem slotRows_avoids (he : err.OfStack) {slot : Slot Query}
    (h : ∀ p ∈ slot.arguments, p.Quiet err) (number : Nat) (id : RowId)
    (members : List Combination) : Avoids err (slotRows here number id slot members) :=
  Avoids.mapM fun c _ => (locateAll_avoids he here.providers c).bind fun _ =>
    Avoids.mapM fun p hp => h p hp _

theorem projectGroup_avoids (he : err.OfStack) (h : s.Quiet err)
    (functions : List AggregateFunction) (done : List Projected) (g : Group Combination) :
    Avoids err (s.projectGroup here functions done g) := by
  rw [projectGroup]
  refine Avoids.bind (Avoids.mapM fun slot hslot =>
    slotRows_avoids he (h.aggregates slot hslot) _ _ _) fun rows => ?_
  refine Avoids.bind (Avoids.mapM fun p _ =>
    (Accumulator.addAll_avoids he p.2 _).bind fun _ => .ok _) fun results => ?_
  exact (locateAll_avoids he here.providers _).bind fun positions => project_avoids h _

theorem projectGroups_avoids (he : err.OfStack) (h : s.Quiet err)
    (functions : List AggregateFunction) :
    ∀ (gs : List (Group Combination)) (done : List Projected),
    Avoids err (s.projectGroups here functions done gs)
  | [], done => .ok done
  | g :: gs, done => (projectGroup_avoids he h functions done g).bind fun row =>
      projectGroups_avoids he h functions gs (done ++ [row])

theorem projectAll_avoids (he : err.OfStack) (h : s.Quiet err) (kept : List Combination) :
    Avoids err (s.projectAll here kept) := by
  rw [projectAll]
  split
  · exact (collect_avoids he h kept).bind fun groups =>
      (Avoids.mapM fun slot _ => slot.function_avoids he here.catalog).bind fun functions =>
        projectGroups_avoids he h functions groups []
  · exact projectRows_avoids he h kept 1

theorem setting_avoids (he : err.OfStack) (h : s.Quiet err) (c : Catalog) (now : Date.Instant)
    (outer : List Frame) : Avoids err (s.setting c now outer) := by
  have htables : ∀ supply ∈ s.sources, Avoids err (supply.materialize outer) := by
    intro supply hsupply
    cases supply with
    | table id width => exact .ok _
    | query q width => exact (h.sources q width hsupply outer).bind fun _ => .ok _
  have hproviders : ∀ supply : Supply MemoryTable, Avoids err (supply.provider c) := by
    intro supply
    cases supply with
    | table index width =>
      simp only [Supply.provider]
      split
      · exact .ok _
      · exact he.avoids id
    | query t width => exact .ok _
  exact (Avoids.mapM htables).bind fun tables =>
    (Avoids.mapM fun supply _ => hproviders supply).bind fun _ => .ok _

/-- **A query ends with a stack fault only if one of its programs or sources does.** -/
theorem rows_avoids (he : err.OfStack) (h : s.Quiet err) (c : Catalog) (now : Date.Instant)
    (outer : List Frame) : Avoids err (s.rows c now outer) :=
  (setting_avoids he h c now outer).bind fun _ =>
    (combine_avoids he h.joins).bind fun cs => (keep_avoids he h.filter cs).bind fun kept =>
      (projectAll_avoids he h kept).bind fun _ => .ok _

end Stages

/-! ### Compiled code -/

section Compiled

variable {r : Catalog} {now : Date.Instant}

/-- For no frames the plan ends with the error when it is run. -/
def Plan.Quiet (r : Catalog) (now : Date.Instant) (err : Error) (plan : Plan) : Prop :=
  ∀ frames, Avoids err (plan.query r now frames)

/-- No argument of the slot ends with the error. -/
def Slot.Quiet (r : Catalog) (now : Date.Instant) (err : Error) (slot : Slot Plan) : Prop :=
  ∀ p ∈ slot.arguments, (p.withQueries r now).Quiet err

/-- No nested plan and no slot ends with the error. -/
structure Parts.Quiet (r : Catalog) (now : Date.Instant) (err : Error) (parts : Parts) : Prop where
  queries : ∀ plan ∈ parts.queries, plan.Quiet r now err
  slots : ∀ slot ∈ parts.slots, slot.Quiet r now err

/-- The source is a table, or a plan that never ends with the error. -/
def Supply.Quiet (r : Catalog) (now : Date.Instant) (err : Error) : Supply Plan → Prop
  | .table _ _    => True
  | .query plan _ => plan.Quiet r now err

theorem Parts.quiet_of_slots {slots : List (Slot Plan)} (h : ∀ slot ∈ slots, slot.Quiet r now err) :
    Parts.Quiet r now err ⟨[], slots⟩ :=
  ⟨nofun, h⟩

theorem Parts.Quiet.queryAll {parts : Parts} (h : parts.Quiet r now err) :
    ∀ q ∈ Plan.queryAll r now parts.queries, ∀ frames, Avoids err (q frames) := by
  rw [Plan.queryAll_eq_map]
  exact List.forall_mem_map.2 h.queries

/-- The program of code that leaves one value. -/
theorem Code.quiet (he : err.OfStack) {code : Code} (hcode : Leads 0 code.instrs 1)
    (hparts : code.parts.Quiet r now err) : (code.program.withQueries r now).Quiet err :=
  Program.value_avoids he hcode hparts.queryAll

/-- The program of code that leaves nothing. -/
theorem Code.writesQuietly (he : err.OfStack) {code : Code} (hcode : Leads 0 code.instrs 0)
    (hparts : code.parts.Quiet r now err) : (code.program.withQueries r now).WritesQuietly err :=
  Program.write_avoids he hcode hparts.queryAll

theorem ColumnRef.leads {c : ColumnRef} {i : Instr} (h : c.instr = .ok i) : Leads 0 [i] 1 := by
  obtain ⟨b, -, h⟩ := bind_eq_ok_iff.1 h
  obtain rfl := Except.ok.inj h
  split
  · exact .push rfl rfl
  · exact .push rfl rfl

theorem ColumnRef.leads_out {c : ColumnRef} {i : Instr} (h : c.outInstr = .ok i) :
    Leads 0 [i] 0 := by
  obtain ⟨b, -, h⟩ := bind_eq_ok_iff.1 h
  obtain rfl := Except.ok.inj h
  exact .single (Nat.le_refl 0)

/-- The code of the item, if it is a value, leaves one value. -/
def Item.Leads : Item (List Instr) → Prop
  | .value code => SqlEngine.Leads 0 code 1
  | _           => True

/-- The operands of an operator are one above the other. -/
theorem Formula.Tree.leads_code {t : Formula.Tree (List Instr)}
    (h : ∀ item ∈ t.items, item.Leads) : Leads 0 t.code 1 := by
  induction t with
  | leaf code => exact h (.value code) (List.mem_singleton_self _)
  | group t ih => exact ih fun item hitem => h item (by simp [items, hitem])
  | node op left right ihl ihr =>
    have hleft := ihl fun item hitem => h item (by simp [items, hitem])
    have hright := ihr fun item hitem => h item (by simp [items, hitem])
    exact hleft.append ((hright.above 1).append (.single (Nat.le_refl 2)))

/-! ### Compiled plans -/

theorem Supply.exists_of_mem_queriesAll {supplies : List (Supply Plan)} {q : Query} {width : Nat}
    (h : .query q width ∈ Supply.queriesAll r now supplies) :
    ∃ plan, .query plan width ∈ supplies ∧ q = plan.query r now := by
  induction supplies with
  | nil => cases h
  | cons supply supplies ih =>
    cases supply with
    | table index width =>
      rcases List.mem_cons.1 h with heq | h
      · cases heq
      · obtain ⟨plan, hplan, rfl⟩ := ih h
        exact ⟨plan, List.mem_cons_of_mem _ hplan, rfl⟩
    | query plan width =>
      rcases List.mem_cons.1 h with heq | h
      · obtain ⟨rfl, rfl⟩ := Supply.query.inj heq
        exact ⟨plan, List.mem_cons_self, rfl⟩
      · obtain ⟨plan', hplan, rfl⟩ := ih h
        exact ⟨plan', List.mem_cons_of_mem _ hplan, rfl⟩

/-- What is asked of the stages of a plan. -/
structure Stages.QuietParts (r : Catalog) (now : Date.Instant) (err : Error) (s : Stages Plan) :
    Prop where
  sources : ∀ supply ∈ s.sources, supply.Quiet r now err
  joins : ∀ j ∈ s.joins, ∀ p, j.condition = some p → (p.withQueries r now).Quiet err
  filter : ∀ p, s.filter = some p → (p.withQueries r now).Quiet err
  outputs : ∀ p ∈ s.outputs, (p.withQueries r now).WritesQuietly err
  groupBy : ∀ p ∈ s.groupBy, (p.withQueries r now).Quiet err
  aggregates : ∀ slot ∈ s.aggregates, slot.Quiet r now err
  orderBy : ∀ k ∈ s.orderBy, (k.program.withQueries r now).Quiet err

theorem Stages.QuietParts.queries {s : Stages Plan} (h : s.QuietParts r now err) :
    (Stages.queries r now s).Quiet err := by
  rw [Stages.queries_eq]
  refine ⟨?sources, ?joins, ?filter, List.forall_mem_map.2 h.outputs,
    List.forall_mem_map.2 h.groupBy, ?aggregates, List.forall_mem_map.2 h.orderBy⟩
  case sources =>
    intro q width hq
    obtain ⟨plan, hplan, rfl⟩ := Supply.exists_of_mem_queriesAll hq
    exact h.sources _ hplan
  case joins =>
    refine List.forall_mem_map.2 fun j hj p hp => ?_
    obtain ⟨p', hp', rfl⟩ := Option.map_eq_some_iff.1 hp
    exact h.joins j hj p' hp'
  case filter =>
    intro p hp
    obtain ⟨p', hp', rfl⟩ := Option.map_eq_some_iff.1 hp
    exact h.filter p' hp'
  case aggregates =>
    exact List.forall_mem_map.2 fun slot hslot => List.forall_mem_map.2 (h.aggregates slot hslot)

/-- **A plan ends with a stack fault only if one of its parts does.** -/
theorem Stages.QuietParts.plan (he : err.OfStack) {s : Stages Plan} (h : s.QuietParts r now err) :
    (Plan.of s).Quiet r now err := by
  intro frames
  rw [Plan.query]
  exact Stages.rows_avoids he h.queries r now frames

mutual

theorem Expr.emit_quiet (he : err.OfStack) {c : Catalog} : ∀ {e : Expr} {keys : Option (List Expr)}
    {parts : Parts} {code : Code}, e.emit c keys parts = .ok code → parts.Quiet r now err →
    Leads 0 code.instrs 1 ∧ code.parts.Quiet r now err
  | ⟨nodes, _, _, _, _, _, _⟩, keys, parts, code, h, hparts => by
    cases Expr.emit_cases h with
    | key => exact ⟨.push rfl rfl, hparts⟩
    | formula hi hitems ht =>
      obtain ⟨hvalues, hparts'⟩ := Node.emitAll_quiet he hitems hparts
      obtain ⟨-, htree⟩ := Formula.tree?_eq_some_iff.1 ht
      exact ⟨Formula.Tree.leads_code (htree ▸ hvalues), hparts'⟩

theorem Node.emit_quiet (he : err.OfStack) {c : Catalog} : ∀ {n : Node} {keys : Option (List Expr)}
    {parts parts' : Parts} {item : Item (List Instr)},
    n.emit c keys parts = .ok (item, parts') → parts.Quiet r now err →
    item.Leads ∧ parts'.Quiet r now err
  | n, keys, parts, parts', item, h, hparts => by
    cases Node.emit_cases h with
    | operator | openParen | closeParen => exact ⟨trivial, hparts⟩
    | key | number | text | boolean | null => exact ⟨Leads.push rfl rfl, hparts⟩
    | column hi => exact ⟨ColumnRef.leads hi, hparts⟩
    | call hi hf => exact Call.emit_quiet he hf hparts
    | select hi hs =>
      have hplan := Select.compile_quiet he hs
      exact ⟨Leads.push rfl rfl,
        List.forall_mem_append.2 ⟨hparts.queries, List.forall_mem_singleton.2 hplan⟩,
        hparts.slots⟩

theorem Node.emitAll_quiet (he : err.OfStack) {c : Catalog} : ∀ {ns : List Node}
    {keys : Option (List Expr)} {parts parts' : Parts} {items : List (Item (List Instr))},
    Node.emitAll c keys parts ns = .ok (items, parts') → parts.Quiet r now err →
    (∀ item ∈ items, item.Leads) ∧ parts'.Quiet r now err
  | [], keys, parts, parts', items, h, hparts => by
    obtain ⟨rfl, rfl⟩ := Prod.mk.inj (Except.ok.inj h)
    exact ⟨nofun, hparts⟩
  | n :: ns, keys, parts, parts', items, h, hparts => by
    obtain ⟨item, mid, rest, hitem, hrest, rfl⟩ := Node.emitAll_cons h
    obtain ⟨hfirst, hmid⟩ := Node.emit_quiet he hitem hparts
    obtain ⟨hmore, hparts'⟩ := Node.emitAll_quiet he hrest hmid
    exact ⟨List.forall_mem_cons.2 ⟨hfirst, hmore⟩, hparts'⟩

theorem Call.emit_quiet (he : err.OfStack) {c : Catalog} : ∀ {f : Call} {keys : Option (List Expr)}
    {parts : Parts} {code : Code}, f.emit c keys parts = .ok code → parts.Quiet r now err →
    Leads 0 code.instrs 1 ∧ code.parts.Quiet r now err
  | ⟨_, arguments, _, _, _, _⟩, keys, parts, code, h, hparts => by
    cases Call.emit_cases h with
    | aggregate hkeys hprograms =>
      have hslot := Expr.programs_quiet he hprograms
      exact ⟨.push rfl rfl, hparts.queries,
        List.forall_mem_append.2 ⟨hparts.slots, List.forall_mem_singleton.2 hslot⟩⟩
    | @scalar _ _ target _ _ code hcode =>
      obtain ⟨harguments, hparts'⟩ := Expr.emitAll_quiet he hcode hparts
      have hcall : Leads arguments.length [.call target arguments.length]
          (arguments.length - arguments.length + 1) := .single (Nat.le_refl _)
      rw [Nat.sub_self] at hcall
      exact ⟨harguments.append hcall, hparts'⟩

theorem Expr.emitAll_quiet (he : err.OfStack) {c : Catalog} : ∀ {es : List Expr}
    {keys : Option (List Expr)} {parts : Parts} {code : Code},
    Expr.emitAll c keys parts es = .ok code → parts.Quiet r now err →
    Leads 0 code.instrs es.length ∧ code.parts.Quiet r now err
  | [], keys, parts, code, h, hparts => by
    obtain rfl := Except.ok.inj h
    exact ⟨.nil 0, hparts⟩
  | e :: es, keys, parts, code, h, hparts => by
    obtain ⟨first, more, hfirst, hmore, rfl⟩ := Expr.emitAll_cons h
    obtain ⟨hcode, hmid⟩ := Expr.emit_quiet he hfirst hparts
    obtain ⟨hrest, hparts'⟩ := Expr.emitAll_quiet he hmore hmid
    have habove := hrest.above 1
    rw [Nat.zero_add] at habove
    exact ⟨hcode.append habove, hparts'⟩

theorem Expr.programs_quiet (he : err.OfStack) {c : Catalog} : ∀ {es : List Expr}
    {programs : List (Program Plan)}, Expr.programs c es = .ok programs →
    ∀ p ∈ programs, (p.withQueries r now).Quiet err
  | [], programs, h => by
    obtain rfl := Except.ok.inj h
    nofun
  | e :: es, programs, h => by
    obtain ⟨code, rest, hcode, hrest, rfl⟩ := Expr.programs_cons h
    obtain ⟨hleads, hparts⟩ := Expr.emit_quiet he hcode (Parts.quiet_of_slots nofun)
    exact List.forall_mem_cons.2 ⟨Code.quiet he hleads hparts, Expr.programs_quiet he hrest⟩

theorem Expr.programOption_quiet (he : err.OfStack) {c : Catalog} : ∀ {e : Option Expr}
    {p : Option (Program Plan)}, Expr.programOption c e = .ok p →
    ∀ q, p = some q → (q.withQueries r now).Quiet err
  | none, p, h => by
    obtain rfl := Except.ok.inj h
    nofun
  | some e, p, h => by
    simp only [Expr.programOption, bind_eq_ok_iff] at h
    obtain ⟨code, hcode, h⟩ := h
    obtain rfl := Except.ok.inj h
    obtain ⟨hleads, hparts⟩ := Expr.emit_quiet he hcode (Parts.quiet_of_slots nofun)
    rintro _ ⟨⟩
    exact Code.quiet he hleads hparts

theorem Expr.outputPrograms_quiet (he : err.OfStack) {c : Catalog} : ∀ {es : List Expr}
    {keys : Option (List Expr)} {slots slots' : List (Slot Plan)} {programs : List (Program Plan)},
    Expr.outputPrograms c keys slots es = .ok (programs, slots') →
    (∀ slot ∈ slots, slot.Quiet r now err) →
    (∀ p ∈ programs, (p.withQueries r now).WritesQuietly err) ∧
      ∀ slot ∈ slots', slot.Quiet r now err
  | [], keys, slots, slots', programs, h, hslots => by
    obtain ⟨rfl, rfl⟩ := Prod.mk.inj (Except.ok.inj h)
    exact ⟨nofun, hslots⟩
  | e :: es, keys, slots, slots', programs, h, hslots => by
    obtain ⟨code, rest, hcode, hrest, rfl⟩ := Expr.outputPrograms_cons h
    -- the short form for a column, or the value followed by the move
    have hout : Leads 0 code.instrs 0 ∧ code.parts.Quiet r now err := by
      cases Expr.outputCode_cases hcode with
      | column _ _ _ hi => exact ⟨ColumnRef.leads_out hi, Parts.quiet_of_slots hslots⟩
      | value hvalue =>
        obtain ⟨hleads, hparts⟩ := Expr.emit_quiet he hvalue (Parts.quiet_of_slots hslots)
        exact ⟨hleads.append (.single (Nat.le_refl 1)), hparts⟩
    obtain ⟨hmore, hslots'⟩ := Expr.outputPrograms_quiet he hrest hout.2.slots
    exact ⟨List.forall_mem_cons.2 ⟨Code.writesQuietly he hout.1 hout.2, hmore⟩, hslots'⟩

theorem OrderKey.sortKeys_quiet (he : err.OfStack) {c : Catalog} : ∀ {ks : List OrderKey}
    {keys : Option (List Expr)} {slots slots' : List (Slot Plan)} {sortKeys : List (SortKey Plan)},
    OrderKey.sortKeys c keys slots ks = .ok (sortKeys, slots') →
    (∀ slot ∈ slots, slot.Quiet r now err) →
    (∀ k ∈ sortKeys, (k.program.withQueries r now).Quiet err) ∧
      ∀ slot ∈ slots', slot.Quiet r now err
  | [], keys, slots, slots', sortKeys, h, hslots => by
    obtain ⟨rfl, rfl⟩ := Prod.mk.inj (Except.ok.inj h)
    exact ⟨nofun, hslots⟩
  | ⟨e, ascending⟩ :: ks, keys, slots, slots', sortKeys, h, hslots => by
    obtain ⟨code, rest, hcode, hrest, rfl⟩ := OrderKey.sortKeys_cons h
    obtain ⟨hleads, hparts⟩ := Expr.emit_quiet he hcode (Parts.quiet_of_slots hslots)
    obtain ⟨hmore, hslots'⟩ := OrderKey.sortKeys_quiet he hrest hparts.slots
    exact ⟨List.forall_mem_cons.2 ⟨Code.quiet he hleads hparts, hmore⟩, hslots'⟩

theorem Source.supply_quiet (he : err.OfStack) {c : Catalog} : ∀ {s : Source}
    {supply : Supply Plan}, s.supply c = .ok supply → supply.Quiet r now err
  | s, supply, h => by
    cases Source.supply_cases h with
    | table => trivial
    | select hs => exact (Select.compile_quiet he hs :)

theorem Source.supplies_quiet (he : err.OfStack) {c : Catalog} : ∀ {s : Option Source}
    {supplies : List (Supply Plan)}, Source.supplies c s = .ok supplies →
    ∀ supply ∈ supplies, supply.Quiet r now err
  | none, supplies, h => by
    obtain rfl := Except.ok.inj h
    nofun
  | some s, supplies, h => by
    simp only [Source.supplies, bind_eq_ok_iff] at h
    obtain ⟨supply, hsupply, h⟩ := h
    obtain rfl := Except.ok.inj h
    exact List.forall_mem_singleton.2 (Source.supply_quiet he hsupply)

theorem Join.supplies_quiet (he : err.OfStack) {c : Catalog} : ∀ {js : List Join}
    {supplies : List (Supply Plan)}, Join.supplies c js = .ok supplies →
    ∀ supply ∈ supplies, supply.Quiet r now err
  | [], supplies, h => by
    obtain rfl := Except.ok.inj h
    nofun
  | ⟨source, kind, condition⟩ :: js, supplies, h => by
    obtain ⟨supply, rest, hsupply, hrest, rfl⟩ := Join.supplies_cons h
    exact List.forall_mem_cons.2 ⟨Source.supply_quiet he hsupply, Join.supplies_quiet he hrest⟩

theorem Join.steps_quiet (he : err.OfStack) {c : Catalog} : ∀ {js : List Join}
    {steps : List (JoinStep Plan)}, Join.steps c js = .ok steps →
    ∀ j ∈ steps, ∀ p, j.condition = some p → (p.withQueries r now).Quiet err
  | [], steps, h => by
    obtain rfl := Except.ok.inj h
    nofun
  | ⟨source, kind, condition⟩ :: js, steps, h => by
    obtain ⟨p, rest, hp, hrest, rfl⟩ := Join.steps_cons h
    exact List.forall_mem_cons.2 ⟨Expr.programOption_quiet he hp, Join.steps_quiet he hrest⟩

/-- **No compiled plan ends with a stack fault.** -/
theorem Select.compile_quiet (he : err.OfStack) {c : Catalog} : ∀ {s : Select} {plan : Plan},
    s.compile c = .ok plan → plan.Quiet r now err
  | ⟨text, distinct, output, origin, joins, filter, groupBy, orderBy, limit, offset⟩, plan, h => by
    obtain ⟨stages, rfl, hstages⟩ := Select.compile_eq_ok h
    obtain ⟨⟨first, more, hfirst, hmore, hsources⟩, hjoins, hfilter, hgroup,
      ⟨slots, houtputs, horder⟩, -, -⟩ := hstages
    obtain ⟨hwrites, hslots⟩ := Expr.outputPrograms_quiet he houtputs nofun
    obtain ⟨hsort, hslots'⟩ := OrderKey.sortKeys_quiet he horder hslots
    have hsupplies : ∀ supply ∈ stages.sources, supply.Quiet r now err := by
      rw [hsources]
      exact List.forall_mem_append.2
        ⟨Source.supplies_quiet he hfirst, Join.supplies_quiet he hmore⟩
    have hquiet : stages.QuietParts r now err :=
      ⟨hsupplies, Join.steps_quiet he hjoins, Expr.programOption_quiet he hfilter, hwrites,
        Expr.programs_quiet he hgroup, hslots', hsort⟩
    exact hquiet.plan he

end

end Compiled

/-! ### Stack depth -/

/-- The query is that of a compiled plan. -/
def Query.Compiled (q : Query) : Prop :=
  ∃ (c r : Catalog) (now : Date.Instant) (s : Select) (plan : Plan),
    s.compile c = .ok plan ∧ q = plan.query r now

/-- `SELECT 'b'` -/
def Select.textExample : Select :=
  ⟨"", false, [.ofNodes [.text "b"] "" 0], none, [], none, [], [], none, 0⟩

/-- The environment without sources, in an empty catalog. -/
def Env.bare : Env :=
  ⟨.named "main", [], [], [], [], 0, 0, ⟨0, 0⟩⟩

namespace Program

variable {p : Program Query} {env : Env} {m : Machine}

theorem not_passesOn (h : ∀ q ∈ p.queries, Query.Compiled q) (k : Nat) : ¬ p.PassesOn env m k := by
  rintro ⟨m', i, e, -, -, hpasses⟩
  cases hpasses with
  | @query j q e hq herror he =>
    obtain ⟨c, r, now, s, plan, hplan, rfl⟩ := h q (List.mem_of_getElem? hq)
    exact Select.compile_quiet he hplan _ herror

/-- **The stack depth of a program is exact.**  Whatever its instructions are, after each of them
the height of the stack is the sum of the effects so far, and no more than the stack depth.  A run
that succeeds comes past every instruction, and somewhere the stack is as high as the depth says.

The evaluation ends with a stack fault just when, before any instruction meets an obstacle, one
lacks operands by the sum of the effects before it, or the end is reached where the sum is not one;
or when a nested query ends with a stack fault, which that of a compiled plan never does.  A call
looks up its function before it counts its operands, so an obstacle there comes first. -/
theorem stackDepth_exact (p : Program Query) (env : Env) (m : Machine) :
    (∀ k m', p.Reaches env m k m' →
      (m'.stack.length : Int) = netEffect (p.code.take k) ∧
        m'.stack.length ≤ stackDepth p.code) ∧
    (∀ m', p.run env m = .ok m' →
      (∀ k ≤ p.code.length, ∃ m₁, p.Reaches env m k m₁) ∧
        ∃ k m₁, p.Reaches env m k m₁ ∧ m₁.stack.length = stackDepth p.code) ∧
    (p.Reports env m ↔ ∃ k, (∀ j ≤ k, ¬ p.Stops env m j) ∧
      (p.Lacks k ∨ p.Unsettled k ∨ p.PassesOn env m k)) ∧
    ((∀ q ∈ p.queries, Query.Compiled q) →
      (p.Reports env m ↔ ∃ k, (∀ j ≤ k, ¬ p.Stops env m j) ∧ (p.Lacks k ∨ p.Unsettled k))) := by
  refine ⟨fun k m' h => ⟨h.height, h.le_stackDepth⟩,
    fun m' h => ⟨fun k hk => (reaches_run.2 h).of_le hk, exists_stackDepth h⟩,
    reports_iff, fun hqueries => ?_⟩
  simp only [reports_iff, not_passesOn hqueries, or_false]

/-- The program of `'a' || (SELECT 'b')` needs room for two values, and takes it.  Where the
operator comes before the sub-select there is only one value for it. -/
theorem stackDepth_exact_concat : ∃ q, Query.Compiled q ∧
    (∃ k m, Reaches ⟨[.text "a", .select 0, .operator .concat], [q]⟩ .bare ⟨[], none⟩ k m ∧
      m.stack.length = 2) ∧
    Reports ⟨[.text "a", .operator .concat, .select 0], [q]⟩ .bare ⟨[], none⟩ := by
  obtain ⟨plan, hplan, hrows⟩ : ∃ plan, Select.textExample.compile (.named "main") = .ok plan ∧
      plan.query (.named "main") ⟨0, 0⟩ [Env.bare.frame] = .ok [⟨beforeFirst, [.text "b"]⟩] :=
    ⟨_, rfl, rfl⟩
  have hcompiled : Query.Compiled (plan.query (.named "main") ⟨0, 0⟩) :=
    ⟨.named "main", .named "main", ⟨0, 0⟩, Select.textExample, plan, hplan, rfl⟩
  refine ⟨_, hcompiled, ?depth, ?fault⟩
  case depth =>
    have hrun : run
        ⟨[.text "a", .select 0, .operator .concat], [plan.query (.named "main") ⟨0, 0⟩]⟩ .bare
        ⟨[], none⟩ = .ok ⟨[.text "ab"], none⟩ := by
      have houter : Env.bare.frame :: Env.bare.outer = [Env.bare.frame] := rfl
      simp only [run, runCode, Instr.step, ok_bind, List.getElem?_cons_zero, houter, hrows]
      rfl
    exact ((stackDepth_exact _ _ _).2.1 _ hrun).2
  case fault =>
    have hexact := stackDepth_exact
      ⟨[.text "a", .operator .concat, .select 0], [plan.query (.named "main") ⟨0, 0⟩]⟩ .bare
      ⟨[], none⟩
    have hsum : netEffect [.text "a"] < 2 := by decide
    refine (hexact.2.2.2 (List.forall_mem_singleton.2 hcompiled)).2
      ⟨1, fun j hj => ?_, .inl ⟨.operator .concat, rfl, hsum⟩⟩
    rintro ⟨m', i, e, hreaches, hi, hobstacle⟩
    rcases Nat.le_one_iff_eq_zero_or_eq_one.1 hj with rfl | rfl
    · obtain rfl := Option.some.inj hi
      cases hobstacle
    · obtain rfl := Option.some.inj hi
      cases hobstacle with
      | operator hstack _ =>
        have hheight : (m'.stack.length : Int) = netEffect [.text "a"] :=
          (hexact.1 1 m' hreaches).1
        rw [hstack, List.length_cons, List.length_cons] at hheight
        omega

end Program

end SqlEngine
