import SqlEngine.Proofs.Plan.Meaning
import SqlEngine.Proofs.Plan.Workspace

/-!
# Plans — compiled queries in one workspace

The slots of a compiled SELECT have programs that do not read the group that is being projected, and
its combinations have a row for each source.  So all its passes can share a workspace.

* `Expr.value_inGroup`: without aggregates, a value does not depend on the group.
* `Select.Compiles.slots`: what holds of the slots of all calls holds of those of a SELECT.
* `Select.Compiles.run_eq`: a compiled SELECT in one workspace.
-/

namespace SqlEngine

/-! ### Values without a group -/

/-- The environment with the keys and the results of a group. -/
def Env.inGroup (env : Env) (keys results : List Value) : Env :=
  { env with keys, results }

section Plain

variable (c : Catalog) (env : Env) (keys results : List Value)

mutual

theorem Expr.value_inGroup : ∀ e : Expr, e.value c (env.inGroup keys results) = e.value c env
  | ⟨nodes, _, _, _, _, _, _⟩ => by rw [Expr.value, Expr.value, Node.results_inGroup nodes]

theorem Node.result_inGroup : ∀ n : Node, n.result c (env.inGroup keys results) = n.result c env
  | .call f => congrArg Item.value (Call.value_inGroup f)
  | .operator _ | .openParen | .closeParen | .number _ | .text _ | .boolean _ | .null | .column _
  | .select _ => rfl

theorem Node.results_inGroup : ∀ ns : List Node,
    Node.results c (env.inGroup keys results) ns = Node.results c env ns
  | [] => rfl
  | n :: ns => by
    rw [Node.results, Node.results, Node.result_inGroup n, Node.results_inGroup ns]

theorem Call.value_inGroup : ∀ f : Call, f.value c (env.inGroup keys results) = f.value c env
  | ⟨_, _, none, _, _, _⟩ => rfl
  | ⟨_, arguments, some _, _, _, _⟩ => by
    rw [Call.value, Call.value, Expr.values_inGroup arguments]
    rfl

theorem Expr.values_inGroup : ∀ es : List Expr,
    Expr.values c (env.inGroup keys results) es = Expr.values c env es
  | [] => rfl
  | e :: es => by rw [Expr.values, Expr.values, Expr.value_inGroup e, Expr.values_inGroup es]

end

end Plain

/-! ### Slots -/

section Slots

variable {c : Catalog} {keys : Option (List Expr)} {P : Slot Plan → Prop}

/-- `P` holds of the slots of all calls. -/
def SlotsAre (c : Catalog) (P : Slot Plan → Prop) : Prop :=
  ∀ target arguments programs, Expr.programs c arguments = .ok programs → P ⟨target, programs⟩

mutual

theorem Expr.emit_slots (hP : SlotsAre c P) : ∀ {e : Expr} {parts : Parts} {code : Code},
    e.emit c keys parts = .ok code → (∀ slot ∈ parts.slots, P slot) →
    ∀ slot ∈ code.parts.slots, P slot
  | ⟨nodes, _, _, _, _, _, _⟩, parts, code, h, hparts => by
    cases Expr.emit_cases h with
    | key => exact hparts
    | formula _ hitems _ => exact Node.emitAll_slots hP hitems hparts

theorem Node.emit_slots (hP : SlotsAre c P) : ∀ {n : Node} {parts parts' : Parts}
    {item : Item (List Instr)}, n.emit c keys parts = .ok (item, parts') →
    (∀ slot ∈ parts.slots, P slot) → ∀ slot ∈ parts'.slots, P slot
  | n, parts, parts', item, h, hparts => by
    cases Node.emit_cases h with
    | call _ hf => exact Call.emit_slots hP hf hparts
    | _ => exact hparts

theorem Node.emitAll_slots (hP : SlotsAre c P) : ∀ {ns : List Node} {parts parts' : Parts}
    {items : List (Item (List Instr))}, Node.emitAll c keys parts ns = .ok (items, parts') →
    (∀ slot ∈ parts.slots, P slot) → ∀ slot ∈ parts'.slots, P slot
  | [], parts, parts', items, h, hparts => by
    obtain ⟨-, rfl⟩ := Prod.mk.inj (Except.ok.inj h)
    exact hparts
  | n :: ns, parts, parts', items, h, hparts => by
    obtain ⟨item, mid, rest, hitem, hrest, -⟩ := Node.emitAll_cons h
    exact Node.emitAll_slots hP hrest (Node.emit_slots hP hitem hparts)

theorem Call.emit_slots (hP : SlotsAre c P) : ∀ {f : Call} {parts : Parts} {code : Code},
    f.emit c keys parts = .ok code → (∀ slot ∈ parts.slots, P slot) →
    ∀ slot ∈ code.parts.slots, P slot
  | ⟨_, arguments, _, _, _, _⟩, parts, code, h, hparts => by
    cases Call.emit_cases h with
    | aggregate _ hprograms =>
      exact List.forall_mem_append.2 ⟨hparts, List.forall_mem_singleton.2 (hP _ _ _ hprograms)⟩
    | scalar hargs => exact (Expr.emitAll_slots hP hargs hparts :)

theorem Expr.emitAll_slots (hP : SlotsAre c P) : ∀ {es : List Expr} {parts : Parts} {code : Code},
    Expr.emitAll c keys parts es = .ok code → (∀ slot ∈ parts.slots, P slot) →
    ∀ slot ∈ code.parts.slots, P slot
  | [], parts, code, h, hparts => by
    obtain rfl := Except.ok.inj h
    exact hparts
  | e :: es, parts, code, h, hparts => by
    obtain ⟨first, more, hfirst, hmore, rfl⟩ := Expr.emitAll_cons h
    exact (Expr.emitAll_slots hP hmore (Expr.emit_slots hP hfirst hparts) :)

end

theorem Expr.outputPrograms_slots (hP : SlotsAre c P) : ∀ {es : List Expr}
    {slots slots' : List (Slot Plan)} {programs : List (Program Plan)},
    Expr.outputPrograms c keys slots es = .ok (programs, slots') → (∀ slot ∈ slots, P slot) →
    ∀ slot ∈ slots', P slot
  | [], slots, slots', programs, h, hslots => by
    obtain ⟨-, rfl⟩ := Prod.mk.inj (Except.ok.inj h)
    exact hslots
  | e :: es, slots, slots', programs, h, hslots => by
    obtain ⟨code, rest, hcode, hrest, -⟩ := Expr.outputPrograms_cons h
    refine Expr.outputPrograms_slots hP hrest ?_
    cases Expr.outputCode_cases hcode with
    | column => exact hslots
    | value hvalue => exact (Expr.emit_slots hP hvalue hslots :)

theorem OrderKey.sortKeys_slots (hP : SlotsAre c P) : ∀ {ks : List OrderKey}
    {slots slots' : List (Slot Plan)} {sortKeys : List (SortKey Plan)},
    OrderKey.sortKeys c keys slots ks = .ok (sortKeys, slots') → (∀ slot ∈ slots, P slot) →
    ∀ slot ∈ slots', P slot
  | [], slots, slots', sortKeys, h, hslots => by
    obtain ⟨-, rfl⟩ := Prod.mk.inj (Except.ok.inj h)
    exact hslots
  | ⟨e, ascending⟩ :: ks, slots, slots', sortKeys, h, hslots => by
    obtain ⟨code, rest, hcode, hrest, -⟩ := OrderKey.sortKeys_cons h
    exact OrderKey.sortKeys_slots hP hrest (Expr.emit_slots hP hcode hslots)

theorem Select.Compiles.slots {q : Select} {stages : Stages Plan} (h : q.Compiles c stages)
    (hP : SlotsAre c P) : ∀ slot ∈ stages.aggregates, P slot := by
  obtain ⟨slots, houtputs, horder⟩ := h.projection
  exact OrderKey.sortKeys_slots hP horder
    (Expr.outputPrograms_slots hP houtputs (List.forall_mem_nil _))

end Slots

/-! ### Combinations and rows -/

section Compiled

variable {c : Catalog} {now : Date.Instant} {outer : List Frame} {here : Setting} {q : Select}
  {stages : Stages Plan} {cs : List Combination}

/-- Where there are no group keys, the program of an expression has its value. -/
theorem Expr.value_of_emit {e : Expr} {parts : Parts} {code : Code}
    (h : e.emit c none parts = .ok code) (env : Env) :
    Program.value (code.program.withQueries env.catalog env.now) env = e.value c env :=
  (Expr.emit_yields h List.prefix_rfl).2.evaluates.value

theorem Expr.programs_values : ∀ {es : List Expr} {programs : List (Program Plan)},
    Expr.programs c es = .ok programs →
    List.Forall₂ (fun p e => ∀ env : Env,
      Program.value (p.withQueries env.catalog env.now) env = e.value c env) programs es
  | [], programs, h => by
    obtain rfl := Except.ok.inj h
    exact .nil
  | e :: es, programs, h => by
    obtain ⟨code, rest, hcode, hrest, rfl⟩ := Expr.programs_cons h
    exact .cons (Expr.value_of_emit hcode) (Expr.programs_values hrest)

theorem Expr.mapM_programs {es : List Expr} {programs : List (Program Plan)}
    (h : Expr.programs c es = .ok programs) (env : Env) :
    (programs.map (Program.withQueries env.catalog env.now)).mapM (fun p => p.value env) =
      es.mapM (Expr.value c env) :=
  (mapM_congr_forall₂ (List.forall₂_map_left_iff.2
    ((Expr.programs_values h).imp fun _ _ hvalue => (hvalue env).symm))).symm

theorem Select.Compiles.plain (h : q.Compiles here.catalog stages) :
    ∀ slot ∈ (Stages.queries here.catalog here.now stages).aggregates, slot.Plain here := by
  rw [Stages.queries_eq]
  refine List.forall_mem_map.2 (h.slots fun target arguments programs hprograms => ?_)
  refine List.forall_mem_map.2 fun p hp positions number id keys results => ?_
  obtain ⟨e, -, hvalue⟩ := exists_mem_of_forall₂ (Expr.programs_values hprograms).flip hp
  have hplain := hvalue (here.env positions number id)
  have hgroup := hvalue ((here.env positions number id).inGroup keys results)
  rw [Expr.value_inGroup, ← hplain] at hgroup
  exact hgroup

theorem width_of_joinAll : ∀ {joins : List (JoinStep Query)} {width : Nat}
    {left : List Combination}, joinAll here width left joins = .ok cs →
    width ≤ here.providers.length →
    width + joins.length ≤ here.providers.length
  | [], _, _, _, hwidth => hwidth
  | j :: joins, width, left, h, _ => by
    rw [joinAll] at h
    split at h
    next => cases h
    next p hp =>
      obtain ⟨joined, -, h⟩ := bind_eq_ok_iff.1 h
      have hlt := (List.getElem?_eq_some_iff.1 hp).1
      have hrest := width_of_joinAll h (by omega)
      rw [List.length_cons]
      omega

theorem eq_of_unlessFailed {ε α β : Type} {rs : List (Except ε α)} {b b' : β}
    (h : unlessFailed rs b = .ok b') : b' = b := by
  unfold unlessFailed at h
  split at h
  · exact (Except.ok.inj h).symm
  · cases h

theorem Supply.length_queriesAll : ∀ supplies : List (Supply Plan),
    (Supply.queriesAll c now supplies).length = supplies.length
  | [] => rfl
  | .table _ _ :: supplies => congrArg (· + 1) (length_queriesAll supplies)
  | .query _ _ :: supplies => congrArg (· + 1) (length_queriesAll supplies)

/-- There is one source more than joins at most. -/
theorem Select.Compiles.length_sources (h : q.Compiles c stages) :
    stages.sources.length ≤ stages.joins.length + 1 := by
  have hlength := h.supplies.length_eq
  rw [Join.length_steps h.joins, ← hlength, Select.sources, List.length_append, List.length_map]
  cases q.origin with
  | none => simp
  | some source => simp [Nat.add_comm]

/-- The combinations of a compiled SELECT have a row for each source. -/
theorem Select.Compiles.covers (h : q.Compiles c stages)
    (hhere : (Stages.queries c now stages).setting c now outer = .ok here)
    (hcs : combine here (Stages.queries c now stages).joins = .ok cs) :
    ∀ row ∈ cs, Workspace.Covers here row := by
  have hlength := Stages.length_providers hhere
  have hsources := h.length_sources
  rw [Stages.queries_eq] at hlength hcs
  rw [Supply.length_queriesAll] at hlength
  unfold combine at hcs
  unfold Workspace.Covers
  cases hproviders : here.providers with
  | nil =>
    rw [hproviders] at hcs
    obtain rfl := Except.ok.inj hcs
    exact List.forall_mem_singleton.2 rfl
  | cons p rest =>
    have hcombine := hcs
    simp only [hproviders] at hcombine
    -- joins as many as sources behind the first one: a join needs a source, and there are no more
    have hwidth := width_of_joinAll hcombine (by rw [hproviders]; simp)
    rw [hproviders, List.length_cons] at hlength hwidth
    have hjoins : rest.length = (stages.joins.map fun j =>
        (⟨j.kind, j.condition.map (Program.withQueries c now)⟩ : JoinStep Query)).length := by
      rw [List.length_map] at hwidth ⊢
      omega
    -- each combination of the relation has one row of each source
    rw [joinAll_eq (by rw [hproviders]; rfl) hjoins] at hcombine
    have hrelation : cs = _ := eq_of_unlessFailed hcombine
    have hfirst : ∀ row ∈ p.rowIds.map (fun id => [some id]), row.length = 1 :=
      List.forall_mem_map.2 fun _ _ => rfl
    intro row hrow
    rw [hrelation] at hrow
    rw [length_of_mem_relationFrom hfirst row hrow, List.length_zip, hjoins, Nat.min_self,
      List.length_cons, hjoins, Nat.add_comm]

/-- A query has the catalog, the frames and the instant that it is run with. -/
theorem Stages.fields_of_setting {s : Stages Query} (h : s.setting c now outer = .ok here) :
    here.catalog = c ∧ here.outer = outer ∧ here.now = now := by
  obtain ⟨tables, -, h⟩ := bind_eq_ok_iff.1 h
  obtain ⟨providers, -, h⟩ := bind_eq_ok_iff.1 h
  rw [← Except.ok.inj h]
  exact ⟨rfl, rfl, rfl⟩

/-- **A compiled SELECT can be run in one workspace.** -/
theorem Select.Compiles.run_eq (h : q.Compiles c stages)
    (hhere : (Stages.queries c now stages).setting c now outer = .ok here)
    (hcs : combine here (Stages.queries c now stages).joins = .ok cs)
    (hash : List Digest → UInt64) {start : List Cursor}
    (hstart : start.map Cursor.provider = here.providers) :
    Workspace.run hash here (Stages.queries c now stages) start cs =
      (Stages.queries c now stages).rows c now outer := by
  have hcovers := h.covers hhere hcs
  obtain ⟨rfl, rfl, rfl⟩ := Stages.fields_of_setting hhere
  rw [Workspace.run_eq hash hstart hcovers h.plain]
  simp only [Stages.rows, hhere, hcs, ok_bind]
  rfl

end Compiled

end SqlEngine
