import SqlEngine.Plan.Execution
import SqlEngine.Proofs.Function
import SqlEngine.Proofs.Plan.Combination

/-!
# Plans — rows keep to the types of the columns

A query whose programs are safe in its environments is safe as a whole: it gives rows with one value
of the right type for each column, or an expected error.  `Stages.SafeIn` says what is asked of the
programs; those for the output may rely on the keys and on the aggregates of the group that is being
projected (`Env.HasGroup`).

* `Stages.setting_safe`: the sources are there, with rows of the right types.
* `Stages.rows_safe`: so are the rows of the query.
-/

namespace SqlEngine

open Value (HaveTypes)

variable {c : Catalog} {now : Date.Instant} {outer : List Frame} {here : Setting}
variable {s : Stages Query} {keyTypes types : List DataType}

/-! ### Sources -/

/-- The source has rows of the given types, or its query is safe and gives such rows. -/
def Supply.SafeIn (c : Catalog) (outer : List Frame) : Supply Query → List DataType → Prop
  | .table id _, types => ∃ p, c.provider? id = some p ∧ p.Holds types
  | .query q _,  types =>
    Safe (fun rows : List OutputRow => ∀ row ∈ rows, HaveTypes row.values types) (q outer)

theorem MemoryTable.holds_ofRows (width : Nat) {rows : List Row}
    (h : ∀ row ∈ rows, HaveTypes row types) :
    (Provider.memory (.ofRows width rows)).Holds types := by
  refine Provider.holds_memory fun e he => ?_
  obtain ⟨⟨row, i⟩, hrow, rfl⟩ := List.mem_map.1 he
  exact h row (List.fst_mem_of_mem_zipIdx hrow)

/-- The source as it is when the query is run. -/
def Supply.Holds (c : Catalog) (supply : Supply MemoryTable) (types : List DataType) : Prop :=
  ∃ p, supply.provider c = .ok p ∧ p.Holds types

theorem Supply.materialize_safe {supply : Supply Query} (h : supply.SafeIn c outer types) :
    Safe (Supply.Holds c · types) (supply.materialize outer) := by
  cases supply with
  | table id width =>
    obtain ⟨p, hp, hholds⟩ := h
    exact ⟨p, by simp only [Supply.provider, hp], hholds⟩
  | query q width =>
    refine Safe.bind (P := fun rows : List OutputRow => ∀ row ∈ rows, HaveTypes row.values types) h
      fun rows hrows => ⟨_, rfl, MemoryTable.holds_ofRows width fun row hrow => ?_⟩
    obtain ⟨out, hout, rfl⟩ := List.mem_map.1 hrow
    exact hrows out hout

/-- What the setting of a query has to be. -/
structure Setting.Of (here : Setting) (c : Catalog) (now : Date.Instant) (outer : List Frame)
    (scope : List (List DataType)) : Prop where
  catalog : here.catalog = c
  now : here.now = now
  outer : here.outer = outer
  providers : List.Forall₂ Provider.Holds here.providers scope

theorem Setting.Of.announced {scope : List (List DataType)} (h : here.Of c now outer scope) :
    here.Announced := by
  intro p hp
  obtain ⟨types, -, hholds⟩ := exists_mem_of_forall₂ h.providers.flip hp
  exact hholds.announced

/-- **The sources of a query are there**, with rows of the right types. -/
theorem Stages.setting_safe {scope : List (List DataType)}
    (h : List.Forall₂ (Supply.SafeIn c outer) s.sources scope) :
    Safe (fun here => here.Of c now outer scope) (s.setting c now outer) := by
  have htables := Safe.mapM (f := Supply.materialize outer) h
    fun supply types hsupply => Supply.materialize_safe hsupply
  refine htables.bind fun tables htables => ?_
  have hproviders := Safe.mapM (f := Supply.provider c) (S := Provider.Holds) htables
    fun supply types hholds => by
      obtain ⟨p, hp, hholds⟩ := hholds
      rw [hp]
      exact hholds
  exact hproviders.bind fun providers hproviders => ⟨rfl, rfl, rfl, hproviders⟩

/-! ### Programs of a query -/

/-- The type of the results of a slot. -/
def Slot.type (c : Catalog) {Q : Type} (slot : Slot Q) : DataType :=
  ((c.variant? slot.target).map Variant.result).getD .null

/-- The group that is being projected has keys and aggregates of the given types. -/
structure Env.HasGroup (env : Env) (keyTypes slotTypes : List DataType) : Prop where
  keys : HaveTypes env.keys keyTypes
  results : HaveTypes env.results slotTypes

/-- The slot is an aggregate that takes its arguments, and these are safe. -/
def Slot.SafeIn (here : Setting) (slot : Slot Query) : Prop :=
  ∃ v f, here.catalog.variant? slot.target = some v ∧ v.implementation = .aggregate f ∧
    ∃ types, v.acceptsLoosely types = true ∧
      List.Forall₂ (fun p t => Program.SafeIn here p t) slot.arguments types

/-- What is asked of the programs of a query. -/
structure Stages.SafeIn (here : Setting) (s : Stages Query) (keyTypes types : List DataType) :
    Prop where
  sources : here.providers = [] ∨ here.providers.length = s.joins.length + 1
  joins : ∀ j ∈ s.joins, here.SafeCondition j.condition
  filter : here.SafeCondition s.filter
  groupBy : List.Forall₂ (fun p t => Program.SafeIn here p t) s.groupBy keyTypes
  aggregates : ∀ slot ∈ s.aggregates, slot.SafeIn here
  outputs : ∀ env, here.Reads env →
    (s.aggregated = true → env.HasGroup keyTypes (s.aggregates.map (Slot.type here.catalog))) →
    List.Forall₂ (fun p t => ∀ row, Safe (fun row' => ∃ v : Value, row' = row ++ [v] ∧ v.HasType t)
      (p.write env row)) s.outputs types
  orderBy : ∀ env, here.Reads env →
    (s.aggregated = true → env.HasGroup keyTypes (s.aggregates.map (Slot.type here.catalog))) →
    ∀ k ∈ s.orderBy, Safe (fun _ => True) (k.program.value env)

/-! ### Projection -/

/-- Writing the outputs adds a value of the right type for each. -/
theorem foldlM_write_safe {env : Env} {outputs : List (Program Query)}
    (h : List.Forall₂ (fun p t => ∀ row, Safe
      (fun row' => ∃ v : Value, row' = row ++ [v] ∧ v.HasType t) (p.write env row)) outputs types) :
    ∀ {row : List Value} {before : List DataType}, HaveTypes row before →
    Safe (fun row' => HaveTypes row' (before ++ types))
      (outputs.foldlM (fun row p => p.write env row) row) := by
  induction h with
  | nil =>
    intro row before hrow
    rw [List.append_nil]
    exact hrow
  | @cons p t outputs types hp _ ih =>
    intro row before hrow
    rw [List.foldlM_cons]
    refine (hp row).bind fun row' hrow' => ?_
    obtain ⟨v, rfl, hv⟩ := hrow'
    have hrow' : HaveTypes (row ++ [v]) (before ++ [t]) := List.rel_append hrow (.cons hv .nil)
    simpa only [List.append_assoc, List.singleton_append] using ih hrow'

/-- A projected row has the types of the columns. -/
def Projected.HasTypes (p : Projected) (types : List DataType) : Prop :=
  HaveTypes p.row.values types

theorem Stages.project_safe (hs : s.SafeIn here keyTypes types) {env : Env} (henv : here.Reads env)
    (hgroup : s.aggregated = true →
      env.HasGroup keyTypes (s.aggregates.map (Slot.type here.catalog))) :
    Safe (Projected.HasTypes · types) (s.project env) := by
  refine (foldlM_write_safe (hs.outputs env henv hgroup) .nil).bind fun values hvalues => ?_
  exact (Safe.mapM_mem (hs.orderBy env henv hgroup)).bind fun _ _ => hvalues

theorem Stages.projectRows_safe (hs : s.SafeIn here keyTypes types)
    (hplain : s.aggregated = false) :
    ∀ {cs : List Combination} {number : Nat}, (∀ c ∈ cs, c.Known here.providers) →
    Safe (fun ps : List Projected => ∀ p ∈ ps, p.HasTypes types) (s.projectRows here number cs)
  | [], _, _ => nofun
  | c :: cs, number, h => by
    obtain ⟨hc, hcs⟩ := List.forall_mem_cons.1 h
    obtain ⟨env, henv, hreads⟩ := Setting.exists_envFor hc number
    simp only [projectRows, henv, ok_bind]
    refine (project_safe hs hreads (by simp [hplain])).bind fun p hp => ?_
    exact (projectRows_safe hs hplain hcs).bind fun ps hps => List.forall_mem_cons.2 ⟨hp, hps⟩

/-! ### Groups -/

/-- What holds of the keys and of the rows holds of the groups. -/
theorem insertIntoGroup_forall {α : Type} {P : List Value → Prop} {Q : α → Prop} {key : List Value}
    {a : α} (hkey : P key) (ha : Q a) : ∀ {gs : List (Group α)},
    (∀ g ∈ gs, P g.key ∧ ∀ m ∈ g.members, Q m) →
    ∀ g ∈ insertIntoGroup key a gs, P g.key ∧ ∀ m ∈ g.members, Q m
  | [], _, g, hg => by
    obtain rfl := List.mem_singleton.1 hg
    exact ⟨hkey, fun m hm => List.mem_singleton.1 hm ▸ ha⟩
  | first :: gs, h, g, hg => by
    obtain ⟨⟨hfirst, hmembers⟩, hgs⟩ := List.forall_mem_cons.1 h
    simp only [insertIntoGroup] at hg
    split at hg
    · rcases List.mem_cons.1 hg with rfl | hg
      · refine ⟨hfirst, fun m hm => ?_⟩
        rcases List.mem_append.1 hm with hm | hm
        · exact hmembers m hm
        · exact List.mem_singleton.1 hm ▸ ha
      · exact hgs g hg
    · rcases List.mem_cons.1 hg with rfl | hg
      · exact ⟨hfirst, hmembers⟩
      · exact insertIntoGroup_forall hkey ha hgs g hg

theorem groupRows_forall {α : Type} {P : List Value → Prop} {Q : α → Prop}
    {rows : List (List Value × α)} (h : ∀ r ∈ rows, P r.1 ∧ Q r.2) :
    ∀ g ∈ groupRows rows, P g.key ∧ ∀ m ∈ g.members, Q m := by
  have hfold : ∀ {gs : List (Group α)}, (∀ g ∈ gs, P g.key ∧ ∀ m ∈ g.members, Q m) →
      ∀ g ∈ rows.foldl (fun gs r => insertIntoGroup r.1 r.2 gs) gs,
        P g.key ∧ ∀ m ∈ g.members, Q m := by
    induction rows with
    | nil => exact fun hgs => hgs
    | cons r rows ih =>
      obtain ⟨⟨hkey, hrow⟩, hrest⟩ := List.forall_mem_cons.1 h
      exact fun hgs => ih hrest (insertIntoGroup_forall hkey hrow hgs)
  exact hfold nofun

/-- The group has a key of the right types, and its rows are there. -/
def Group.Known (here : Setting) (keyTypes : List DataType) (g : Group Combination) : Prop :=
  HaveTypes g.key keyTypes ∧ ∀ c ∈ g.members, c.Known here.providers

theorem Stages.collect_safe (hs : s.SafeIn here keyTypes types) {kept : List Combination}
    (h : ∀ c ∈ kept, c.Known here.providers) :
    Safe (fun gs : List (Group Combination) => ∀ g ∈ gs, g.Known here keyTypes)
      (s.collect here kept) := by
  refine (Safe.mapM_mem (Q := fun r : List Value × Combination =>
    HaveTypes r.1 keyTypes ∧ r.2.Known here.providers) fun c hc => ?_).bind fun keyed hkeyed => ?_
  · obtain ⟨env, henv, hreads⟩ := Setting.exists_envAt (h c hc)
    rw [henv, ok_bind]
    exact (Safe.mapM hs.groupBy fun p t hp => hp env hreads).bind fun key hkey => ⟨hkey, h c hc⟩
  -- without GROUP BY there is one group, also when it has no rows
  · intro g hg
    split at hg
    next hempty =>
      obtain rfl := List.mem_singleton.1 hg
      simp only [Bool.and_eq_true, List.isEmpty_iff] at hempty
      have hnil := hs.groupBy
      rw [hempty.2] at hnil
      obtain rfl := List.forall₂_nil_left_iff.1 hnil
      exact ⟨.nil, nofun⟩
    next =>
      exact groupRows_forall (P := (HaveTypes · keyTypes))
        (Q := fun c => Combination.Known here.providers c) hkeyed.2 g hg

/-! ### Aggregates -/

variable {slot : Slot Query}

theorem Slot.exists_function (h : slot.SafeIn here) : ∃ f, slot.function here.catalog = .ok f := by
  obtain ⟨v, f, hv, hf, -⟩ := h
  exact ⟨f, by simp only [Slot.function, hv, Option.map_some, hf]⟩

/-- The function and the arguments of a slot give a value of its type. -/
def Slot.Results (here : Setting) (slot : Slot Query)
    (p : AggregateFunction × List (List Value)) : Prop :=
  ∃ a, (Accumulator.empty p.1).addAll p.2 = .ok a ∧ a.result.HasType (slot.type here.catalog)

theorem Stages.slotRows_safe (hc : here.catalog.functions = Function.builtins)
    (h : slot.SafeIn here) {f : AggregateFunction} (hf : slot.function here.catalog = .ok f)
    (number : Nat) (id : RowId) {members : List Combination}
    (hmembers : ∀ c ∈ members, c.Known here.providers) :
    Safe (fun rows => slot.Results here (f, rows)) (slotRows here number id slot members) := by
  obtain ⟨v, f', hv, hf', types, haccepts, hargs⟩ := h
  obtain rfl : f' = f := by
    simp only [Slot.function, hv, Option.map_some, hf', Except.ok.injEq] at hf
    exact hf
  obtain ⟨hsound, hknown⟩ := Catalog.variant?_sound hc hv
  simp only [Variant.Sound, hf'] at hsound
  have hrow : ∀ c ∈ members, Safe (HaveTypes · types)
      (do
        let env := here.env (← locateAll here.providers c) number id
        slot.arguments.mapM fun p => p.value env) := by
    intro c hc
    obtain ⟨positions, hpositions, hon⟩ := exists_locateAll (hmembers c hc)
    rw [hpositions, ok_bind]
    exact Safe.mapM hargs fun p t hp => hp _ (Setting.reads_env hon number id)
  refine (Safe.mapM_mem hrow).mono fun rows hrows => ?_
  obtain ⟨a, ha, htype⟩ := hsound rows fun args hargs =>
    Variant.haveTypes_arguments hknown haccepts (hrows.2 args hargs)
  refine ⟨a, ha, ?_⟩
  simp only [Slot.type, hv, Option.map_some, Option.getD_some]
  exact htype

/-- Each slot of a group gives a value of its type. -/
theorem Stages.mapM_slotRows_safe (hc : here.catalog.functions = Function.builtins) (number : Nat)
    (id : RowId) {members : List Combination} (hmembers : ∀ c ∈ members, c.Known here.providers)
    {functions : List AggregateFunction} {slots : List (Slot Query)}
    (hfunctions : List.Forall₂ (fun f slot => Slot.function here.catalog slot = .ok f) functions
      slots) (hslots : ∀ slot ∈ slots, slot.SafeIn here) :
    Safe (fun rows => List.Forall₂ (fun p slot => Slot.Results here slot p) (functions.zip rows)
      slots) (slots.mapM fun slot => slotRows here number id slot members) := by
  induction hfunctions with
  | nil => exact .nil
  | @cons f slot functions slots hf _ ih =>
    obtain ⟨hslot, hslots⟩ := List.forall_mem_cons.1 hslots
    rw [List.mapM_cons]
    refine (slotRows_safe hc hslot hf number id hmembers).bind fun first hfirst => ?_
    exact (ih hslots).bind fun rest hrest => .cons hfirst hrest

theorem Stages.projectGroup_safe (hc : here.catalog.functions = Function.builtins)
    (hs : s.SafeIn here keyTypes types) {functions : List AggregateFunction}
    (hfunctions : List.Forall₂ (fun f slot => Slot.function here.catalog slot = .ok f) functions
      s.aggregates)
    (done : List Projected) {g : Group Combination} (hg : g.Known here keyTypes) :
    Safe (Projected.HasTypes · types) (s.projectGroup here functions done g) := by
  obtain ⟨hkey, hmembers⟩ := hg
  refine (mapM_slotRows_safe hc _ _ hmembers hfunctions hs.aggregates).bind fun rows hrows => ?_
  have hresults := Safe.mapM (S := fun v slot => Value.HasType v (Slot.type here.catalog slot))
    (f := fun p : AggregateFunction × List (List Value) => do
      Except.ok (← (Accumulator.empty p.1).addAll p.2).result) hrows
    fun p slot hp => by
      obtain ⟨a, ha, htype⟩ := hp
      rw [ha]
      exact htype
  refine hresults.bind fun results hresults => ?_
  -- the group is projected on its first row, or on no row when it is empty
  have hfirst : Combination.Known here.providers (g.members.head?.getD []) := by
    cases hm : g.members with
    | nil => exact Combination.known_nil _
    | cons first rest => exact hmembers first (by rw [hm]; exact List.mem_cons_self)
  obtain ⟨positions, hpositions, hon⟩ := exists_locateAll hfirst
  rw [hpositions, ok_bind]
  exact project_safe hs ⟨rfl, rfl, rfl, hon⟩ fun _ =>
    ⟨hkey, List.forall₂_map_right_iff.2 hresults⟩

theorem Stages.projectGroups_safe (hc : here.catalog.functions = Function.builtins)
    (hs : s.SafeIn here keyTypes types) {functions : List AggregateFunction}
    (hfunctions : List.Forall₂ (fun f slot => Slot.function here.catalog slot = .ok f) functions
      s.aggregates) :
    ∀ {gs : List (Group Combination)} {done : List Projected},
    (∀ g ∈ gs, g.Known here keyTypes) → (∀ p ∈ done, p.HasTypes types) →
    Safe (fun ps : List Projected => ∀ p ∈ ps, p.HasTypes types)
      (s.projectGroups here functions done gs)
  | [], done, _, hdone => hdone
  | g :: gs, done, hgs, hdone => by
    obtain ⟨hg, hgs⟩ := List.forall_mem_cons.1 hgs
    rw [projectGroups]
    refine (projectGroup_safe hc hs hfunctions done hg).bind fun p hp => ?_
    refine projectGroups_safe hc hs hfunctions hgs fun q hq => ?_
    rcases List.mem_append.1 hq with hq | hq
    · exact hdone q hq
    · exact List.mem_singleton.1 hq ▸ hp

theorem Stages.projectAll_safe (hc : here.catalog.functions = Function.builtins)
    (hs : s.SafeIn here keyTypes types) {kept : List Combination}
    (h : ∀ c ∈ kept, c.Known here.providers) :
    Safe (fun ps : List Projected => ∀ p ∈ ps, p.HasTypes types) (s.projectAll here kept) := by
  rw [projectAll]
  split
  · refine (collect_safe hs h).bind fun gs hgs => ?_
    have hfunctions : Safe (fun fs => List.Forall₂
        (fun f slot => Slot.function here.catalog slot = .ok f) fs s.aggregates)
        (s.aggregates.mapM (Slot.function here.catalog)) := by
      refine Safe.mapM (R := fun slot slot' => slot = slot' ∧ slot.SafeIn here)
        (List.forall₂_same.2 fun slot hslot => ⟨rfl, hs.aggregates slot hslot⟩) ?_
      rintro slot _ ⟨rfl, hslot⟩
      obtain ⟨f, hf⟩ := Slot.exists_function hslot
      rw [hf]
      exact rfl
    exact hfunctions.bind fun fs hfs => projectGroups_safe hc hs hfs hgs nofun
  next hplain => exact projectRows_safe hs (by simpa using hplain) h

/-! ### Queries -/

theorem distinctRows_sublist : ∀ {ps : List Projected} {seen : List (List Value)},
    (distinctRows seen ps).Sublist ps
  | [], _ => .slnil
  | p :: ps, seen => by
    simp only [distinctRows]
    split
    · exact distinctRows_sublist.cons p
    · exact distinctRows_sublist.cons_cons p

/-- DISTINCT, ORDER BY and LIMIT give no new rows. -/
theorem exists_of_mem_arrange {distinct : Bool} {directions : List Bool} {limit : Option Nat}
    {ps : List Projected} {row : OutputRow} (h : row ∈ arrange distinct directions limit ps) :
    ∃ p ∈ ps, p.row = row := by
  have hsorted : row ∈ (sortRows directions
      (if distinct then distinctRows [] ps else ps)).map Projected.row := by
    cases limit with
    | none => exact h
    | some n => exact List.mem_of_mem_take h
  obtain ⟨p, hp, rfl⟩ := List.mem_map.1 hsorted
  refine ⟨p, ?_, rfl⟩
  have hkept : p ∈ if distinct then distinctRows [] ps else ps := by
    simp only [sortRows] at hp
    split at hp
    · exact hp
    · exact List.mem_mergeSort.1 hp
  split at hkept
  · exact distinctRows_sublist.subset hkept
  · exact hkept

theorem mem_of_mem_dropBlank {nothingKept : Bool} {ps : List Projected} {p : Projected}
    (h : p ∈ dropBlank nothingKept ps) : p ∈ ps := by
  simp only [dropBlank] at h
  split at h
  · split at h
    · cases h
    · exact h
  · exact h

/-- **A query is safe when its programs are**: it gives rows of the right types, or an expected
error. -/
theorem Stages.rows_safe (hc : c.functions = Function.builtins) {scope : List (List DataType)}
    (hsources : List.Forall₂ (Supply.SafeIn c outer) s.sources scope)
    (hs : ∀ here : Setting, here.Of c now outer scope → s.SafeIn here keyTypes types) :
    Safe (fun rows : List OutputRow => ∀ row ∈ rows, HaveTypes row.values types)
      (s.rows c now outer) := by
  rw [rows]
  refine (setting_safe hsources).bind fun here hhere => ?_
  have hsafe := hs here hhere
  refine (combine_safe hhere.announced hsafe.sources hsafe.joins).bind fun cs hcs => ?_
  refine (keep_safe hsafe.filter hcs).bind fun kept hkept => ?_
  refine (projectAll_safe (by rw [hhere.catalog]; exact hc) hsafe hkept).bind fun ps hps => ?_
  intro row hrow
  obtain ⟨p, hp, rfl⟩ := exists_of_mem_arrange hrow
  exact hps p (mem_of_mem_dropBlank hp)

end SqlEngine
