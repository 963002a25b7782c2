import SqlEngine.Proofs.Database.Activations
import SqlEngine.Proofs.Database.Answers
import SqlEngine.Proofs.Plan.Numbering

/-!
# Databases — wildcards read whole rows

A wildcard stands for columns of sources, each bound by its position and not by its name.  So in the
header it has the columns of its sources, and on a combination of rows its outputs have the values
of the rows of these sources, one row after the other, whatever the columns are called
(`Scope.expand_reads`).  That a row of a source has a value for each of its columns is the invariant
of tables, and for a sub-select it is that each of its outputs adds one value to its rows
(`Source.Provides.length_row`).

* `Scope.expandAll_parts`: the output list falls into one part for each output that was written.
* `Select.answer_wildcards`: what wildcards give in the answer to a SELECT.
* `Database.Reachable.wildcards_are_rows`: the same in every reachable database, for the statement
  itself and at any depth.
-/

namespace SqlEngine

variable {c : Catalog} {now : Date.Instant} {outer : List Frame} {scope : Scope} {env : Env}

/-! ### What a wildcard stands for -/

/-- The sources that a wildcard stands for: all in the order of their declaration, or the one that
its qualifier names. -/
inductive Scope.Stars (scope : Scope) (r : ColumnRef) : List Nat → Prop
  | all (hr : r.qualifier = none) : Stars scope r (List.range scope.length)
  | one {i : Nat} {source : ScopeSource} (hr : r.qualifier ≠ none)
      (hoffers : scope.Offers r i source)
      (hunique : ∀ j source', scope.Offers r j source' → j = i) : Stars scope r [i]

/-- The columns of a source. -/
def Scope.columnsAt (scope : Scope) (i : Nat) : Columns :=
  (scope[i]?.map ScopeSource.columns).getD []

/-- The row of a source at the positions: its own, or NULLs on its row of NULLs. -/
def Scope.rowAt (scope : Scope) (positions : List Position) (i : Nat) : Row :=
  match positions[i]? with
  | some (some e) => e.2
  | _             => Row.blank (scope.columnsAt i).length

/-- The columns of an output in the header.  A wildcard has those of its sources, and any other
output is one column. -/
def Expr.Heads (scope : Scope) (e : Expr) (columns : Columns) : Prop :=
  if e.isWildcard then ∃ r sources, e.column? = some r ∧ scope.Stars r sources ∧
    columns = sources.flatMap scope.columnsAt
  else columns.length = 1

/-- The values of an output on a combination.  A wildcard has the rows of its sources, and any other
output is one value. -/
def Expr.Fills (scope : Scope) (positions : List Position) (e : Expr) (row : Row) : Prop :=
  if e.isWildcard then ∃ r sources, e.column? = some r ∧ scope.Stars r sources ∧
    row = sources.flatMap (scope.rowAt positions)
  else row.length = 1

theorem Scope.Stars.lt_length {r : ColumnRef} {sources : List Nat} (h : scope.Stars r sources) :
    ∀ i ∈ sources, ∃ source, scope[i]? = some source := by
  intro i hi
  cases h with
  | all => exact ⟨_, List.getElem?_eq_getElem (List.mem_range.1 hi)⟩
  | one _ hoffers =>
    obtain rfl := List.mem_singleton.1 hi
    exact ⟨_, hoffers.getElem?⟩

theorem Scope.exists_of_mem_named {q : String} {i : Nat} (h : i ∈ scope.named q) :
    ∃ source, scope[i]? = some source := by
  rw [named] at h
  split at h
  next j hj =>
    obtain rfl := List.mem_singleton.1 h
    exact ⟨_, List.getElem?_eq_getElem (List.findIdx?_eq_some_iff_getElem.1 hj).1⟩
  next =>
    obtain ⟨⟨source, j⟩, hmem, rfl⟩ := List.mem_map.1 h
    exact ⟨source, List.mem_zipIdx_iff_getElem?.1 (List.mem_filter.1 hmem).1⟩

theorem Scope.candidates_stars {r : ColumnRef} {sources : List Nat}
    (h : scope.candidates r = .ok sources) (hne : sources ≠ []) : scope.Stars r sources := by
  have hmem {i : Nat} {source : ScopeSource} :
      i ∈ sources ∧ scope[i]? = some source ↔ scope.Offers r i source := Scope.mem_candidates h
  rw [Scope.candidates] at h
  split at h
  next hr =>
    obtain rfl := Except.ok.inj h
    exact .all hr
  next q hr =>
    split at h
    next => cases h
    next hfew =>
      obtain rfl := Except.ok.inj h
      -- at most one source is named, and one there is
      have hlength : (scope.named q).length = 1 := by
        have hpos := List.length_pos_iff.2 hne
        omega
      obtain ⟨i, hnamed⟩ := List.length_eq_one_iff.1 hlength
      obtain ⟨source, hsource⟩ := Scope.exists_of_mem_named (hnamed ▸ List.mem_singleton_self i)
      rw [hnamed] at hmem ⊢
      refine .one (by rw [hr]; exact Option.some_ne_none q)
        (hmem.1 ⟨List.mem_singleton_self i, hsource⟩) fun j source' hj => ?_
      exact List.mem_singleton.1 (hmem.2 hj).1

/-- A wildcard is expanded into the columns of the sources that it stands for. -/
theorem Scope.expand_eq_ok {r : ColumnRef} {columns : List Expr} (h : scope.expand r = .ok columns) :
    ∃ sources, scope.Stars r sources ∧
      columns = sources.flatMap fun i => (scope[i]?.map (columnsOf · i r.offset)).getD [] := by
  simp only [expand, bind_eq_ok_iff] at h
  obtain ⟨sources, hsources, h⟩ := h
  split at h
  next => cases h
  next hne =>
    exact ⟨sources, Scope.candidates_stars hsources hne, (Except.ok.inj h).symm⟩

/-! ### The parts of the output list -/

/-- The outputs in the place of one that was listed: the columns of a wildcard, or one. -/
def Expr.Stands (scope : Scope) (e : Expr) (part : List Expr) : Prop :=
  if e.isWildcard then ∃ r, e.column? = some r ∧ scope.expand r = .ok part else part.length = 1

/-- **The output list falls into parts**, one for each output that was listed. -/
theorem Scope.expandAll_parts : ∀ {listed output : List Expr}, scope.expandAll listed = .ok output →
    ∃ parts, output = parts.flatten ∧ List.Forall₂ (Expr.Stands scope) listed parts
  | [], output, h => ⟨[], (Except.ok.inj h).symm, .nil⟩
  | e :: es, output, h => by
    have hpart : ∃ part, e.Stands scope part ∧
        (do .ok (part ++ (← scope.expandAll es))) = Except.ok output := by
      unfold Expr.Stands
      cases hr : e.column? with
      | none =>
        simp only [expandAll, hr, ok_bind] at h
        exact ⟨[e], by rw [if_neg (by simp [Expr.isWildcard, hr])]; rfl, h⟩
      | some r =>
        by_cases hwildcard : r.isWildcard = true
        · simp only [expandAll, hr, hwildcard, if_true, bind_eq_ok_iff] at h
          obtain ⟨part, hexpand, h⟩ := h
          refine ⟨part, ?_, bind_eq_ok_iff.2 h⟩
          rw [if_pos (by simpa [Expr.isWildcard, hr] using hwildcard)]
          exact ⟨r, rfl, hexpand⟩
        · simp only [expandAll, hr, hwildcard, ok_bind] at h
          exact ⟨[e], by rw [if_neg (by simpa [Expr.isWildcard, hr] using hwildcard)]; rfl, h⟩
    obtain ⟨part, hstands, h⟩ := hpart
    obtain ⟨rest, hrest, h⟩ := bind_eq_ok_iff.1 h
    obtain ⟨parts, rfl, hparts⟩ := expandAll_parts hrest
    exact ⟨part :: parts, (Except.ok.inj h).symm, .cons hstands hparts⟩

theorem forall₂_comp {α β γ : Type} {R : α → β → Prop} {S : β → γ → Prop} {T : α → γ → Prop}
    {as : List α} {bs : List β} (h : List.Forall₂ R as bs)
    (hRST : ∀ a b d, R a b → S b d → T a d) :
    ∀ {ds : List γ}, List.Forall₂ S bs ds → List.Forall₂ T as ds := by
  induction h with
  | nil =>
    intro ds hds
    obtain rfl := List.forall₂_nil_left_iff.1 hds
    exact .nil
  | cons hab _ ih =>
    intro ds hds
    obtain ⟨d, rest, hbd, hrest, rfl⟩ := List.forall₂_cons_left_iff.1 hds
    exact .cons (hRST _ _ _ hab hbd) (ih hrest)

/-- A list that goes element by element with the parts of another one has parts itself. -/
theorem exists_parts {α β : Type} {R : α → β → Prop} : ∀ {parts : List (List α)} {bs : List β},
    List.Forall₂ R parts.flatten bs →
    ∃ parts', bs = parts'.flatten ∧ List.Forall₂ (List.Forall₂ R) parts parts'
  | [], bs, h => ⟨[], List.forall₂_nil_left_iff.1 h, .nil⟩
  | part :: parts, bs, h => by
    rw [List.flatten_cons] at h
    have hfirst := List.forall₂_take_append bs part parts.flatten h.flip
    have hrest := List.forall₂_drop_append bs part parts.flatten h.flip
    obtain ⟨parts', heq, hparts⟩ := exists_parts hrest.flip
    refine ⟨bs.take part.length :: parts', ?_, .cons hfirst.flip hparts⟩
    rw [List.flatten_cons, ← heq, List.take_append_drop]

/-! ### The values of columns -/

/-- The columns of a source have the values of its row. -/
theorem Scope.columnsOf_reads {source : ScopeSource} {i : Nat} {position : Position}
    (hsource : scope[i]? = some source) (hposition : env.positions[i]? = some position)
    (hlength : ∀ e, position = some e → e.2.length = source.columns.length) (offset : Nat) :
    List.Forall₂ (fun e v => e.value c env = .ok v) (columnsOf source i offset)
      (scope.rowAt env.positions i) := by
  have hcolumns : scope.columnsAt i = source.columns := by rw [columnsAt, hsource]; rfl
  have hrow : scope.rowAt env.positions i =
      source.columns.zipIdx.map fun p => position.read p.2 := by
    cases position with
    | none =>
      have hblank : scope.rowAt env.positions i = Row.blank source.columns.length := by
        rw [rowAt, hposition, hcolumns]
      rw [hblank]
      refine List.ext_getElem (by simp [Row.blank]) fun j hj hj' => ?_
      simp [Row.blank, Position.read]
    | some e =>
      have hown : scope.rowAt env.positions i = e.2 := by rw [rowAt, hposition]
      rw [hown]
      refine List.ext_getElem (by simp [hlength e rfl]) fun j hj hj' => ?_
      simp [Position.read, Row.read, hj]
  rw [hrow, columnsOf, List.forall₂_map_left_iff, List.forall₂_map_right_iff, List.forall₂_same]
  rintro ⟨column, j⟩ -
  rw [Expr.value_of_column? (by rfl)]
  simp only [ColumnRef.value, hposition]
  rfl

/-- Every source of the scope has a position, and a row there has a value for each column. -/
def Scope.Fits (scope : Scope) (positions : List Position) : Prop :=
  ∀ (i : Nat) (source : ScopeSource), scope[i]? = some source → ∃ position,
    positions[i]? = some position ∧
      ∀ e, position = some e → e.2.length = source.columns.length

/-- The header of a wildcard has the columns of its sources. -/
theorem Scope.expand_heads {r : ColumnRef} {columns : List Expr}
    (h : scope.expand r = .ok columns) : ∃ sources, scope.Stars r sources ∧
      (columns.map fun e => ⟨e.name, e.type⟩) = sources.flatMap scope.columnsAt := by
  obtain ⟨sources, hstars, rfl⟩ := Scope.expand_eq_ok h
  refine ⟨sources, hstars, ?_⟩
  rw [List.map_flatMap]
  refine List.flatMap_congr fun i hi => ?_
  obtain ⟨source, hsource⟩ := hstars.lt_length i hi
  rw [columnsAt, hsource, Option.map_some, Option.map_some, Option.getD_some, Option.getD_some,
    columnsOf, List.map_map]
  refine List.ext_getElem (by simp) fun j hj hj' => ?_
  simp only [List.getElem_map, List.getElem_zipIdx]
  rfl

/-- **A wildcard reads whole rows**: its outputs have the values of the rows of its sources. -/
theorem Scope.expand_reads {r : ColumnRef} {columns : List Expr}
    (h : scope.expand r = .ok columns) (hfits : scope.Fits env.positions) :
    ∃ sources, scope.Stars r sources ∧ List.Forall₂ (fun e v => e.value c env = .ok v) columns
      (sources.flatMap (scope.rowAt env.positions)) := by
  obtain ⟨sources, hstars, rfl⟩ := Scope.expand_eq_ok h
  refine ⟨sources, hstars, List.rel_flatMap (R := fun i j => i = j ∧ i ∈ sources)
    (List.forall₂_same.2 fun i hi => ⟨rfl, hi⟩) ?_⟩
  rintro i _ ⟨rfl, hi⟩
  obtain ⟨source, hsource⟩ := hstars.lt_length i hi
  obtain ⟨position, hposition, hlength⟩ := hfits i source hsource
  simp only [hsource, Option.map_some, Option.getD_some]
  exact Scope.columnsOf_reads hsource hposition hlength r.offset

/-! ### Rows have a value for each column -/

/-- Every row that is projected comes from an environment. -/
theorem Stages.exists_project {s : Stages Query} {here : Setting} {kept : List Combination}
    {projected : List Projected} (h : s.projectAll here kept = .ok projected) :
    ∀ p ∈ projected, ∃ env, s.project env = .ok p := by
  have hgroups (functions : List AggregateFunction) : ∀ {gs : List (Group Combination)}
      {done projected : List Projected}, (∀ p ∈ done, ∃ env, s.project env = .ok p) →
      s.projectGroups here functions done gs = .ok projected →
      ∀ p ∈ projected, ∃ env, s.project env = .ok p := by
    intro gs
    induction gs with
    | nil =>
      intro done projected hdone h
      exact Except.ok.inj h ▸ hdone
    | cons g gs ih =>
      intro done projected hdone h
      obtain ⟨row, hrow, h⟩ := bind_eq_ok_iff.1 h
      refine ih (fun p hp => ?_) h
      rcases List.mem_append.1 hp with hp | hp
      · exact hdone p hp
      · obtain rfl := List.mem_singleton.1 hp
        simp only [projectGroup, bind_eq_ok_iff] at hrow
        obtain ⟨_, -, _, -, _, -, hrow⟩ := hrow
        exact ⟨_, hrow⟩
  rw [projectAll] at h
  split at h
  · simp only [bind_eq_ok_iff] at h
    obtain ⟨groups, -, functions, -, h⟩ := h
    exact hgroups functions (List.forall_mem_nil _) h
  · intro p hp
    obtain ⟨r, -, env, -, hproject⟩ := exists_mem_of_forall₂ (projectRows_eq_ok h) hp
    exact ⟨env, hproject⟩

theorem Expr.length_outputPrograms {keys : Option (List Expr)} : ∀ {es : List Expr}
    {slots slots' : List (Slot Plan)} {programs : List (Program Plan)},
    Expr.outputPrograms c keys slots es = .ok (programs, slots') → programs.length = es.length
  | [], slots, slots', programs, h => by
    obtain ⟨rfl, -⟩ := Prod.mk.inj (Except.ok.inj h)
    rfl
  | e :: es, slots, slots', programs, h => by
    obtain ⟨code, rest, -, hrest, rfl⟩ := Expr.outputPrograms_cons h
    rw [List.length_cons, length_outputPrograms hrest, List.length_cons]

/-- The rows of a SELECT have a value for each of its outputs. -/
theorem Select.length_values {s : Select} {plan : Plan} {rows : List OutputRow}
    (hplan : s.compile c = .ok plan) (hrows : plan.query c now outer = .ok rows) :
    ∀ row ∈ rows, row.values.length = s.output.length := by
  intro row hrow
  obtain ⟨stages, rfl, hcompiles⟩ := Select.compile_eq_ok hplan
  obtain ⟨here, cs, kept, projected, -, -, -, hprojected, rfl⟩ := Select.rows_eq_ok hplan hrows
  obtain ⟨p, hp, rfl⟩ := exists_of_mem_arrange hrow
  obtain ⟨env, hproject⟩ := Stages.exists_project hprojected p (mem_of_mem_dropBlank hp)
  obtain ⟨slots, houtputs, -⟩ := hcompiles.projection
  have happends : ∀ p ∈ (Stages.queries c now stages).outputs, p.AppendsOne := by
    rw [Stages.queries_eq]
    exact Expr.outputPrograms_appends houtputs c now
  rw [← (Stages.values_of_project happends hproject).length_eq, Stages.queries_eq, List.length_map,
    Expr.length_outputPrograms houtputs]

/-- **A row of a source has a value for each of its columns.** -/
theorem Source.Provides.length_row (hc : c.Sound) {source : Source} {p : Provider}
    (h : source.Provides c now outer p) {id : RowId} {row : Row} (hrow : p.seek id = some row) :
    row.length = (source.scopeSource c).columns.length := by
  cases h with
  | @table name aliasName tableId offset p hp =>
    obtain ⟨t, ht, hprovider⟩ := Option.bind_eq_some_iff.1 hp
    obtain ⟨m, hm, hsound⟩ := (hc.table ht).memory
    obtain rfl := Option.some.inj (hm.symm.trans hprovider)
    rw [(hsound.typed _ (Entries.mem_of_at? hrow)).length_eq, Table.types, List.length_map]
    simp only [scopeSource, Option.bind_some, ht]
  | @select s aliasName offset plan rows hplan hrows =>
    have hmem := Entries.mem_of_at? hrow
    obtain ⟨⟨values, k⟩, hvalues, heq⟩ := List.mem_map.1 hmem
    obtain ⟨-, rfl⟩ := Prod.mk.inj heq
    obtain ⟨output, houtput, rfl⟩ := List.mem_map.1 (List.fst_mem_of_mem_zipIdx hvalues)
    rw [Select.length_values hplan hrows output houtput, scopeSource, List.length_map]

/-- The positions on a combination fit the sources. -/
theorem Source.fits_of_locateAll (hc : c.Sound) {sources : List Source} {providers : List Provider}
    (hprovides : List.Forall₂ (Source.Provides c now outer) sources providers)
    {row : Combination} {positions : List Position}
    (hpositions : locateAll providers row = .ok positions) :
    Scope.Fits (sources.map (Source.scopeSource c)) positions := by
  intro i scopeSource hi
  obtain ⟨source, hsource, rfl⟩ := Option.map_eq_some_iff.1 ((List.getElem?_map ..).symm.trans hi)
  obtain ⟨p, hp, hprovides⟩ := forall₂_getElem? hprovides.flip hsource
  obtain ⟨position, hposition, hon⟩ := forall₂_getElem? (locateAll_on hpositions) hp
  refine ⟨position, hposition, ?_⟩
  rintro ⟨id, row⟩ rfl
  exact hprovides.length_row hc (hon id row rfl)

/-! ### The answer to a SELECT -/

/-- Wildcards are listed as they are, and other outputs are listed as something else. -/
theorem Expr.resolveOutputs_wildcards {scopes : List Scope} : ∀ {es listed : List Expr},
    Expr.resolveOutputs c scopes es = .ok listed →
    List.Forall₂ (fun e e' => if e.isWildcard then e' = e else e'.isWildcard = false) es listed
  | [], listed, h => by
    obtain rfl := Except.ok.inj h
    exact .nil
  | e :: es, listed, h => by
    simp only [Expr.resolveOutputs] at h
    split at h
    next hwildcard =>
      simp only [ok_bind, bind_eq_ok_iff] at h
      obtain ⟨rest, hrest, h⟩ := h
      obtain rfl := Except.ok.inj h
      exact .cons (by rw [if_pos hwildcard]) (resolveOutputs_wildcards hrest)
    next hplain =>
      simp only [bind_eq_ok_iff] at h
      obtain ⟨e', he, rest, hrest, h⟩ := h
      obtain rfl := Except.ok.inj h
      refine .cons ?_ (resolveOutputs_wildcards hrest)
      rw [if_neg hplain]
      exact Expr.isWildcard_of_contains (Expr.resolve_plain he).2

/-- The row of a combination falls into the parts of the header, and in the parts of wildcards it
has the rows of their sources. -/
def Select.Copies (written : Select) (scope : Scope) (providers : List Provider)
    (parts : List Columns) (row : Combination) (p : Projected) : Prop :=
  ∃ positions values, locateAll providers row = .ok positions ∧ p.row.values = values.flatten ∧
    List.Forall₂ (fun part v => v.length = part.length) parts values ∧
    List.Forall₂ (Expr.Fills scope positions) written.output values

/-- The outputs fall into one part for each output that was written. -/
theorem Select.Resolves.parts {scopes : List Scope} {written s : Select} {joined : List Join}
    {conditions listed : List Expr}
    (h : Select.Resolves c scopes written s scope joined conditions listed) :
    ∃ parts, s.output = parts.flatten ∧ List.Forall₂ (Expr.Stands scope) written.output parts := by
  obtain ⟨parts, houtput, hparts⟩ := Scope.expandAll_parts h.output
  refine ⟨parts, houtput, forall₂_comp (Expr.resolveOutputs_wildcards h.outputs) ?_ hparts⟩
  intro e e' part hlisted hstands
  by_cases hwildcard : e.isWildcard = true
  · rw [if_pos hwildcard] at hlisted
    exact hlisted ▸ hstands
  · rw [if_neg hwildcard] at hlisted
    unfold Expr.Stands at hstands ⊢
    rw [hlisted, if_neg Bool.false_ne_true] at hstands
    rwa [if_neg hwildcard]

theorem Expr.Stands.heads {e : Expr} {part : List Expr} (h : e.Stands scope part) :
    e.Heads scope (part.map fun e => ⟨e.name, e.type⟩) := by
  unfold Expr.Stands at h
  unfold Expr.Heads
  by_cases hwildcard : e.isWildcard = true
  · rw [if_pos hwildcard] at h ⊢
    obtain ⟨r, hr, hexpand⟩ := h
    obtain ⟨sources, hstars, hcolumns⟩ := Scope.expand_heads hexpand
    exact ⟨r, sources, hr, hstars, hcolumns⟩
  · rw [if_neg hwildcard] at h ⊢
    rw [List.length_map, h]

theorem Expr.Stands.fills {e : Expr} {part : List Expr} {row : Row} (h : e.Stands scope part)
    (hfits : scope.Fits env.positions)
    (hrow : List.Forall₂ (fun e v => e.value c env = .ok v) part row) :
    e.Fills scope env.positions row := by
  unfold Expr.Stands at h
  unfold Expr.Fills
  by_cases hwildcard : e.isWildcard = true
  · rw [if_pos hwildcard] at h ⊢
    obtain ⟨r, hr, hexpand⟩ := h
    obtain ⟨sources, hstars, hreads⟩ := Scope.expand_reads hexpand hfits
    refine ⟨r, sources, hr, hstars, ?_⟩
    exact Except.ok.inj ((mapM_eq_ok_iff.2 hrow).symm.trans (mapM_eq_ok_iff.2 hreads))
  · rw [if_neg hwildcard] at h ⊢
    rw [← hrow.length_eq, h]

theorem Select.provides_of_setting {s : Select} {stages : Stages Plan} {here : Setting}
    (hplan : s.compile c = .ok (.of stages))
    (hhere : (Stages.queries c now stages).setting c now outer = .ok here) :
    List.Forall₂ (Source.Provides c now outer) s.sources here.providers := by
  obtain ⟨stages', heq, hcompiles⟩ := Select.compile_eq_ok hplan
  obtain rfl := Plan.of.inj heq
  simp only [Stages.setting, Stages.queries_eq, bind_eq_ok_iff] at hhere
  obtain ⟨tables, htables, providers, hproviders, hhere⟩ := hhere
  obtain rfl := Except.ok.inj hhere
  exact Source.provides_of_supplies hcompiles.supplies htables hproviders

/-- **Wildcards in an answer.**  The header of a SELECT without aggregates falls into a part for
each output that was written, and that of a wildcard has the columns of its sources.  The rows that
the sources and WHERE find are shown by rows that fall into the same parts, and that of a wildcard
has the rows of its sources. -/
theorem Select.answer_wildcards (hc : c.Sound) {scopes : List Scope} {written s : Select}
    (hresolve : written.resolve c scopes = .ok s) (hplain : s.isAggregate = false) {out : Output}
    (hout : written.answer c scopes now outer = .ok out) :
    ∃ (stages : Stages Plan) (here : Setting) (cs kept : List Combination)
      (projected : List Projected) (parts : List Columns),
      s.compile c = .ok (.of stages) ∧
      (Stages.queries c now stages).setting c now outer = .ok here ∧
      List.Forall₂ (Source.Provides c now outer) s.sources here.providers ∧
      combine here (Stages.queries c now stages).joins = .ok cs ∧ s.Keeps c here cs kept ∧
      out.columns = parts.flatten ∧
      List.Forall₂ (Expr.Heads (s.sources.map (Source.scopeSource c))) written.output parts ∧
      out.rows = arrange s.distinct (s.orderBy.map OrderKey.ascending) s.limit projected ∧
      List.Forall₂ (written.Copies (s.sources.map (Source.scopeSource c)) here.providers parts)
        kept projected := by
  simp only [answer, hresolve, ok_bind, bind_eq_ok_iff] at hout
  obtain ⟨plan, hplan, rows, hrows, hout⟩ := hout
  obtain rfl := Except.ok.inj hout
  obtain ⟨stages, rfl, hcompiles⟩ := Select.compile_eq_ok hplan
  obtain ⟨scope, joined, conditions, listed, hresolves⟩ := Select.resolve_eq_ok hresolve
  obtain ⟨parts, houtput, hparts⟩ := hresolves.parts
  obtain ⟨here, cs, kept, projected, hhere, hcs, hkeeps, hshows, harrange⟩ :=
    Select.rows_plain hplan hplain hrows
  have hprovides := Select.provides_of_setting hplan hhere
  refine ⟨stages, here, cs, kept, projected, parts.map (·.map fun e => ⟨e.name, e.type⟩), hplan,
    hhere, hprovides, hcs, hkeeps, ?_, ?_, harrange, ?_⟩
  · rw [← List.map_flatten, ← houtput]
    exact hcompiles.columns
  · rw [hresolves.scope_eq, List.forall₂_map_right_iff]
    exact hparts.imp fun e part h => h.heads
  · have hkept : kept = (kept.zipIdx 1).map Prod.fst := (List.zipIdx_map_fst 1 kept).symm
    rw [hkept, List.forall₂_map_left_iff]
    refine hshows.imp ?_
    rintro ⟨row, number⟩ p ⟨positions, hpositions, -, hvalues, -⟩
    have hfits := Source.fits_of_locateAll hc hprovides hpositions
    rw [hresolves.scope_eq] at hfits ⊢
    rw [houtput, mapM_eq_ok_iff] at hvalues
    obtain ⟨values, hflatten, hvalues⟩ := exists_parts hvalues
    refine ⟨positions, values, hpositions, hflatten, ?_, ?_⟩
    · rw [List.forall₂_map_left_iff]
      exact hvalues.imp fun part v h => by rw [List.length_map, h.length_eq]
    · refine forall₂_comp hparts (fun e part v hstands h => ?_) hvalues
      exact Expr.Stands.fills hstands
        (show scope.Fits (here.env positions number row.primary).positions from hfits) h

namespace Database

variable {db : Database} {written s : Select} {scopes : List Scope} {out : Output}

/-- **Wildcards are rows of their sources.**  In a reachable database, for a SELECT without
aggregates that is answered for the rows `outer` around it: there is a part of the header for each
output that was written, a wildcard having the columns of all sources in the order of their
declaration or those of the source that it names.  The rows that the sources and WHERE find are each
shown by a row with the same parts, in which a wildcard has the rows of these sources, with NULLs
for a source on its row of NULLs.  The answer is made of these rows by DISTINCT, ORDER BY and LIMIT.
The text of a SELECT gives its answer with nothing around it. -/
theorem Reachable.wildcards_are_rows (h : Reachable db)
    (hresolve : written.resolve db.catalog scopes = .ok s) (hplain : s.isAggregate = false)
    (hout : written.answer db.catalog scopes now outer = .ok out) :
    (∃ (stages : Stages Plan) (here : Setting) (cs kept : List Combination)
      (projected : List Projected) (parts : List Columns),
      s.compile db.catalog = .ok (.of stages) ∧
      (Stages.queries db.catalog now stages).setting db.catalog now outer = .ok here ∧
      List.Forall₂ (Source.Provides db.catalog now outer) s.sources here.providers ∧
      combine here (Stages.queries db.catalog now stages).joins = .ok cs ∧
      s.Keeps db.catalog here cs kept ∧
      out.columns = parts.flatten ∧
      List.Forall₂ (Expr.Heads (s.sources.map (Source.scopeSource db.catalog))) written.output
        parts ∧
      out.rows = arrange s.distinct (s.orderBy.map OrderKey.ascending) s.limit projected ∧
      List.Forall₂ (written.Copies (s.sources.map (Source.scopeSource db.catalog)) here.providers
        parts) kept projected) ∧
    ∀ text : String, Statement.parse db.config.parser text = .ok (.select written) →
      db.execute now text = (written.answer db.catalog [] now [], db) :=
  ⟨Select.answer_wildcards h.sound hresolve hplain hout,
    fun _ hparse => execute_select hparse now⟩

/-- Both wildcards have the columns of `x`, and both columns of the sub-select have the name of one
of them. -/
def twiceJoined : String :=
  "SELECT x.*, a, * FROM t AS x LEFT JOIN (SELECT b, b FROM t) AS y ON FALSE"

/-- The row of the table is there twice, and the sub-select is on its row of NULLs. -/
theorem twiceJoined_rows :
    ∃ (written s : Select) (out : Output) (parts : List Columns) (here : Setting)
      (kept : List Combination) (projected : List Projected),
      Statement.parse greetings.config.parser twiceJoined = .ok (.select written) ∧
      written.resolve greetings.catalog [] = .ok s ∧ s.isAggregate = false ∧
      written.answer greetings.catalog [] ⟨0, 0⟩ [] = .ok out ∧
      out.columns = parts.flatten ∧
      List.Forall₂ (Expr.Heads (s.sources.map (Source.scopeSource greetings.catalog)))
        written.output parts ∧
      List.Forall₂ (written.Copies (s.sources.map (Source.scopeSource greetings.catalog))
        here.providers parts) kept projected ∧
      out.columns.map Column.name = ["a", "b", "a", "a", "b", "b", "b"] ∧
      out.rows.map OutputRow.values = [[.text "hello", .boolean true, .text "hello",
        .text "hello", .boolean true, .null, .null]] := by
  have hselect : greetings.isSelect twiceJoined (fun s => !s.isAggregate) = true := by
    cbv
  have hout : (greetings.execute ⟨0, 0⟩ twiceJoined).1 = .ok
      ⟨[⟨"a", .text⟩, ⟨"b", .boolean⟩, ⟨"a", .text⟩, ⟨"a", .text⟩, ⟨"b", .boolean⟩,
        ⟨"b", .boolean⟩, ⟨"b", .boolean⟩],
        [⟨0, [.text "hello", .boolean true, .text "hello", .text "hello", .boolean true, .null,
          .null]⟩], 0⟩ := by
    cbv
  obtain ⟨s, hprepare, hplain⟩ := exists_of_isSelect hselect
  obtain ⟨read, hparse, hread⟩ := bind_eq_ok_iff.1 hprepare
  obtain ⟨written, rfl, hresolve⟩ : ∃ written : Select, read = .select written ∧
      written.resolve greetings.catalog [] = .ok s := by
    cases read with
    | select written =>
      obtain ⟨s', hs', heq⟩ := bind_eq_ok_iff.1 hread
      exact ⟨written, rfl, Statement.select.inj (Except.ok.inj heq) ▸ hs'⟩
    | insert | update | delete | create =>
      obtain ⟨_, -, heq⟩ := bind_eq_ok_iff.1 hread
      cases heq
  rw [execute_select hparse] at hout
  have hplain : s.isAggregate = false := by simpa using hplain
  obtain ⟨⟨stages, here, cs, kept, projected, parts, -, -, -, -, -, hcolumns, hheads, -, hcopies⟩,
    -⟩ := reachable_greetings.wildcards_are_rows hresolve hplain hout
  exact ⟨written, s, _, parts, here, kept, projected, hparse, hresolve, hplain, hout, hcolumns,
    hheads, hcopies, rfl, rfl⟩

end Database

end SqlEngine
