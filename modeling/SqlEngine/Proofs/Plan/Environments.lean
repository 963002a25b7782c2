import SqlEngine.Plan.Execution
import SqlEngine.Proofs.Plan.Combination

/-!
# Plans — the environments that programs are run in

A query runs the programs of each clause in the environments of its setting for this clause only
(`Setting.Runs`), and its nested queries in FROM for the frames around it only; a program runs its
nested queries with the frame of its environment before those.  This is said by comparing two runs:
queries whose programs and sources do the same there give the same rows, also when the frames around
the second one are others.

* `Program.alike`: programs of the same code, with nested queries that do the same.
* `Stages.rows_congr`: queries of programs and sources that do the same.
* `Program.mapQueries_eq`, `Stages.rows_map`: nested queries, programs and sources replaced.
-/

namespace SqlEngine

variable {here : Setting} {frames : List Frame} {cs : List Combination}

/-! ### Positions and environments -/

theorem locateAll_on : ∀ {ps : List Provider} {ids : Combination} {positions : List Position},
    locateAll ps ids = .ok positions → List.Forall₂ Position.On positions ps
  | [], ids, positions, h => by
    obtain rfl := Except.ok.inj h
    exact .nil
  | p :: ps, [], positions, h => by
    simp only [locateAll, bind_eq_ok_iff] at h
    obtain ⟨rest, hrest, h⟩ := h
    obtain rfl := Except.ok.inj h
    exact .cons (Position.on_none p) (locateAll_on hrest)
  | p :: ps, id :: ids, positions, h => by
    simp only [locateAll, bind_eq_ok_iff] at h
    obtain ⟨position, hposition, rest, hrest, h⟩ := h
    obtain rfl := Except.ok.inj h
    refine .cons ?_ (locateAll_on hrest)
    cases id with
    | none =>
      obtain rfl := Except.ok.inj hposition
      exact Position.on_none p
    | some id =>
      simp only [Provider.locate] at hposition
      split at hposition
      next row hrow =>
        obtain rfl := Except.ok.inj hposition
        rintro _ _ ⟨⟩
        exact hrow
      next => cases hposition

/-- The environment with other frames around it. -/
def Env.under (env : Env) (frames : List Frame) : Env :=
  { env with outer := frames }

namespace Setting

/-- The setting with other frames around it. -/
def under (here : Setting) (frames : List Frame) : Setting :=
  { here with outer := frames }

@[simp] theorem providers_under (here : Setting) (frames : List Frame) :
    (here.under frames).providers = here.providers := rfl

theorem envAt_under (c : Combination) :
    (here.under frames).envAt c = (here.envAt c).map (Env.under · frames) := by
  simp only [envAt, under]
  cases locateAll here.providers c <;> rfl

theorem envFor_under (c : Combination) (number : Nat) :
    (here.under frames).envFor c number = (here.envFor c number).map (Env.under · frames) := by
  simp only [envFor, under]
  cases locateAll here.providers c <;> rfl

theorem reads_of_envAt {c : Combination} {env : Env} (h : here.envAt c = .ok env) :
    here.Reads env := by
  simp only [envAt, bind_eq_ok_iff] at h
  obtain ⟨positions, hpositions, h⟩ := h
  obtain rfl := Except.ok.inj h
  exact reads_env (locateAll_on hpositions) _ _

theorem reads_of_envFor {c : Combination} {number : Nat} {env : Env}
    (h : here.envFor c number = .ok env) : here.Reads env := by
  simp only [envFor, bind_eq_ok_iff] at h
  obtain ⟨positions, hpositions, h⟩ := h
  obtain rfl := Except.ok.inj h
  exact reads_env (locateAll_on hpositions) _ _

end Setting

/-! ### Clauses -/

/-- The clauses with programs of their own: the conditions of joins, WHERE, GROUP BY, the arguments
of aggregates, what is projected, that is outputs and sort keys, and the new values of an UPDATE. -/
inductive Clause
  | on | filter | groupBy | argument | output | assignment

/-- The id of the output row before that of the group at a position: the row that stands for the
group before it, if there is one. -/
inductive Setting.LastId (here : Setting) (groups : List (Group Combination)) : Nat → RowId → Prop
  | first : LastId here groups 0 beforeFirst
  | next {k : Nat} {g : Group Combination} {positions : List Position} (hg : groups[k]? = some g)
      (hpositions : locateAll here.providers (g.members.head?.getD []) = .ok positions) :
      LastId here groups (k + 1) (primaryId positions)

/-- The environments that the programs of a clause are run in. -/
inductive Setting.Runs (here : Setting) : Clause → Env → Prop
  | on {c : Combination} {env : Env} (h : here.envAt c = .ok env) : Runs here .on env
  | filter {c : Combination} {number : Nat} {env : Env} (h : here.envFor c number = .ok env) :
      Runs here .filter env
  | groupBy {c : Combination} {env : Env} (h : here.envAt c = .ok env) : Runs here .groupBy env
  | argument {groups : List (Group Combination)} {k : Nat} {g : Group Combination} {id : RowId}
      {c : Combination} {positions : List Position} (hg : groups[k]? = some g)
      (hid : here.LastId groups k id) (hc : c ∈ g.members)
      (hpositions : locateAll here.providers c = .ok positions) :
      Runs here .argument (here.env positions k id)
  | row {c : Combination} {number : Nat} {env : Env} (h : here.envFor c number = .ok env) :
      Runs here .output env
  | group {c : Combination} {number : Nat} {env : Env} (h : here.envFor c number = .ok env)
      (keys results : List Value) : Runs here .output { env with keys, results }
  | assignment {c : Combination} {env : Env} (h : here.envAt c = .ok env) :
      Runs here .assignment env

theorem Setting.Runs.reads {clause : Clause} {env : Env} (h : here.Runs clause env) :
    here.Reads env := by
  cases h with
  | on h | groupBy h | assignment h => exact reads_of_envAt h
  | filter h | row h => exact reads_of_envFor h
  | argument _ _ _ hpositions => exact reads_env (locateAll_on hpositions) _ _
  | group h =>
    obtain ⟨hcatalog, houter, hnow, hpositions⟩ := reads_of_envFor h
    exact ⟨hcatalog, houter, hnow, hpositions⟩

/-! ### Programs that do the same -/

/-- In the environments the second program does what the first one does, with other frames around
it. -/
structure Program.Alike (E : Env → Prop) (frames : List Frame) (p q : Program Query) : Prop where
  value : ∀ env, E env → q.value (env.under frames) = p.value env
  write : ∀ env, E env → ∀ row, q.write (env.under frames) row = p.write env row

/-- The nested queries give the same, each for the frames that it is run for. -/
def Query.SameAll (env : Env) (frames : List Frame) : List Query → List Query → Prop :=
  List.Forall₂ fun q q' => q' (env.frame :: frames) = q (env.frame :: env.outer)

/-- The columns that the code reads around the environment have the same values in the frames. -/
def Env.SameColumns (env : Env) (frames : List Frame) (code : List Instr) : Prop :=
  ∀ l i j, .outer l i j ∈ code →
    frames[l - 1]?.map (Frame.read · i j) = env.outer[l - 1]?.map (Frame.read · i j)

section Nested

variable {env : Env} {queries queries' : List Query}

theorem Instr.step_under {i : Instr} {code : List Instr} (hi : i ∈ code)
    (hcolumns : env.SameColumns frames code) (hqueries : Query.SameAll env frames queries queries')
    (m : Machine) : i.step (env.under frames) queries' m = i.step env queries m := by
  cases i with
  | outer l i j => simp only [step, Env.frame?, Env.under, hcolumns l i j hi]
  | select index =>
    have hrel := rel_getElem? hqueries index
    simp only [step]
    generalize queries[index]? = q, queries'[index]? = q' at hrel ⊢
    cases hrel with
    | none => rfl
    | some h => exact congrArg (fun r => m.pushResult (r >>= nestedValue)) h
  | _ => rfl

theorem runCode_under (hqueries : Query.SameAll env frames queries queries') :
    ∀ {code : List Instr} {m : Machine}, env.SameColumns frames code →
    runCode (env.under frames) queries' m code = runCode env queries m code
  | [], _, _ => rfl
  | i :: code, m, hcolumns => by
    simp only [runCode, Instr.step_under List.mem_cons_self hcolumns hqueries]
    refine bind_congr_ok fun m' _ => runCode_under hqueries fun l i j h => ?_
    exact hcolumns l i j (List.mem_cons_of_mem _ h)

/-- **A program depends on the columns that it reads and on its nested queries**, which are run for
the frame of the environment and those around it. -/
theorem Program.alike {E : Env → Prop} {p q : Program Query} (hcode : q.code = p.code)
    (h : ∀ env, E env → env.SameColumns frames p.code ∧
      Query.SameAll env frames p.queries q.queries) : p.Alike E frames q := by
  have hrun : ∀ env, E env → q.run (env.under frames) = p.run env := by
    intro env henv
    obtain ⟨hcolumns, hqueries⟩ := h env henv
    funext m
    rw [run, run, hcode]
    exact runCode_under hqueries hcolumns
  refine ⟨fun env henv => ?_, fun env henv row => ?_⟩
  · simp only [value, evaluate, hrun env henv]
  · simp only [write, execute, hrun env henv]

end Nested

/-! ### Combinations -/

theorem Setting.holds_congr {p q : Option (Program Query)}
    (h : Option.Rel (Program.Alike (here.Runs .on) frames) p q) :
    (here.under frames).holds q = here.holds p := by
  funext c
  cases h with
  | none => rfl
  | some h =>
    simp only [holds, envAt_under]
    exact bind_map_congr fun env henv => by rw [h.value env (.on henv)]

/-- The join with its condition replaced by one that does the same. -/
structure JoinStep.Alike (here : Setting) (frames : List Frame) (j k : JoinStep Query) : Prop where
  kind : k.kind = j.kind
  condition : Option.Rel (Program.Alike (here.Runs .on) frames) j.condition k.condition

theorem joinAll_congr {joins joins' : List (JoinStep Query)}
    (h : List.Forall₂ (JoinStep.Alike here frames) joins joins') :
    ∀ {width : Nat} {left : List Combination},
    joinAll (here.under frames) width left joins' = joinAll here width left joins := by
  induction h with
  | nil => exact rfl
  | @cons j k joins joins' hj _ ih =>
    intro width left
    simp only [joinAll, hj.kind, Setting.holds_congr hj.condition, Setting.providers_under]
    split
    · rfl
    · exact bind_congr_ok fun joined _ => ih

theorem combine_congr {joins joins' : List (JoinStep Query)}
    (h : List.Forall₂ (JoinStep.Alike here frames) joins joins') :
    combine (here.under frames) joins' = combine here joins := by
  simp only [combine, Setting.providers_under, joinAll_congr h]

theorem filterRows_congr {p q : Program Query} (h : p.Alike (here.Runs .filter) frames q) :
    ∀ {cs : List Combination} {number : Nat},
    filterRows (here.under frames) q number cs = filterRows here p number cs
  | [], _ => rfl
  | c :: cs, number => by
    simp only [filterRows, filterRows_congr h, Setting.envFor_under]
    exact bind_map_congr fun env henv => by rw [h.value env (.filter henv)]

theorem keep_congr {p q : Option (Program Query)}
    (h : Option.Rel (Program.Alike (here.Runs .filter) frames) p q) :
    keep (here.under frames) q cs = keep here p cs := by
  cases h with
  | none => rfl
  | some h => exact filterRows_congr h

/-! ### Projection -/

theorem mapM_value_congr {E : Env → Prop} {env : Env} (henv : E env) {ps qs : List (Program Query)}
    (h : List.Forall₂ (Program.Alike E frames) ps qs) :
    (qs.mapM fun q => q.value (env.under frames)) = ps.mapM fun p => p.value env :=
  mapM_congr_forall₂ (h.imp fun _ _ hp => hp.value env henv)

/-- The slot with its arguments replaced by ones that do the same. -/
structure Slot.Alike (here : Setting) (frames : List Frame) (slot slot' : Slot Query) : Prop where
  target : slot'.target = slot.target
  arguments : List.Forall₂ (Program.Alike (here.Runs .argument) frames) slot.arguments
    slot'.arguments

/-- The sort key with its program replaced by one that does the same. -/
structure SortKey.Alike (here : Setting) (frames : List Frame) (k k' : SortKey Query) : Prop where
  ascending : k'.ascending = k.ascending
  program : k.program.Alike (here.Runs .output) frames k'.program

/-- The stages with all programs replaced by ones that do the same. -/
structure Stages.Alike (here : Setting) (frames : List Frame) (s t : Stages Query) : Prop where
  joins : List.Forall₂ (JoinStep.Alike here frames) s.joins t.joins
  filter : Option.Rel (Program.Alike (here.Runs .filter) frames) s.filter t.filter
  outputs : List.Forall₂ (Program.Alike (here.Runs .output) frames) s.outputs t.outputs
  groupBy : List.Forall₂ (Program.Alike (here.Runs .groupBy) frames) s.groupBy t.groupBy
  aggregates : List.Forall₂ (Slot.Alike here frames) s.aggregates t.aggregates
  orderBy : List.Forall₂ (SortKey.Alike here frames) s.orderBy t.orderBy
  distinct : t.distinct = s.distinct
  limit : t.limit = s.limit
  aggregated : t.aggregated = s.aggregated

namespace Stages

variable {s t : Stages Query}

theorem project_congr (h : s.Alike here frames t) {env : Env} (henv : here.Runs .output env) :
    t.project (env.under frames) = s.project env := by
  have hvalues : t.outputs.foldlM (fun row p => p.write (env.under frames) row) [] =
      s.outputs.foldlM (fun row p => p.write env row) [] :=
    foldlM_congr_forall₂ (h.outputs.imp fun p q hp row => hp.write env henv row)
  have hkeys : (t.orderBy.mapM fun k => k.program.value (env.under frames)) =
      s.orderBy.mapM fun k => k.program.value env :=
    mapM_congr_forall₂ (h.orderBy.imp fun k k' hk => hk.program.value env henv)
  rw [project, project, hvalues, hkeys]
  rfl

theorem projectRows_congr (h : s.Alike here frames t) : ∀ {cs : List Combination} {number : Nat},
    t.projectRows (here.under frames) number cs = s.projectRows here number cs
  | [], _ => rfl
  | c :: cs, number => by
    simp only [projectRows, projectRows_congr h, Setting.envFor_under]
    exact bind_map_congr fun env henv => by rw [project_congr h (.row henv)]

theorem collect_congr (h : s.Alike here frames t) :
    t.collect (here.under frames) cs = s.collect here cs := by
  have hkeyed : ∀ c : Combination, (do
        let env ← (here.under frames).envAt c
        let key ← t.groupBy.mapM fun p => Program.value p env
        Except.ok (key, c)) = (do
        let env ← here.envAt c
        let key ← s.groupBy.mapM fun p => Program.value p env
        Except.ok (key, c)) := by
    intro c
    rw [Setting.envAt_under]
    exact bind_map_congr fun env henv => by
      rw [mapM_value_congr (E := here.Runs .groupBy) (.groupBy henv) h.groupBy]
  have hempty : t.groupBy.isEmpty = s.groupBy.isEmpty := by
    have hlen := h.groupBy.length_eq
    rw [Bool.eq_iff_iff, List.isEmpty_iff_length_eq_zero, List.isEmpty_iff_length_eq_zero, hlen]
  simp only [collect, hkeyed, hempty]

theorem slotRows_congr {groups : List (Group Combination)} {g : Group Combination} {k : Nat}
    {id : RowId} (hg : groups[k]? = some g) (hid : here.LastId groups k id)
    {slot slot' : Slot Query} (h : slot.Alike here frames slot') :
    slotRows (here.under frames) k id slot' g.members = slotRows here k id slot g.members := by
  refine mapM_congr_forall₂ (List.forall₂_same.2 fun c hc => bind_congr_ok fun positions h' => ?_)
  exact mapM_value_congr (E := here.Runs .argument) (.argument hg hid hc h') h.arguments

/-- The id of the last output row. -/
def lastId (done : List Projected) : RowId :=
  (done.getLast?.map fun p => p.row.id).getD beforeFirst

theorem projectGroup_congr (h : s.Alike here frames t) {functions : List AggregateFunction}
    {groups : List (Group Combination)} {done : List Projected} {g : Group Combination}
    (hg : groups[done.length]? = some g) (hid : here.LastId groups done.length (lastId done)) :
    t.projectGroup (here.under frames) functions done g = s.projectGroup here functions done g := by
  have hslots : (t.aggregates.mapM fun slot =>
        slotRows (here.under frames) done.length (lastId done) slot g.members) =
      s.aggregates.mapM fun slot => slotRows here done.length (lastId done) slot g.members :=
    mapM_congr_forall₂ (h.aggregates.imp fun slot slot' hslot => slotRows_congr hg hid hslot)
  simp only [lastId] at hslots
  simp only [projectGroup, hslots]
  refine bind_congr_ok fun rows _ => bind_congr_ok fun results _ => bind_congr_ok fun ps hps => ?_
  have henv : here.envFor (g.members.head?.getD []) (done.length + 1) =
      .ok (here.env ps (done.length + 1) (primaryId ps)) := by
    rw [Setting.providers_under] at hps
    simp only [Setting.envFor, hps, ok_bind]
  exact project_congr h (.group henv g.key results)

/-- The id of an output row is that of the environment that it was projected in. -/
theorem id_of_project {env : Env} {p : Projected} (h : s.project env = .ok p) :
    p.row.id = env.rowId := by
  simp only [project, bind_eq_ok_iff] at h
  obtain ⟨values, -, keys, -, h⟩ := h
  rw [← Except.ok.inj h]

/-- The row of a group has the id of the row that stands for the group. -/
theorem lastId_of_projectGroup {functions : List AggregateFunction}
    {groups : List (Group Combination)} {done : List Projected} {g : Group Combination}
    {row : Projected} (hg : groups[done.length]? = some g)
    (h : s.projectGroup here functions done g = .ok row) :
    here.LastId groups (done ++ [row]).length (lastId (done ++ [row])) := by
  simp only [projectGroup, bind_eq_ok_iff] at h
  obtain ⟨rows, -, results, -, positions, hpositions, h⟩ := h
  have hid : lastId (done ++ [row]) = primaryId positions := by
    simp only [lastId, List.getLast?_concat, Option.map_some, Option.getD_some, id_of_project h]
    rfl
  rw [hid, List.length_append, List.length_singleton]
  exact .next hg hpositions

theorem projectGroups_congr (h : s.Alike here frames t) {functions : List AggregateFunction}
    {groups : List (Group Combination)} :
    ∀ {rest : List (Group Combination)} {done : List Projected},
    here.LastId groups done.length (lastId done) → groups.drop done.length = rest →
    t.projectGroups (here.under frames) functions done rest =
      s.projectGroups here functions done rest
  | [], _, _, _ => rfl
  | g :: rest, done, hid, hrest => by
    have hg : groups[done.length]? = some g := by
      rw [← List.head?_drop, hrest, List.head?_cons]
    simp only [projectGroups, projectGroup_congr h hg hid]
    refine bind_congr_ok fun row hrow => ?_
    refine projectGroups_congr h (lastId_of_projectGroup hg hrow) ?_
    rw [List.length_append, List.length_singleton, ← List.tail_drop, hrest, List.tail_cons]

theorem projectAll_congr (h : s.Alike here frames t) :
    t.projectAll (here.under frames) cs = s.projectAll here cs := by
  have hfunctions : t.aggregates.mapM (Slot.function here.catalog) =
      s.aggregates.mapM (Slot.function here.catalog) :=
    mapM_congr_forall₂ (h.aggregates.imp fun slot slot' hslot => by
      rw [Slot.function, Slot.function, hslot.target])
  simp only [projectAll, h.aggregated, collect_congr h, projectRows_congr h]
  refine if_congr Iff.rfl (bind_congr_ok fun groups _ => ?_) rfl
  rw [Setting.under, hfunctions]
  exact bind_congr_ok fun functions _ => projectGroups_congr h .first List.drop_zero

end Stages

/-! ### Queries -/

/-- The source with its query replaced by one that gives the same rows. -/
inductive Supply.Alike (outer frames : List Frame) : Supply Query → Supply Query → Prop
  | table (id width : Nat) : Alike outer frames (.table id width) (.table id width)
  | query {q q' : Query} (h : q' frames = q outer) (width : Nat) :
      Alike outer frames (.query q width) (.query q' width)

section Queries

variable {c : Catalog} {now : Date.Instant} {outer : List Frame} {s t : Stages Query}

theorem Stages.setting_congr
    (h : List.Forall₂ (Supply.Alike outer frames) s.sources t.sources) :
    t.setting c now frames = (s.setting c now outer).map (Setting.under · frames) := by
  have htables : t.sources.mapM (Supply.materialize frames) =
      s.sources.mapM (Supply.materialize outer) := by
    refine mapM_congr_forall₂ (h.imp fun supply supply' hsupply => ?_)
    cases hsupply with
    | table => rfl
    | query h => simp only [Supply.materialize, h]
  simp only [setting, htables]
  cases s.sources.mapM (Supply.materialize outer) with
  | error e => rfl
  | ok tables =>
    simp only [ok_bind]
    cases tables.mapM (Supply.provider c) <;> rfl

/-- **A query runs its programs in the environments of their clauses**, and the queries of its
sources for the frames around it: queries that do the same there give the same rows. -/
theorem Stages.rows_congr (hsources : List.Forall₂ (Supply.Alike outer frames) s.sources t.sources)
    (h : ∀ here, s.setting c now outer = .ok here → s.Alike here frames t) :
    t.rows c now frames = s.rows c now outer := by
  simp only [rows, setting_congr hsources]
  refine bind_map_congr fun here hhere => ?_
  have hst := h here hhere
  have hdirections : t.orderBy.map SortKey.ascending = s.orderBy.map SortKey.ascending := by
    rw [← List.forall₂_eq_eq_eq, List.forall₂_map_left_iff, List.forall₂_map_right_iff]
    exact hst.orderBy.flip.imp fun _ _ hk => hk.ascending
  simp only [combine_congr hst.joins, keep_congr hst.filter, projectAll_congr hst, hdirections,
    hst.distinct, hst.limit]

end Queries

/-! ### Replaced programs -/

/-- The step with its program replaced. -/
def JoinStep.map (f : Program Query → Program Query) (j : JoinStep Query) : JoinStep Query :=
  ⟨j.kind, j.condition.map f⟩

def Slot.map (f : Program Query → Program Query) (slot : Slot Query) : Slot Query :=
  ⟨slot.target, slot.arguments.map f⟩

def SortKey.map (f : Program Query → Program Query) (k : SortKey Query) : SortKey Query :=
  ⟨f k.program, k.ascending⟩

/-- The source with its query replaced. -/
def Supply.map (g : Query → Query) : Supply Query → Supply Query
  | .table id width => .table id width
  | .query q width  => .query (g q) width

/-- The stages with all programs, and the queries of all sources, replaced. -/
def Stages.map (f : Program Query → Program Query) (g : Query → Query) (s : Stages Query) :
    Stages Query :=
  { s with
    sources := s.sources.map (Supply.map g)
    joins := s.joins.map (JoinStep.map f)
    filter := s.filter.map f
    outputs := s.outputs.map f
    groupBy := s.groupBy.map f
    aggregates := s.aggregates.map (Slot.map f)
    orderBy := s.orderBy.map (SortKey.map f) }

/-- The program with its nested queries replaced. -/
def Program.mapQueries (g : Query → Query) (p : Program Query) : Program Query :=
  ⟨p.code, p.queries.map g⟩

/-- **Nested queries are run for the frame of the environment and those around it.** -/
theorem Program.mapQueries_eq {env : Env} {g : Query → Query}
    (hg : ∀ q : Query, g q (env.frame :: env.outer) = q (env.frame :: env.outer))
    (p : Program Query) : (p.mapQueries g).value env = p.value env ∧
      ∀ row, (p.mapQueries g).write env row = p.write env row := by
  have hqueries : Query.SameAll env env.outer p.queries (p.queries.map g) :=
    List.forall₂_map_right_iff.2 (List.forall₂_same.2 fun q _ => hg q)
  have halike : p.Alike (· = env) env.outer (p.mapQueries g) := by
    refine Program.alike rfl fun env' henv => ?_
    subst henv
    exact ⟨fun _ _ _ _ => rfl, hqueries⟩
  exact ⟨halike.value env rfl, halike.write env rfl⟩

namespace Setting

/-- Replacing programs changes nothing in the environments of the setting. -/
structure Keeps (here : Setting) (f : Program Query → Program Query) : Prop where
  value : ∀ p env, here.Reads env → (f p).value env = p.value env
  write : ∀ p env, here.Reads env → ∀ row, (f p).write env row = p.write env row

variable {f : Program Query → Program Query}

theorem Keeps.program (hf : here.Keeps f) (clause : Clause) (p : Program Query) :
    p.Alike (here.Runs clause) here.outer (f p) := by
  have hunder : ∀ env, here.Runs clause env → env.under here.outer = env := by
    intro env henv
    rw [← henv.reads.outer]
    rfl
  refine ⟨fun env henv => ?_, fun env henv row => ?_⟩
  · rw [hunder env henv, hf.value p env henv.reads]
  · rw [hunder env henv, hf.write p env henv.reads]

theorem Keeps.programs (hf : here.Keeps f) (clause : Clause) (ps : List (Program Query)) :
    List.Forall₂ (Program.Alike (here.Runs clause) here.outer) ps (ps.map f) :=
  List.forall₂_map_right_iff.2 (List.forall₂_same.2 fun p _ => hf.program clause p)

theorem Keeps.option (hf : here.Keeps f) (clause : Clause) (p : Option (Program Query)) :
    Option.Rel (Program.Alike (here.Runs clause) here.outer) p (p.map f) := by
  cases p with
  | none => exact .none
  | some p => exact .some (hf.program clause p)

/-- The stages with replaced programs do the same. -/
theorem Keeps.stages (hf : here.Keeps f) (g : Query → Query) (s : Stages Query) :
    s.Alike here here.outer (s.map f g) where
  joins := List.forall₂_map_right_iff.2
    (List.forall₂_same.2 fun j _ => ⟨rfl, hf.option .on j.condition⟩)
  filter := hf.option .filter s.filter
  outputs := hf.programs .output s.outputs
  groupBy := hf.programs .groupBy s.groupBy
  aggregates := List.forall₂_map_right_iff.2
    (List.forall₂_same.2 fun slot _ => ⟨rfl, hf.programs .argument slot.arguments⟩)
  orderBy := List.forall₂_map_right_iff.2
    (List.forall₂_same.2 fun k _ => ⟨rfl, hf.program .output k.program⟩)
  distinct := rfl
  limit := rfl
  aggregated := rfl

end Setting

theorem Stages.outer_of_setting {c : Catalog} {now : Date.Instant} {s : Stages Query}
    (h : s.setting c now frames = .ok here) : here.outer = frames := by
  simp only [setting, bind_eq_ok_iff] at h
  obtain ⟨tables, -, providers, -, h⟩ := h
  rw [← Except.ok.inj h]

/-- **A query runs its programs in the environments of its setting**, and the queries of its sources
for the frames around it: what they do elsewhere may be replaced. -/
theorem Stages.rows_map {c : Catalog} {now : Date.Instant} {s : Stages Query}
    {f : Program Query → Program Query} {g : Query → Query}
    (hg : ∀ q : Query, g q frames = q frames)
    (hf : ∀ here, s.setting c now frames = .ok here → here.Keeps f) :
    (s.map f g).rows c now frames = s.rows c now frames := by
  refine rows_congr (List.forall₂_map_right_iff.2 (List.forall₂_same.2 fun supply _ => ?_))
    fun here hhere => ?_
  · cases supply with
    | table id width => exact .table id width
    | query q width => exact .query (hg q) width
  · rw [← outer_of_setting hhere]
    exact (hf here hhere).stages g s

end SqlEngine
