import SqlEngine.Output
import SqlEngine.Plan.Arrangement
import SqlEngine.Plan.Combination

/-!
# Plans — execution

`Stages.rows` runs the stages of a query whose nested queries can be run already.  `Plan.query`
makes a plan such a function, from the innermost plans outwards, and `Plan.execute` runs a plan that
stands by itself.
-/

namespace SqlEngine

/-! ### Sources -/

namespace Supply

/-- A nested query becomes a table of its rows. -/
def materialize (outer : List Frame) : Supply Query → Except Error (Supply MemoryTable)
  | table id width => .ok (table id width)
  | query q width  => do
    let rows ← q outer
    .ok (query (MemoryTable.ofRows width (rows.map OutputRow.values)) width)

/-- The provider of the rows. -/
def provider (c : Catalog) : Supply MemoryTable → Except Error Provider
  | query t _  => .ok (.memory t)
  | table id _ =>
    match c.provider? id with
    | some p => .ok p
    | none   => .error (.notSupported (.noProviderForId id))

end Supply

/-! ### Projection -/

namespace Stages

/-- The output row of an environment, with its sort keys. -/
def project (s : Stages Query) (env : Env) : Except Error Projected := do
  let values ← s.outputs.foldlM (fun row p => p.write env row) []
  let keys ← s.orderBy.mapM fun k => k.program.value env
  .ok ⟨⟨env.rowId, values⟩, keys⟩

/-- The output rows of combinations, numbered from `number` on. -/
def projectRows (s : Stages Query) (here : Setting) (number : Nat) :
    List Combination → Except Error (List Projected)
  | []      => .ok []
  | c :: cs => do
    let row ← s.project (← here.envFor c number)
    .ok (row :: (← s.projectRows here (number + 1) cs))

end Stages

/-! ### Groups -/

/-- The aggregate function of a slot. -/
def Slot.function (c : Catalog) (slot : Slot Query) : Except Error AggregateFunction :=
  match (c.variant? slot.target).map Variant.implementation with
  | none                => .error (.internal (.noFunction slot.target.function slot.target.variant))
  | some (.scalar _)    => .error (.internal .scalarAccumulated)
  | some (.aggregate f) => .ok f

namespace Stages

/-- The groups of the kept combinations; without group keys there is exactly one. -/
def collect (s : Stages Query) (here : Setting) (kept : List Combination) :
    Except Error (List (Group Combination)) := do
  let keyed ← kept.mapM fun c => do
    let env ← here.envAt c
    .ok (← s.groupBy.mapM fun p => p.value env, c)
  let groups := groupRows keyed
  .ok (if groups.isEmpty && s.groupBy.isEmpty then [⟨[], []⟩] else groups)

/-- The arguments of a slot for every member of a group, in the environment of the last output row,
which has the given number and id. -/
def slotRows (here : Setting) (number : Nat) (id : RowId) (slot : Slot Query)
    (members : List Combination) : Except Error (List (List Value)) :=
  members.mapM fun c => do
    let env := here.env (← locateAll here.providers c) number id
    slot.arguments.mapM fun p => p.value env

/-- The output row of a group, `done` being the rows of the groups before it. -/
def projectGroup (s : Stages Query) (here : Setting) (functions : List AggregateFunction)
    (done : List Projected) (g : Group Combination) : Except Error Projected := do
  let lastId := (done.getLast?.map fun p => p.row.id).getD beforeFirst
  let rows ← s.aggregates.mapM fun slot => slotRows here done.length lastId slot g.members
  let results ← (functions.zip rows).mapM fun p => do
    .ok (← (Accumulator.empty p.1).addAll p.2).result
  let positions ← locateAll here.providers (g.members.head?.getD [])
  s.project { here.env positions (done.length + 1) (primaryId positions) with
    keys := g.key, results }

/-- The output rows of the groups. -/
def projectGroups (s : Stages Query) (here : Setting) (functions : List AggregateFunction)
    (done : List Projected) : List (Group Combination) → Except Error (List Projected)
  | []      => .ok done
  | g :: gs => do
    let row ← s.projectGroup here functions done g
    s.projectGroups here functions (done ++ [row]) gs

/-- The output rows of the kept combinations. -/
def projectAll (s : Stages Query) (here : Setting) (kept : List Combination) :
    Except Error (List Projected) := do
  if s.aggregated then
    let groups ← s.collect here kept
    let functions ← s.aggregates.mapM (Slot.function here.catalog)
    s.projectGroups here functions [] groups
  else s.projectRows here 1 kept

/-! ### Queries -/

/-- The setting of a query: nested queries in FROM are run first, and then the providers are
looked up. -/
def setting (s : Stages Query) (c : Catalog) (now : Date.Instant) (outer : List Frame) :
    Except Error Setting := do
  let tables ← s.sources.mapM (Supply.materialize outer)
  let providers ← tables.mapM (Supply.provider c)
  .ok ⟨c, outer, providers, now⟩

/-- The rows of a query, for the frames around it. -/
def rows (s : Stages Query) (c : Catalog) (now : Date.Instant) : Query := fun outer => do
  let here ← s.setting c now outer
  let kept ← keep here s.filter (← combine here s.joins)
  let projected ← s.projectAll here kept
  .ok (arrange s.distinct (s.orderBy.map SortKey.ascending) s.limit
    (dropBlank kept.isEmpty projected))

end Stages

mutual

/-- The function that runs a plan. -/
def Plan.query (c : Catalog) (now : Date.Instant) : Plan → Query
  | .of s => (Stages.queries c now s).rows c now

/-- The stages with functions in the place of nested plans. -/
def Stages.queries (c : Catalog) (now : Date.Instant) : Stages Plan → Stages Query
  | ⟨sources, joins, filter, outputs, columns, groupBy, aggregates, orderBy, distinct, limit,
      aggregated⟩ =>
    ⟨Supply.queriesAll c now sources, JoinStep.queriesAll c now joins,
      Program.queriesOption c now filter, Program.queriesAll c now outputs, columns,
      Program.queriesAll c now groupBy, Slot.queriesAll c now aggregates,
      SortKey.queriesAll c now orderBy, distinct, limit, aggregated⟩

def Plan.queryAll (c : Catalog) (now : Date.Instant) : List Plan → List Query
  | []      => []
  | p :: ps => p.query c now :: Plan.queryAll c now ps

def Program.withQueries (c : Catalog) (now : Date.Instant) : Program Plan → Program Query
  | ⟨code, plans⟩ => ⟨code, Plan.queryAll c now plans⟩

def Program.queriesAll (c : Catalog) (now : Date.Instant) :
    List (Program Plan) → List (Program Query)
  | []      => []
  | p :: ps => p.withQueries c now :: Program.queriesAll c now ps

def Program.queriesOption (c : Catalog) (now : Date.Instant) :
    Option (Program Plan) → Option (Program Query)
  | none   => none
  | some p => some (p.withQueries c now)

def Supply.queriesAll (c : Catalog) (now : Date.Instant) : List (Supply Plan) → List (Supply Query)
  | []                     => []
  | .table id width :: ss  => .table id width :: Supply.queriesAll c now ss
  | .query p width :: ss   => .query (p.query c now) width :: Supply.queriesAll c now ss

def JoinStep.queriesAll (c : Catalog) (now : Date.Instant) :
    List (JoinStep Plan) → List (JoinStep Query)
  | []                      => []
  | ⟨kind, condition⟩ :: js =>
    ⟨kind, Program.queriesOption c now condition⟩ :: JoinStep.queriesAll c now js

def Slot.queriesAll (c : Catalog) (now : Date.Instant) : List (Slot Plan) → List (Slot Query)
  | []                        => []
  | ⟨target, arguments⟩ :: ss =>
    ⟨target, Program.queriesAll c now arguments⟩ :: Slot.queriesAll c now ss

def SortKey.queriesAll (c : Catalog) (now : Date.Instant) :
    List (SortKey Plan) → List (SortKey Query)
  | []                        => []
  | ⟨program, ascending⟩ :: ks =>
    ⟨program.withQueries c now, ascending⟩ :: SortKey.queriesAll c now ks

end

/-- Runs a plan that stands by itself. -/
def Plan.execute (c : Catalog) (now : Date.Instant) (p : Plan) : Except Error Output := do
  .ok ⟨p.stages.columns, ← p.query c now [], 0⟩

end SqlEngine
