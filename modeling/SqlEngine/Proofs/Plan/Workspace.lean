import SqlEngine.Proofs.Plan.Arrangement
import SqlEngine.Proofs.Plan.Joins
import SqlEngine.Proofs.Plan.Phases

/-!
# Plans — one workspace for all passes

A query can be run on one state that is changed all the time (`Workspace`): a cursor on each source,
the output rows, their sort keys, and what is known of the group that is being projected.  The
number of a row is read off the length of the output list, and its id off the last output row.
WHERE pushes a marker row for each combination and takes them all away in the end; projection pushes
the rows that stay.  Each accumulator is used for all groups, one after the other.  A nested query
has a workspace of its own.

Nothing of this shows in the result: the rows are those of `Stages.rows`, which passes numbers and
positions on instead, wherever the cursors are in the beginning.

* `Workspace.filterAll_agrees`, `Workspace.projectAll_agrees`, `Workspace.projectGroups_agrees`:
  each pass.
* `Workspace.run_eq`: the passes together.
-/

namespace SqlEngine

/-! ### Results that agree -/

/-- Both have values, which are related, or both fail with the same error. -/
inductive Agree {α β : Type} (R : α → β → Prop) : Except Error α → Except Error β → Prop
  | ok {a b} (h : R a b) : Agree R (.ok a) (.ok b)
  | error (e : Error) : Agree R (.error e) (.error e)

namespace Agree

variable {α β γ δ : Type} {R : α → β → Prop} {S : γ → δ → Prop} {x : Except Error α}
  {y : Except Error β}

theorem bind {f : α → Except Error γ} {g : β → Except Error δ} (h : Agree R x y)
    (hfg : ∀ a b, R a b → Agree S (f a) (g b)) : Agree S (x >>= f) (y >>= g) := by
  cases h with
  | ok h => exact hfg _ _ h
  | error e => exact .error e

/-- The values that are related are the results. -/
theorem with_right (h : Agree R x y) : Agree (fun a b => R a b ∧ y = .ok b) x y := by
  cases h with
  | ok h => exact .ok ⟨h, rfl⟩
  | error e => exact .error e

theorem refl (x : Except Error α) : Agree Eq x x := by
  cases x with
  | ok a => exact .ok rfl
  | error e => exact .error e

theorem eq {x y : Except Error α} (h : Agree Eq x y) : x = y := by
  cases h with
  | ok h => rw [h]
  | error e => rfl

/-- What the second result is mapped to. -/
theorem map_right {f : β → δ} {T : α → δ → Prop} (h : Agree R x y) (hf : ∀ a b, R a b → T a (f b)) :
    Agree T x (y >>= fun b => .ok (f b)) := by
  cases h with
  | ok h => exact .ok (hf _ _ h)
  | error e => exact .error e

end Agree

/-! ### The workspace -/

/-- The state of a query that is being run. -/
structure Workspace where
  cursors : List Cursor
  output : List OutputRow
  sortKeys : List (List Value)
  keys : List Value
  results : List Value

/-- Puts cursors on a combination, each on the row of its source. -/
def Cursor.seekAll : List Cursor → Combination → Except Error (List Cursor)
  | c :: cs, id :: ids =>
    let (found, c) := c.seek id
    if found then do .ok (c :: (← seekAll cs ids))
    else .error (.internal (.rowVanished (id.getD beforeFirst)))
  | cs,      _         => .ok cs

namespace Workspace

/-- The id of the last output row. -/
def lastId (w : Workspace) : RowId :=
  (w.output.getLast?.map OutputRow.id).getD beforeFirst

/-- What programs read: the row number is the number of output rows, and the row id is that of the
last one. -/
def env (here : Setting) (w : Workspace) : Env :=
  { here.env (w.cursors.map Cursor.position) w.output.length w.lastId with
    keys := w.keys, results := w.results }

/-- Puts the cursors on a combination. -/
def seek (c : Combination) (w : Workspace) : Except Error Workspace := do
  .ok { w with cursors := ← Cursor.seekAll w.cursors c }

/-- Puts all cursors on rows of NULLs. -/
def clear (w : Workspace) : Workspace :=
  { w with cursors := w.cursors.map Cursor.clear }

/-- Puts the cursors on the first of the combinations, or on rows of NULLs if there is none. -/
def seekFirst : List Combination → Workspace → Except Error Workspace
  | [],     w => .ok w.clear
  | c :: _, w => w.seek c

/-- Begins an output row with the id of the first source's row. -/
def push (w : Workspace) : Workspace :=
  { w with output := w.output ++ [⟨primaryId (w.cursors.map Cursor.position), []⟩] }

/-- Runs a program for its value. -/
def evaluate (here : Setting) (p : Program Query) (w : Workspace) : Except Error Value :=
  p.value (w.env here)

/-- Runs a program that writes to the last output row. -/
def execute (here : Setting) (p : Program Query) (w : Workspace) : Except Error Workspace :=
  let last := w.output.getLast?
  match p.execute (w.env here) ⟨[], last.map OutputRow.values⟩ with
  | .error fault => .error fault.error
  | .ok m        =>
    match last, m.output with
    | some row, some values =>
      .ok { w with output := w.output.dropLast ++ [{ row with values := values }] }
    | _,        _           => .ok w

/-! ### Passes -/

/-- The combinations for which a program is TRUE.  Each one has a marker among the output rows while
the program runs. -/
def filterAll (here : Setting) (p : Program Query) :
    List Combination → Workspace → Except Error (List Combination × Workspace)
  | [],      w => .ok ([], { w with output := [] })
  | c :: cs, w => do
    let w := (← w.seek c).push
    let v ← w.evaluate here p
    let (kept, w) ← filterAll here p cs w
    .ok (if v.isTrue then c :: kept else kept, w)

/-- The combinations that WHERE keeps. -/
def keepAll (here : Setting) (filter : Option (Program Query)) (cs : List Combination)
    (w : Workspace) : Except Error (List Combination × Workspace) :=
  match filter with
  | some p => w.filterAll here p cs
  | none   => .ok (cs, w)

/-- Makes an output row of the current rows. -/
def projectRow (here : Setting) (s : Stages Query) (w : Workspace) : Except Error Workspace := do
  let w ← s.outputs.foldlM (fun w p => execute here p w) w.push
  let keys ← s.orderBy.mapM fun k => w.evaluate here k.program
  .ok { w with sortKeys := w.sortKeys ++ [keys] }

/-- Makes an output row of each combination. -/
def projectAll (here : Setting) (s : Stages Query) :
    List Combination → Workspace → Except Error Workspace
  | [],      w => .ok w
  | c :: cs, w => do
    let w ← (← w.seek c).projectRow here s
    projectAll here s cs w

/-- The combinations with their group keys. -/
def keyAll (here : Setting) (s : Stages Query) :
    List Combination → Workspace → Except Error (List (List Value × Combination) × Workspace)
  | [],      w => .ok ([], w)
  | c :: cs, w => do
    let w ← w.seek c
    let key ← s.groupBy.mapM fun p => w.evaluate here p
    let (rows, w) ← keyAll here s cs w
    .ok ((key, c) :: rows, w)

/-- The arguments of a slot for each combination. -/
def argumentRows (here : Setting) (slot : Slot Query) :
    List Combination → Workspace → Except Error (List (List Value) × Workspace)
  | [],      w => .ok ([], w)
  | c :: cs, w => do
    let w ← w.seek c
    let row ← slot.arguments.mapM fun p => w.evaluate here p
    let (rows, w) ← argumentRows here slot cs w
    .ok (row :: rows, w)

/-- The arguments of all slots for the members of a group. -/
def argumentsAll (here : Setting) (members : List Combination) :
    List (Slot Query) → Workspace → Except Error (List (List (List Value)) × Workspace)
  | [],            w => .ok ([], w)
  | slot :: slots, w => do
    let (rows, w) ← argumentRows here slot members w
    let (more, w) ← argumentsAll here members slots w
    .ok (rows :: more, w)

/-- Resets every accumulator, and feeds it the rows of its slot. -/
def accumulateAll : List Accumulator → List (List (List Value)) → Except Error (List Accumulator)
  | a :: as, rows :: more => do
    let a ← a.reset.addAll rows
    .ok (a :: (← accumulateAll as more))
  | _,       _            => .ok []

/-- Makes an output row of a group, with accumulators that may have been used before. -/
def projectGroup (here : Setting) (s : Stages Query) (g : Group Combination)
    (accumulators : List Accumulator) (w : Workspace) :
    Except Error (List Accumulator × Workspace) := do
  let (rows, w) ← argumentsAll here g.members s.aggregates w
  let accumulators ← accumulateAll accumulators rows
  let w := { w with results := accumulators.map Accumulator.result, keys := g.key }
  let w ← seekFirst g.members w
  .ok (accumulators, ← w.projectRow here s)

/-- Makes an output row of each group. -/
def projectGroups (here : Setting) (s : Stages Query) :
    List (Group Combination) → List Accumulator → Workspace → Except Error Workspace
  | [],      _,            w => .ok w
  | g :: gs, accumulators, w => do
    let (accumulators, w) ← w.projectGroup here s g accumulators
    projectGroups here s gs accumulators w

/-- The row of NULLs that aggregates give when no row was kept is dropped, with its sort keys. -/
def dropBlank (nothingKept : Bool) (w : Workspace) : Workspace :=
  match w.output with
  | [row] =>
    if nothingKept && Row.isBlank row.values then { w with output := [], sortKeys := [] } else w
  | _     => w

/-- Makes output rows of the combinations that are kept. -/
def project (here : Setting) (s : Stages Query) (kept : List Combination) (w : Workspace) :
    Except Error Workspace := do
  if s.aggregated then
    let (rows, w) ← w.keyAll here s kept
    let groups := groupRows rows
    let groups := if groups.isEmpty && s.groupBy.isEmpty then [⟨[], []⟩] else groups
    let functions ← s.aggregates.mapM (Slot.function here.catalog)
    w.projectGroups here s groups (functions.map Accumulator.empty)
  else w.projectAll here s kept

/-- Runs all passes on the combinations of the sources, with a new workspace. -/
def run (hash : List Digest → UInt64) (here : Setting) (s : Stages Query)
    (start : List Cursor) (cs : List Combination) : Except Error (List OutputRow) := do
  let (kept, w) ← keepAll here s.filter cs ⟨start, [], [], [], []⟩
  let w := (← w.project here s kept).dropBlank kept.isEmpty
  .ok (finish hash s.distinct (s.orderBy.map SortKey.ascending) s.limit w.output w.sortKeys)

/-! ### Cursors -/

/-- Cursors on the sources of a setting agree with the positions of a combination. -/
theorem seekAll_agrees : ∀ {cursors : List Cursor} {providers : List Provider} {c : Combination},
    cursors.map Cursor.provider = providers → c.length = providers.length →
    Agree (fun cs positions => cs.map Cursor.provider = providers ∧
      cs.map Cursor.position = positions) (Cursor.seekAll cursors c) (locateAll providers c)
  | [], [], [], _, _ => .ok ⟨rfl, rfl⟩
  | cursor :: cursors, p :: providers, id :: c, hproviders, hc => by
    obtain ⟨hp, hproviders⟩ := List.cons.inj hproviders
    have hrest := seekAll_agrees hproviders (Nat.succ.inj hc)
    have hok {cursor : Cursor} {position : Position} (hprovider : cursor.provider = p)
        (hposition : cursor.position = position) :
        Agree (fun cs positions => cs.map Cursor.provider = p :: providers ∧
            cs.map Cursor.position = positions)
          (Cursor.seekAll cursors c >>= fun cs => .ok (cursor :: cs))
          (locateAll providers c >>= fun positions => .ok (position :: positions)) := by
      refine hrest.bind fun cs positions ⟨hcs, hpositions⟩ => .ok ⟨?_, ?_⟩
      · rw [List.map_cons, hcs, hprovider]
      · rw [List.map_cons, hpositions, hposition]
    rw [Cursor.seekAll, locateAll]
    cases id with
    | none => exact hok hp rfl
    | some id =>
      simp only [Cursor.seek, Provider.locate, hp]
      cases p.seek id with
      | none => exact .error _
      | some row => exact hok rfl rfl

variable {here : Setting} {s : Stages Query} {w : Workspace} {c : Combination}
  {cs : List Combination}

/-- The cursors are those of the setting's sources. -/
def On (w : Workspace) (here : Setting) : Prop :=
  w.cursors.map Cursor.provider = here.providers

/-- The cursors are on the sources, and no group is being projected. -/
structure Ready (w : Workspace) (here : Setting) : Prop where
  on : w.On here
  keys : w.keys = []
  results : w.results = []

/-- A combination has a row for each source. -/
def Covers (here : Setting) (c : Combination) : Prop :=
  c.length = here.providers.length

/-- The workspace with its cursors moved to positions. -/
inductive Moved (here : Setting) (w : Workspace) : List Position → Workspace → Prop
  | move (cursors : List Cursor) (h : cursors.map Cursor.provider = here.providers) :
      Moved here w (cursors.map Cursor.position) { w with cursors }

theorem seek_agrees (hw : w.On here) (hc : Covers here c) :
    Agree (fun w' positions => Moved here w positions w') (w.seek c)
      (locateAll here.providers c) := by
  rw [← bind_pure (locateAll here.providers c)]
  exact (seekAll_agrees hw hc).bind fun cs positions ⟨hproviders, hpositions⟩ =>
    .ok (hpositions ▸ .move cs hproviders)

/-- The id of the last output row is that of the row that was added last. -/
theorem lastId_concat {out : List OutputRow} {row : OutputRow} (hout : w.output = out ++ [row]) :
    w.lastId = row.id := by
  simp only [lastId, hout, List.getLast?_append, List.getLast?_singleton, Option.some_or,
    Option.map_some, Option.getD_some]

/-- Where no row is left from an earlier pass, cursors on a combination make its environment. -/
theorem seek_agrees_envAt (hw : w.Ready here) (houtput : w.output = []) (hc : Covers here c) :
    Agree (fun w' env => (∃ positions, Moved here w positions w') ∧ w'.env here = env) (w.seek c)
      (here.envAt c) := by
  refine (seek_agrees hw.on hc).map_right fun w' positions h => ⟨⟨positions, h⟩, ?_⟩
  cases h with
  | move cursors hcursors =>
    simp only [env, lastId, houtput, hw.keys, hw.results]
    rfl

/-- On a combination, the row that is begun has the next number and the id of the first source's
row. -/
theorem seek_agrees_envFor (hw : w.Ready here) (hc : Covers here c) :
    Agree (fun w' env => (∃ positions, Moved here w positions w') ∧ w'.push.env here = env)
      (w.seek c) (here.envFor c (w.output.length + 1)) := by
  refine (seek_agrees hw.on hc).map_right fun w' positions h => ⟨⟨positions, h⟩, ?_⟩
  cases h with
  | move cursors hcursors =>
    rw [env, lastId_concat (w := push _) rfl]
    simp only [push, List.length_append, List.length_singleton, hw.keys, hw.results]
    rfl

/-! ### WHERE -/

/-- The output is that of rows, and each one has its sort keys. -/
structure Holds (w : Workspace) (rows : List Projected) : Prop where
  output : w.output = rows.map Projected.row
  sortKeys : w.sortKeys = rows.map Projected.keys

theorem filterAll_agrees (p : Program Query) : ∀ {cs : List Combination} {w : Workspace},
    w.Ready here → w.sortKeys = [] → (∀ c ∈ cs, Covers here c) →
    Agree (fun r kept => r.1 = kept ∧ r.2.Ready here ∧ r.2.Holds []) (w.filterAll here p cs)
      (filterRows here p (w.output.length + 1) cs)
  | [], w, hw, hsort, _ => .ok ⟨rfl, ⟨hw.on, hw.keys, hw.results⟩, rfl, hsort⟩
  | c :: cs, w, hw, hsort, hcs => by
    obtain ⟨hc, hcs⟩ := List.forall_mem_cons.1 hcs
    rw [filterAll, filterRows]
    refine (seek_agrees_envFor hw hc).bind ?_
    rintro _ _ ⟨⟨positions, hmoved⟩, rfl⟩
    cases hmoved with
    | move cursors hcursors =>
      refine (Agree.refl _).bind ?_
      rintro v _ rfl
      -- the marker row of the combination is there for the next one
      have hrest := filterAll_agrees p (w := push { w with cursors })
        ⟨hcursors, hw.keys, hw.results⟩ hsort hcs
      simp only [push, List.length_append, List.length_singleton] at hrest
      refine hrest.bind ?_
      rintro ⟨kept, w'⟩ _ ⟨rfl, hrest⟩
      exact .ok ⟨rfl, hrest⟩

theorem keepAll_agrees (filter : Option (Program Query)) (hw : w.Ready here) (hholds : w.Holds [])
    (hcs : ∀ c ∈ cs, Covers here c) :
    Agree (fun r kept => r.1 = kept ∧ r.2.Ready here ∧ r.2.Holds []) (keepAll here filter cs w)
      (keep here filter cs) := by
  cases filter with
  | none => exact .ok ⟨rfl, hw, hholds⟩
  | some p =>
    have h := filterAll_agrees p hw hholds.sortKeys hcs
    rw [hholds.output] at h
    exact h

/-! ### Output rows -/

/-- A program that writes to the last output row does to it what it does to a row. -/
theorem execute_agrees {out : List OutputRow} {id : RowId} {row : List Value}
    (hout : w.output = out ++ [⟨id, row⟩]) (p : Program Query) :
    Agree (fun w' row' => w' = { w with output := out ++ [⟨id, row'⟩] }) (w.execute here p)
      (p.write (w.env here) row) := by
  have hlast : w.output.getLast? = some ⟨id, row⟩ := by rw [hout, List.getLast?_concat]
  have hdrop : w.output.dropLast = out := by rw [hout, List.dropLast_concat]
  simp only [execute, Program.write, hlast, Option.map_some]
  cases p.execute (w.env here) ⟨[], some row⟩ with
  | error fault => exact .error _
  | ok m =>
    cases hm : m.output with
    | none =>
      simp only [hm, Option.getD_none]
      exact .ok (by rw [← hout])
    | some values =>
      simp only [hm, Option.getD_some]
      exact .ok (by rw [hdrop])

/-- Writing to the last output row changes nothing that programs read. -/
theorem env_write (here : Setting) {out : List OutputRow} {id : RowId} {row : List Value}
    (hout : w.output = out ++ [⟨id, row⟩]) (row' : List Value) :
    env here { w with output := out ++ [⟨id, row'⟩] } = w.env here := by
  have hlast : lastId { w with output := out ++ [⟨id, row'⟩] } = OutputRow.id ⟨id, row'⟩ :=
    lastId_concat rfl
  rw [env, env, hlast, lastId_concat hout, hout, List.length_append, List.length_append,
    List.length_singleton, List.length_singleton]

/-- The outputs write their values to the row that was begun. -/
theorem executeAll_agrees {out : List OutputRow} {id : RowId} : ∀ {programs : List (Program Query)}
    {w : Workspace} {row : List Value}, w.output = out ++ [⟨id, row⟩] →
    Agree (fun w' row' => w' = { w with output := out ++ [⟨id, row'⟩] })
      (programs.foldlM (fun w p => execute here p w) w)
      (programs.foldlM (fun row p => p.write (w.env here) row) row)
  | [], w, row, hout => .ok (by rw [← hout])
  | p :: programs, w, row, hout => by
    rw [List.foldlM_cons, List.foldlM_cons]
    refine (execute_agrees hout p).bind ?_
    rintro _ row' rfl
    rw [← env_write here hout row']
    exact executeAll_agrees (w := { w with output := out ++ [⟨id, row'⟩] }) rfl

/-- The workspace with one output row more. -/
def withRow (w : Workspace) (row : Projected) : Workspace :=
  { w with output := w.output ++ [row.row], sortKeys := w.sortKeys ++ [row.keys] }

theorem Holds.withRow {rows : List Projected} (h : w.Holds rows) (row : Projected) :
    (w.withRow row).Holds (rows ++ [row]) where
  output := by rw [List.map_append, ← h.output]; rfl
  sortKeys := by rw [List.map_append, ← h.sortKeys]; rfl

/-- Projection of the current rows agrees with that in their environment. -/
theorem projectRow_agrees (w : Workspace) (here : Setting) (s : Stages Query) :
    Agree (fun w' row => w' = w.withRow row) (w.projectRow here s)
      (s.project (w.push.env here)) := by
  have hid : (w.push.env here).rowId = primaryId (w.cursors.map Cursor.position) :=
    lastId_concat (w := w.push) rfl
  refine (executeAll_agrees (w := w.push) rfl).bind ?_
  rintro _ values rfl
  simp only [evaluate, env_write here (w := w.push) rfl]
  refine (Agree.refl _).bind ?_
  rintro keys _ rfl
  exact .ok (by rw [hid]; rfl)

theorem projectAll_agrees (s : Stages Query) : ∀ {cs : List Combination} {done : List Projected}
    {w : Workspace}, w.Ready here → w.Holds done → (∀ c ∈ cs, Covers here c) →
    Agree (fun w' rows => w'.Holds (done ++ rows)) (w.projectAll here s cs)
      (s.projectRows here (done.length + 1) cs)
  | [], done, w, _, hdone, _ => .ok (by rwa [List.append_nil])
  | c :: cs, done, w, hw, hdone, hcs => by
    obtain ⟨hc, hcs⟩ := List.forall_mem_cons.1 hcs
    have hstep := seek_agrees_envFor hw hc
    rw [hdone.output, List.length_map] at hstep
    rw [projectAll, Stages.projectRows]
    refine hstep.bind ?_
    rintro _ _ ⟨⟨positions, hmoved⟩, rfl⟩
    cases hmoved with
    | move cursors hcursors =>
      refine (projectRow_agrees _ here s).bind ?_
      rintro _ row rfl
      have hrow : Holds { w with cursors } done := ⟨hdone.output, hdone.sortKeys⟩
      have hrest := projectAll_agrees s (w := withRow { w with cursors } row)
        ⟨hcursors, hw.keys, hw.results⟩ (hrow.withRow row) hcs
      rw [List.length_append, List.length_singleton] at hrest
      exact hrest.map_right fun w' rows hrows => by rwa [List.append_cons]

/-! ### Groups -/

theorem keyAll_agrees (s : Stages Query) : ∀ {cs : List Combination} {w : Workspace},
    w.Ready here → w.Holds [] → (∀ c ∈ cs, Covers here c) →
    Agree (fun r keyed => r.1 = keyed ∧ (∀ r ∈ keyed, Covers here r.2) ∧ r.2.On here ∧ r.2.Holds [])
      (w.keyAll here s cs)
      (cs.mapM fun c => do
        let env ← here.envAt c
        .ok (← s.groupBy.mapM fun p => p.value env, c))
  | [], w, hw, hholds, _ => .ok ⟨rfl, List.forall_mem_nil _, hw.on, hholds⟩
  | c :: cs, w, hw, hholds, hcs => by
    obtain ⟨hc, hcs⟩ := List.forall_mem_cons.1 hcs
    rw [keyAll, List.mapM_cons, bind_assoc]
    refine (seek_agrees_envAt hw hholds.output hc).bind ?_
    rintro _ _ ⟨⟨positions, hmoved⟩, rfl⟩
    cases hmoved with
    | move cursors hcursors =>
      rw [bind_assoc]
      refine (Agree.refl _).bind ?_
      rintro key _ rfl
      have hrest := keyAll_agrees s (w := { w with cursors }) ⟨hcursors, hw.keys, hw.results⟩
        ⟨hholds.output, hholds.sortKeys⟩ hcs
      refine hrest.bind ?_
      rintro ⟨rows, w'⟩ _ ⟨rfl, hcovers, hrest⟩
      exact .ok ⟨rfl, List.forall_mem_cons.2 ⟨hc, hcovers⟩, hrest⟩

end Workspace

/-- The arguments do not read the group that is being projected. -/
def Slot.Plain (here : Setting) (slot : Slot Query) : Prop :=
  ∀ p ∈ slot.arguments, ∀ positions number id keys results,
    p.value { here.env positions number id with keys, results } =
      p.value (here.env positions number id)

theorem Accumulator.function_addAll : ∀ {rows : List (List Value)} {a b : Accumulator},
    a.addAll rows = .ok b → b.function = a.function
  | [], a, b, h => by rw [Except.ok.inj h]
  | args :: rows, a, b, h => by
    obtain ⟨mid, hmid, h⟩ := bind_eq_ok_iff.1 h
    rw [function_addAll h, function_add hmid]

theorem locateAll_nil : ∀ providers : List Provider,
    locateAll providers [] = .ok (providers.map fun _ => none)
  | [] => rfl
  | p :: providers => by
    rw [locateAll, locateAll_nil providers]
    rfl

namespace Workspace

variable {here : Setting} {s : Stages Query} {w : Workspace} {c : Combination}
  {cs : List Combination}

theorem Moved.trans {positions positions' : List Position} {w' w'' : Workspace}
    (h : Moved here w positions w') (h' : Moved here w' positions' w'') :
    Moved here w positions' w'' := by
  cases h with
  | move cursors =>
    cases h' with
    | move cursors' hcursors' => exact .move cursors' hcursors'

theorem argumentRows_agrees {slot : Slot Query} (hslot : slot.Plain here) :
    ∀ {cs : List Combination} {w : Workspace}, w.On here → (∀ c ∈ cs, Covers here c) →
    Agree (fun r rows => r.1 = rows ∧ ∃ positions, Moved here w positions r.2)
      (argumentRows here slot cs w) (Stages.slotRows here w.output.length w.lastId slot cs)
  | [], w, hw, _ => .ok ⟨rfl, _, .move w.cursors hw⟩
  | c :: cs, w, hw, hcs => by
    obtain ⟨hc, hcs⟩ := List.forall_mem_cons.1 hcs
    rw [argumentRows, Stages.slotRows, List.mapM_cons, bind_assoc]
    refine (seek_agrees hw hc).bind ?_
    rintro _ _ ⟨cursors, hcursors⟩
    have hrow : (slot.arguments.mapM fun p => evaluate here p { w with cursors }) =
        slot.arguments.mapM fun p =>
          p.value (here.env (cursors.map Cursor.position) w.output.length w.lastId) :=
      mapM_congr_forall₂ (List.forall₂_same.2 fun p hp => hslot p hp _ _ _ _ _)
    rw [hrow]
    refine (Agree.refl _).bind ?_
    rintro row _ rfl
    have hrest := argumentRows_agrees hslot (w := { w with cursors }) hcursors hcs
    refine hrest.bind ?_
    rintro ⟨rows, w'⟩ _ ⟨rfl, positions, hmoved⟩
    exact .ok ⟨rfl, positions, .trans (.move cursors hcursors) hmoved⟩

theorem argumentsAll_agrees : ∀ {slots : List (Slot Query)} {w : Workspace}, w.On here →
    (∀ slot ∈ slots, slot.Plain here) → (∀ c ∈ cs, Covers here c) →
    Agree (fun r rows => r.1 = rows ∧ rows.length = slots.length ∧
        ∃ positions, Moved here w positions r.2)
      (argumentsAll here cs slots w)
      (slots.mapM fun slot => Stages.slotRows here w.output.length w.lastId slot cs)
  | [], w, hw, _, _ => .ok ⟨rfl, rfl, _, .move w.cursors hw⟩
  | slot :: slots, w, hw, hslots, hcs => by
    obtain ⟨hslot, hslots⟩ := List.forall_mem_cons.1 hslots
    rw [argumentsAll, List.mapM_cons]
    refine (argumentRows_agrees hslot hw hcs).bind ?_
    rintro ⟨rows, _⟩ _ ⟨rfl, _, ⟨cursors, hcursors⟩⟩
    have hrest := argumentsAll_agrees (w := { w with cursors }) hcursors hslots hcs
    refine hrest.bind ?_
    rintro ⟨more, w'⟩ _ ⟨rfl, hlength, positions, hmoved⟩
    exact .ok ⟨rfl, congrArg (· + 1) hlength, positions, .trans (.move cursors hcursors) hmoved⟩

/-- Nothing is left in an accumulator of the rows that it took in for another group. -/
theorem accumulateAll_agrees : ∀ {accumulators : List Accumulator}
    {rows : List (List (List Value))}, rows.length = accumulators.length →
    Agree (fun as results => as.map Accumulator.result = results ∧
        as.map Accumulator.function = accumulators.map Accumulator.function)
      (accumulateAll accumulators rows)
      (((accumulators.map Accumulator.function).zip rows).mapM fun p => do
        .ok (← (Accumulator.empty p.1).addAll p.2).result)
  | [], [], _ => .ok ⟨rfl, rfl⟩
  | a :: accumulators, rows :: more, hlength => by
    have hrest := accumulateAll_agrees (Nat.succ.inj hlength)
    rw [accumulateAll, List.map_cons, List.zip_cons_cons, List.mapM_cons, bind_assoc]
    cases hadd : a.reset.addAll rows with
    | error e =>
      rw [Accumulator.reset] at hadd
      simp only [hadd, error_bind]
      exact .error e
    | ok b =>
      have hb := Accumulator.function_addAll hadd
      rw [Accumulator.reset, Accumulator.function_empty] at hb
      rw [Accumulator.reset] at hadd
      simp only [hadd, ok_bind]
      refine hrest.bind ?_
      rintro as results ⟨rfl, hfunctions⟩
      exact .ok ⟨rfl, by rw [List.map_cons, hb, hfunctions]⟩

/-- The cursors go to the first member of a group, or to rows of NULLs if there is none. -/
theorem seekFirst_agrees (hw : w.On here) (hcs : ∀ c ∈ cs, Covers here c) :
    Agree (fun w' positions => Moved here w positions w') (seekFirst cs w)
      (locateAll here.providers (cs.head?.getD [])) := by
  cases cs with
  | cons c cs => exact seek_agrees hw (hcs c List.mem_cons_self)
  | nil =>
    have hproviders : (w.cursors.map Cursor.clear).map Cursor.provider = here.providers := by
      rw [List.map_map]
      exact hw
    have hpositions : (here.providers.map fun _ => none : List Position) =
        (w.cursors.map Cursor.clear).map Cursor.position := by
      rw [← hw, List.map_map, List.map_map]
      rfl
    rw [List.head?_nil, Option.getD_none, locateAll_nil, hpositions]
    exact .ok (.move _ hproviders)

variable {functions : List AggregateFunction} {accumulators : List Accumulator}
  {done : List Projected} {g : Group Combination}

/-- **Projection of a group** does not depend on what the accumulators and the workspace took in for
groups before it. -/
theorem projectGroup_agrees (hw : w.On here) (hdone : w.Holds done)
    (hfunctions : accumulators.map Accumulator.function = functions)
    (hlength : accumulators.length = s.aggregates.length)
    (hslots : ∀ slot ∈ s.aggregates, slot.Plain here) (hg : ∀ c ∈ g.members, Covers here c) :
    Agree (fun r row => r.1.map Accumulator.function = functions ∧ r.2.On here ∧
        r.2.Holds (done ++ [row]))
      (w.projectGroup here s g accumulators) (s.projectGroup here functions done g) := by
  have hlast : w.lastId = (done.getLast?.map fun p => p.row.id).getD beforeFirst := by
    rw [lastId, hdone.output, List.getLast?_map, Option.map_map]
    rfl
  have harguments := argumentsAll_agrees hw hslots hg
  rw [hlast, hdone.output, List.length_map] at harguments
  rw [projectGroup, Stages.projectGroup]
  refine harguments.bind ?_
  rintro ⟨rows, _⟩ _ ⟨rfl, hrows, _, ⟨cursors, hcursors⟩⟩
  rw [← hfunctions]
  refine (accumulateAll_agrees (hrows.trans hlength.symm)).bind ?_
  rintro as _ ⟨rfl, has⟩
  have hseek := seekFirst_agrees (w := { w with
    cursors, results := as.map Accumulator.result, keys := g.key }) hcursors hg
  refine hseek.bind ?_
  rintro _ _ ⟨cursors', hcursors'⟩
  have henv : env here (push { w with
        cursors := cursors', results := as.map Accumulator.result, keys := g.key }) =
      { here.env (cursors'.map Cursor.position) (done.length + 1)
          (primaryId (cursors'.map Cursor.position)) with
        keys := g.key, results := as.map Accumulator.result } := by
    rw [env, lastId_concat (w := push _) rfl]
    simp only [push, List.length_append, List.length_singleton, hdone.output, List.length_map]
  have hrow := projectRow_agrees { w with
    cursors := cursors', results := as.map Accumulator.result, keys := g.key } here s
  rw [henv] at hrow
  rw [← bind_pure (s.project _)]
  refine hrow.bind ?_
  rintro _ row rfl
  have hdone' : Holds { w with
      cursors := cursors', results := as.map Accumulator.result, keys := g.key } done :=
    ⟨hdone.output, hdone.sortKeys⟩
  exact .ok ⟨has, hcursors', hdone'.withRow row⟩

theorem projectGroups_agrees : ∀ {gs : List (Group Combination)} {accumulators : List Accumulator}
    {done : List Projected} {w : Workspace}, w.On here → w.Holds done →
    accumulators.map Accumulator.function = functions →
    functions.length = s.aggregates.length → (∀ slot ∈ s.aggregates, slot.Plain here) →
    (∀ g ∈ gs, ∀ c ∈ g.members, Covers here c) →
    Agree (fun w' rows => w'.Holds rows) (w.projectGroups here s gs accumulators)
      (s.projectGroups here functions done gs)
  | [], _, _, _, _, hdone, _, _, _, _ => .ok hdone
  | g :: gs, accumulators, done, w, hw, hdone, hfunctions, hlength, hslots, hgs => by
    obtain ⟨hg, hgs⟩ := List.forall_mem_cons.1 hgs
    have hlength' : accumulators.length = s.aggregates.length := by
      rw [← hlength, ← hfunctions, List.length_map]
    rw [projectGroups, Stages.projectGroups]
    refine (projectGroup_agrees hw hdone hfunctions hlength' hslots hg).bind ?_
    rintro ⟨accumulators', w'⟩ row ⟨hfunctions', hw', hdone'⟩
    exact projectGroups_agrees hw' hdone' hfunctions' hlength hslots hgs

/-! ### The passes together -/

theorem Holds.dropBlank {rows : List Projected} (h : w.Holds rows) (nothingKept : Bool) :
    (w.dropBlank nothingKept).Holds (SqlEngine.dropBlank nothingKept rows) := by
  match rows, h with
  | [], h =>
    rw [Workspace.dropBlank, h.output]
    exact h
  | [row], h =>
    simp only [Workspace.dropBlank, h.output, List.map_cons, List.map_nil, SqlEngine.dropBlank]
    split
    · exact ⟨rfl, rfl⟩
    · exact h
  | _ :: _ :: _, h =>
    rw [Workspace.dropBlank, h.output]
    exact h

/-- The members of groups are among the rows that are grouped. -/
theorem covers_of_groupRows {keyed : List (List Value × Combination)}
    (h : ∀ r ∈ keyed, Covers here r.2) : ∀ g ∈ groupRows keyed, ∀ c ∈ g.members, Covers here c := by
  have hself : List.Forall₂ (fun r r' : List Value × Combination => r.1 = r'.1 ∧
      Covers here r.2) keyed keyed := List.forall₂_same.2 fun r hr => ⟨rfl, h r hr⟩
  intro g hg c hc
  obtain ⟨g', -, hrel⟩ := exists_mem_of_forall₂
    (groupRows_rel (R := fun c _ => Covers here c) hself).flip hg
  obtain ⟨c', -, hcovers⟩ := exists_mem_of_forall₂ hrel.members.flip hc
  exact hcovers

theorem project_agrees {kept : List Combination} (hw : w.Ready here) (hholds : w.Holds [])
    (hslots : ∀ slot ∈ s.aggregates, slot.Plain here) (hkept : ∀ c ∈ kept, Covers here c) :
    Agree (fun w' rows => w'.Holds rows) (w.project here s kept) (s.projectAll here kept) := by
  rw [project, Stages.projectAll]
  by_cases haggregated : s.aggregated = true
  · rw [if_pos haggregated, if_pos haggregated, Stages.collect, bind_assoc]
    refine (keyAll_agrees s hw hholds hkept).bind ?_
    rintro ⟨keyed, w'⟩ _ ⟨rfl, hcovers, hw', hholds'⟩
    rw [ok_bind]
    cases hfunctions : s.aggregates.mapM (Slot.function here.catalog) with
    | error e => exact .error e
    | ok functions =>
      refine projectGroups_agrees hw' hholds' ?_ (mapM_eq_ok_iff.1 hfunctions).length_eq.symm hslots
        ?_
      · rw [List.map_map]
        exact List.map_id'' Accumulator.function_empty functions
      · split
        · intro g hg
          rw [List.mem_singleton.1 hg]
          exact List.forall_mem_nil _
        · exact covers_of_groupRows hcovers
  · rw [if_neg haggregated, if_neg haggregated]
    exact projectAll_agrees s hw hholds hkept

/-- **All passes in one workspace** give the rows of the query, wherever the cursors are in the
beginning and however the hash is chosen. -/
theorem run_eq (hash : List Digest → UInt64) {start : List Cursor}
    (hstart : start.map Cursor.provider = here.providers) (hcs : ∀ c ∈ cs, Covers here c)
    (hslots : ∀ slot ∈ s.aggregates, slot.Plain here) :
    run hash here s start cs = keep here s.filter cs >>= s.finish here := by
  have hready : Ready ⟨start, [], [], [], []⟩ here := ⟨hstart, rfl, rfl⟩
  have hkeep := keepAll_agrees s.filter hready ⟨rfl, rfl⟩ hcs
  refine Agree.eq (hkeep.with_right.bind ?_)
  rintro ⟨kept, w⟩ _ ⟨⟨rfl, hw, hholds⟩, hkept⟩
  have hcovers : ∀ c ∈ kept, Covers here c := fun c hc => hcs c ((keep_sublist hkept).subset hc)
  refine (project_agrees hw hholds hslots hcovers).bind fun w rows hrows => ?_
  have hfinal := hrows.dropBlank kept.isEmpty
  have hfinish : finish hash s.distinct (s.orderBy.map SortKey.ascending) s.limit
        (w.dropBlank kept.isEmpty).output (w.dropBlank kept.isEmpty).sortKeys =
      arrange s.distinct (s.orderBy.map SortKey.ascending) s.limit
        (SqlEngine.dropBlank kept.isEmpty rows) := by
    rw [hfinal.output, hfinal.sortKeys, finish_eq_arrange]
  exact .ok hfinish

end Workspace

end SqlEngine
