import SqlEngine.Proofs.Database.Changes
import SqlEngine.Proofs.Database.Names
import SqlEngine.Proofs.Database.Typing
import SqlEngine.Proofs.Plan.Phases
import SqlEngine.Proofs.Plan.Places
import SqlEngine.Proofs.Resolution.Conditions

/-!
# Databases — SELECT, DELETE and UPDATE pick the same rows

A SELECT runs a plan, while a DELETE and an UPDATE match the rows of their table directly.  With one
condition on one table they are about the same rows nevertheless, since both come to the same
filtering pass (`Table.pickedBy`) over the same rows in the same setting.  So a SELECT shows
beforehand what a DELETE is going to remove.

* `Select.execute_numbers`, `Delete.execute_where`, `Update.execute_where`: each statement in terms
  of the rows that its filter picks.
* `Database.Reachable.exists_sameRows`: the three texts in a reachable database.
-/

namespace SqlEngine

variable {c : Catalog} {t : Table} {id d : Nat} {o : ParserOptions} {now : Date.Instant}
  {w f : String}

/-! ### What is picked -/

namespace Table

/-- The ids of the rows that a condition keeps. -/
def pickedBy (c : Catalog) (now : Date.Instant) (id : Nat) (t : Table) (filter : Option Expr) :
    Except Error (List RowId) := do
  let (_, kept) ← t.matchingRows c now id filter
  .ok (kept.filterMap fun row => row.head?.join)

/-- The ids of the rows for which a text is TRUE. -/
def picked (c : Catalog) (o : ParserOptions) (now : Date.Instant) (id : Nat) (t : Table)
    (f : String) : Except Error (List RowId) := do
  t.pickedBy c now id (← t.condition c o f)

end Table

section Run

variable {m : MemoryTable} {filter : Option Expr} {ids : List RowId}

/-- Where the table is the one source. -/
def Table.here (c : Catalog) (now : Date.Instant) (m : MemoryTable) : Setting :=
  ⟨c, [], [.memory m], now⟩

/-- What WHERE keeps of the rows of a table. -/
theorem Table.matchingRows_eq (hid : c.tables[id]? = some t) (hm : t.provider = some (.memory m)) :
    t.matchingRows c now id filter =
      (do
        let program ← Expr.programOption c filter
        let kept ← keep (Table.here c now m) (Program.queriesOption c now program)
          ((Provider.memory m).rowIds.map fun id => [some id])
        .ok (Table.here c now m, kept)) := by
  have hp : c.provider? id = some (.memory m) := by
    rw [Catalog.provider?, hid, Option.bind_some, hm]
  simp only [Table.matchingRows, Catalog.expectProvider, hp, ok_bind]
  rfl

theorem Table.pickedBy_moved (d : Nat) (filter : Option Expr) :
    t.pickedBy c now id (Expr.movedOption d filter) = t.pickedBy c now id filter := by
  simp only [pickedBy, matchingRows, Expr.programOption_moved]

/-- Either the condition fails on some row, or it picks rows of the table. -/
theorem Table.pickedBy_cases (hid : c.tables[id]? = some t) (hm : t.provider = some (.memory m))
    (now : Date.Instant) (filter : Option Expr) :
    (∃ e, t.matchingRows c now id filter = .error e ∧ t.pickedBy c now id filter = .error e) ∨
      ∃ ids : List RowId, ids.Sublist (Provider.memory m).rowIds ∧
        t.matchingRows c now id filter = .ok (Table.here c now m, ids.map fun i => [some i]) ∧
        t.pickedBy c now id filter = .ok ids := by
  rw [pickedBy, matchingRows_eq hid hm]
  cases Expr.programOption c filter with
  | error e => exact .inl ⟨e, rfl, rfl⟩
  | ok program =>
    rw [ok_bind]
    cases hkept : keep (Table.here c now m) (Program.queriesOption c now program)
      ((Provider.memory m).rowIds.map fun id => [some id]) with
    | error e => exact .inl ⟨e, rfl, rfl⟩
    | ok kept =>
      obtain ⟨ids, hids, rfl⟩ := List.sublist_map_iff.1 (keep_sublist hkept)
      refine .inr ⟨ids, hids, rfl, ?_⟩
      simp only [ok_bind, List.filterMap_map]
      exact congrArg Except.ok List.filterMap_some

theorem Table.nodup_of_sublist (h : ids.Sublist (Provider.memory m).rowIds) : ids.Nodup :=
  ((Entries.pairwise_idsAfter m.rows beforeFirst).sublist h).imp Int.ne_of_lt

theorem Table.mem_ids_of_sublist (h : ids.Sublist (Provider.memory m).rowIds) :
    ∀ i ∈ ids, i ∈ m.ids :=
  fun _ hi => (Entries.mem_of_mem_idsAfter (h.subset hi)).2

/-! ### SELECT -/

/-- The stages of a SELECT of a number for each row of a table. -/
def Stages.ofNumber {Q : Type} (x : Float) (id : Nat) (t : Table) (source : String)
    (filter : Option (Program Q)) : Stages Q where
  sources := [.table id t.columns.length]
  joins := []
  filter := filter
  outputs := [⟨[.number x, .out], []⟩]
  columns := [⟨source, .number⟩]
  groupBy := []
  aggregates := []
  orderBy := []
  distinct := false
  limit := none
  aggregated := false

theorem Select.compile_ofNumber (hid : c.tables[id]? = some t) (x : Float) (text source : String)
    (offset tableOffset start : Nat) (filter : Option Expr) :
    Select.compile c ⟨text, false, [.ofNumber x source offset],
        some (.table t.name none (some id) tableOffset), [], filter, [], [], none, start⟩ =
      (Expr.programOption c filter).map fun program =>
        .of (.ofNumber x id t source program) := by
  have hsupply : Source.supplies c (some (.table t.name none (some id) tableOffset)) =
      .ok [.table id t.columns.length] := by
    simp only [Source.supplies, Source.supply, Option.bind_some, hid, Option.map_some, ok_bind]
  have haggregate : (Select.mk text false [.ofNumber x source offset]
      (some (.table t.name none (some id) tableOffset)) [] filter [] [] none
      start).isAggregate = false := rfl
  have houtput : Expr.outputPrograms c none [] [.ofNumber x source offset] =
      .ok ([⟨[.number x, .out], []⟩], []) := by
    have hemit : (Expr.ofNumber x source offset).emit c none ⟨[], []⟩ =
        .ok ⟨[.number x], ⟨[], []⟩⟩ := by
      simp only [Expr.ofNumber, Expr.emit, Expr.keyIndex?, Option.bind_none, Node.emitAll,
        Node.emit, Node.keyIndex?, ok_bind]
      rfl
    simp only [Expr.outputPrograms, hemit]
    rfl
  simp only [Select.compile, hsupply, ok_bind, Join.supplies, Join.steps, Expr.programs,
    OrderKey.sortKeys, haggregate, Bool.false_eq_true, if_false, houtput]
  cases Expr.programOption c filter <;> rfl

/-- The rows of the SELECT are the kept ones. -/
theorem Stages.projectRows_ofNumber {x : Float} {source : String} :
    ∀ {ids : List RowId} (number : Nat), (∀ i ∈ ids, ∃ row, m.rows.at? i = some row) →
    (Stages.ofNumber x id t source none).projectRows (Table.here c now m) number
      (ids.map fun i => [some i]) = .ok (ids.map fun i => ⟨⟨i, [.number x]⟩, []⟩)
  | [], _, _ => rfl
  | i :: ids, number, h => by
    obtain ⟨⟨row, hrow⟩, h⟩ := List.forall_mem_cons.1 h
    have henv : (Table.here c now m).envFor [some i] number =
        .ok ((Table.here c now m).env [some (i, row)] number i) := by
      simp only [Setting.envFor, Table.here, locateAll, Provider.locate, Provider.seek, hrow,
        ok_bind]
      rfl
    simp only [List.map_cons, Stages.projectRows, henv, ok_bind,
      projectRows_ofNumber (number + 1) h]
    rfl

/-- None of these rows is blank, and nothing is left to arrange. -/
theorem arrange_ofNumber (x : Float) (nothingKept : Bool) (ids : List RowId) :
    arrange false [] none (dropBlank nothingKept (ids.map fun i => ⟨⟨i, [.number x]⟩, []⟩)) =
      ids.map fun i => ⟨i, [.number x]⟩ := by
  have hdrop : dropBlank nothingKept (ids.map fun i => ⟨⟨i, [.number x]⟩, []⟩) =
      ids.map fun i => ⟨⟨i, [.number x]⟩, []⟩ := by
    match ids with
    | []          => rfl
    | [_]         => cases nothingKept <;> rfl
    | _ :: _ :: _ => rfl
  rw [hdrop]
  simp only [arrange, sortRows, Bool.false_eq_true, if_false, List.isEmpty_nil, if_true,
    List.map_map]
  rfl

theorem Stages.rows_ofNumber (hid : c.tables[id]? = some t) (hm : t.provider = some (.memory m))
    (x : Float) (source : String) (filter : Option (Program Query)) :
    (Stages.ofNumber x id t source filter).rows c now [] =
      (do
        let kept ← keep (Table.here c now m) filter
          ((Provider.memory m).rowIds.map fun id => [some id])
        let projected ← (Stages.ofNumber x id t source none).projectRows (Table.here c now m) 1 kept
        .ok (arrange false [] none (dropBlank kept.isEmpty projected))) := by
  have hp : c.provider? id = some (.memory m) := by
    rw [Catalog.provider?, hid, Option.bind_some, hm]
  have hsetting : (Stages.ofNumber x id t source filter).setting c now [] =
      .ok (Table.here c now m) := by
    simp only [Stages.setting, Stages.ofNumber, List.mapM_cons, List.mapM_nil, Supply.materialize,
      Supply.provider, hp, ok_bind, pure_bind]
    rfl
  simp only [Stages.rows, hsetting, ok_bind,
    ← projectRows_from (.ofNumber x id t source none) [.table id t.columns.length] [] filter]
  rfl

/-- The SELECT matches the rows as a change does, and then projects them. -/
theorem Select.execute_ofNumber (hid : c.tables[id]? = some t)
    (hm : t.provider = some (.memory m)) (x : Float) (text source : String)
    (offset tableOffset start : Nat) (filter : Option Expr) :
    Select.execute c now ⟨text, false, [.ofNumber x source offset],
        some (.table t.name none (some id) tableOffset), [], filter, [], [], none, start⟩ =
      (do
        let (here, kept) ← t.matchingRows c now id filter
        let projected ← (Stages.ofNumber x id t source none).projectRows here 1 kept
        let rows := arrange false [] none (dropBlank kept.isEmpty projected)
        .ok ⟨[⟨source, .number⟩], rows, 0⟩) := by
  have hquery (program : Option (Program Plan)) :
      Plan.query c now (.of (.ofNumber x id t source program)) =
        (Stages.ofNumber x id t source (Program.queriesOption c now program)).rows c now := rfl
  rw [Table.matchingRows_eq hid hm, Select.execute, Select.compile_ofNumber hid]
  cases Expr.programOption c filter with
  | error e => rfl
  | ok program =>
    simp only [Except.map, ok_bind, Plan.execute, hquery, Stages.rows_ofNumber hid hm, bind_assoc]
    rfl

/-- The SELECT gives the rows that the condition picks. -/
theorem Select.execute_numbers (hid : c.tables[id]? = some t)
    (hm : t.provider = some (.memory m)) {x : Float} {s : Select} (hs : s.Numbers x id t filter) :
    Apart 0 (fun ids out => out.rows.map OutputRow.id = ids) (t.pickedBy c now id filter)
      (s.execute c now) := by
  obtain ⟨text, source, offset, tableOffset, start, rfl⟩ := hs
  rw [Select.execute_ofNumber hid hm]
  obtain ⟨e, hmatching, hpicked⟩ | ⟨ids, hids, hmatching, hpicked⟩ :=
    Table.pickedBy_cases hid hm now filter
  · rw [hmatching, hpicked]
    exact .error_zero e
  · have hpresent : ∀ i ∈ ids, ∃ row, m.rows.at? i = some row := fun i hi =>
      Entries.exists_at? (Entries.mem_of_mem_idsAfter (hids.subset hi)).2
    simp only [hmatching, hpicked, ok_bind, Stages.projectRows_ofNumber 1 hpresent,
      arrange_ofNumber]
    refine .ok ?_
    rw [List.map_map]
    exact List.map_id ids

/-! ### DELETE -/

/-- What comes out when the rows with these ids are removed: their number, and a table that has all
other rows as they were. -/
def Delete.Removes (c : Catalog) (id : Nat) (m : MemoryTable) (ids : List RowId) (out : Output)
    (c' : Catalog) : Prop :=
  out.affected = ids.length ∧
    c' = c.setProvider id (.memory { m with rows := m.rows.filter fun e => e.1 ∉ ids })

/-- The DELETE removes the rows that the condition picks, and no others. -/
theorem Delete.execute_where (hid : c.tables[id]? = some t)
    (hm : t.provider = some (.memory m)) (text : String) (offset : Nat) (filter : Option Expr) :
    Apart 0 (fun ids out => Delete.Removes c id m ids out
        (Delete.execute c now ⟨text, t.name, some id, filter, offset⟩).2)
      (t.pickedBy c now id filter)
      (Delete.execute c now ⟨text, t.name, some id, filter, offset⟩).1 := by
  have hp : c.expectProvider id t.name = .ok (.memory m) := by
    simp only [Catalog.expectProvider, Catalog.provider?, hid, Option.bind_some, hm]
  obtain ⟨e, hmatching, hpicked⟩ | ⟨ids, hids, hmatching, hpicked⟩ :=
    Table.pickedBy_cases hid hm now filter
  · have hprepare : Delete.prepareRows c now ⟨text, t.name, some id, filter, offset⟩ =
        .error e := by
      simp only [Delete.prepareRows, Catalog.expectTarget_of_getElem? hid, hmatching, ok_bind,
        error_bind]
    simp only [Delete.execute, hprepare, hpicked, Catalog.outcome]
    exact .error_zero e
  · have hprepare : Delete.prepareRows c now ⟨text, t.name, some id, filter, offset⟩ =
        .ok (id, .memory m, ids) := by
      simp only [Delete.prepareRows, Catalog.expectTarget_of_getElem? hid, hmatching, ok_bind, hp,
        List.filterMap_map]
      exact congrArg (fun ids => Except.ok (id, Provider.memory m, ids)) List.filterMap_some
    have hall := MemoryTable.changeAll_delete (Table.nodup_of_sublist hids)
      (Table.mem_ids_of_sublist hids)
    simp only [Delete.execute, hprepare, hpicked, Catalog.outcome, Catalog.changeRows, hall]
    exact .ok ⟨rfl, rfl⟩

/-! ### UPDATE -/

/-- The text is a list of assignments to columns of the table, before a condition; these are their
columns and programs. -/
def Update.Sets (c : Catalog) (o : ParserOptions) (now : Date.Instant) (t : Table)
    (text f : String) (programs : List (Nat × Column × Program Query)) : Prop :=
  ∃ list resolved, Assignment.Whole o text f list ∧
    list.mapM (Assignment.resolve c t) = .ok resolved ∧
    resolved.mapM (Update.assignment c now t) = .ok programs

/-- What comes out when the rows with these ids are given new values: their number, and a table that
has all other rows as they were. -/
def Update.Writes (c : Catalog) (now : Date.Instant) (id : Nat) (m : MemoryTable)
    (programs : List (Nat × Column × Program Query)) (ids : List RowId) (out : Output)
    (c' : Catalog) : Prop :=
  out.affected = ids.length ∧ ∃ changes rows,
    (ids.mapM fun i => rowChange (Table.here c now m) programs [some i]) = .ok changes ∧
      changes.map Prod.fst = ids ∧ m.Written changes rows ∧
      c' = c.setProvider id (.memory { m with rows })

section Update

variable {programs : List (Nat × Column × Program Query)} {changes : List (RowId × Change)}

/-- The values of a row are for that row. -/
theorem Update.rowChange_here {i : RowId} (hi : i ∈ m.ids) {r : RowId × Change}
    (h : Update.rowChange (Table.here c now m) programs [some i] = .ok r) : r.1 = i := by
  obtain ⟨row, hrow⟩ : ∃ row, m.rows.at? i = some row := Entries.exists_at? hi
  simp only [rowChange, Setting.envAt, Table.here, locateAll, Provider.locate, Provider.seek, hrow,
    ok_bind, bind_eq_ok_iff] at h
  obtain ⟨change, -, h⟩ := h
  exact congrArg Prod.fst (Except.ok.inj h).symm

theorem Update.map_fst_of_rowChange (hids : ∀ i ∈ ids, i ∈ m.ids)
    (h : (ids.mapM fun i => Update.rowChange (Table.here c now m) programs [some i]) =
      .ok changes) :
    changes.map Prod.fst = ids := by
  have hall := mapM_eq_ok_iff.1 h
  clear h
  induction hall with
  | nil => rfl
  | cons hrow _ ih =>
    obtain ⟨hi, hids⟩ := List.forall_mem_cons.1 hids
    rw [List.map_cons, Update.rowChange_here hi hrow, ih hids]

theorem Update.mapM_assignment_moved (k : Nat) {resolved : List Assignment} :
    (resolved.map (Assignment.moved k)).mapM (Update.assignment c now t) =
      resolved.mapM (Update.assignment c now t) := by
  refine mapM_congr_forall₂ (List.forall₂_map_right_iff.2 (List.forall₂_same.2 fun a _ => ?_))
  simp only [Update.assignment, Assignment.moved, Expr.program_moved]

/-- The UPDATE writes the rows that the condition picks, and no others. -/
theorem Update.execute_where (ht : t.Sound) (hid : c.tables[id]? = some t)
    (hm : t.provider = some (.memory m)) (hsound : m.Sound t.types) (text : String) (offset : Nat)
    (filter : Option Expr) {assignments : List Assignment}
    (hprograms : assignments.mapM (Update.assignment c now t) = .ok programs)
    (hchanges : ∀ ids, t.pickedBy c now id filter = .ok ids → ∃ changes,
      (ids.mapM fun i => rowChange (Table.here c now m) programs [some i]) = .ok changes) :
    Apart 0 (fun ids out => Writes c now id m programs ids out
        (Update.execute c now ⟨text, t.name, some id, assignments, filter, offset⟩).2)
      (t.pickedBy c now id filter)
      (Update.execute c now ⟨text, t.name, some id, assignments, filter, offset⟩).1 := by
  have hp : c.expectProvider id t.name = .ok (.memory m) := by
    simp only [Catalog.expectProvider, Catalog.provider?, hid, Option.bind_some, hm]
  obtain ⟨e, hmatching, hpicked⟩ | ⟨ids, hids, hmatching, hpicked⟩ :=
    Table.pickedBy_cases hid hm now filter
  · have hprepare : Update.prepareRows c now ⟨text, t.name, some id, assignments, filter, offset⟩ =
        .error e := by
      simp only [Update.prepareRows, Catalog.expectTarget_of_getElem? hid, hprograms, hmatching,
        ok_bind, error_bind]
    simp only [Update.execute, hprepare, hpicked, Catalog.outcome]
    exact .error_zero e
  · obtain ⟨changes, hall⟩ := hchanges ids hpicked
    have hpresent := Table.mem_ids_of_sublist hids
    have hprepare : Update.prepareRows c now ⟨text, t.name, some id, assignments, filter, offset⟩ =
        .ok (id, .memory m, changes) := by
      simp only [Update.prepareRows, Catalog.expectTarget_of_getElem? hid, hprograms, hmatching,
        ok_bind, List.mapM_map, Function.comp_def, hall, hp]
    have hfst := map_fst_of_rowChange hpresent hall
    have hfits : ∀ r ∈ changes, r.1 ∈ m.ids ∧ r.2.Fits t.types := by
      intro r hr
      obtain ⟨i, hi, hrow⟩ := exists_mem_of_forall₂ (mapM_eq_ok_iff.1 hall) hr
      exact Update.rowChange_eq_ok ht rfl (expectColumnAt_of_assignment hprograms)
        (List.mem_map_of_mem (hids.subset hi)) hrow
    obtain ⟨rows, hrows, hwritten⟩ :=
      hsound.changeAll_update (hfst ▸ Table.nodup_of_sublist hids) hfits
    simp only [Update.execute, hprepare, hpicked, Catalog.outcome, Catalog.changeRows, hrows]
    refine .ok ⟨?_, changes, rows, hall, hfst, hwritten, rfl⟩
    rw [← hfst, List.length_map]
    rfl

end Update

end Run

/-! ### All three -/

namespace Database

variable {db : Database} {m : MemoryTable}

/-- A text whose statement depends on the condition alone does what its statement does. -/
theorem execute_apart {text : String} {Q : Option Expr → Statement → Prop}
    {P : List RowId → Output → Catalog → Prop}
    (hprepare : Apart d Q (t.condition db.catalog db.config.parser f) (db.prepare text))
    (hrun : ∀ filter s, t.condition db.catalog db.config.parser f = .ok filter → Q filter s →
      Apart 0 (fun ids out => P ids out (s.execute db.catalog now).2)
        (t.pickedBy db.catalog now id filter) (s.execute db.catalog now).1) :
    ∃ d, Apart d (fun ids out => P ids out (db.execute now text).2.catalog)
      (t.picked db.catalog db.config.parser now id f) (db.execute now text).1 := by
  simp only [execute, Catalog.run, Table.picked]
  rw [prepare] at hprepare
  generalize t.condition db.catalog db.config.parser f = x at hprepare hrun ⊢
  generalize Statement.prepare db.config.parser db.catalog text = y at hprepare ⊢
  cases hprepare with
  | error e => exact ⟨d, .error e⟩
  | ok hQ => exact ⟨0, hrun _ _ rfl hQ⟩

/-- The SELECT, the DELETE and the UPDATE with one condition are about the same rows of a table, or
all fail with one error, which may be at different places of the texts. -/
structure SameRows (db : Database) (now : Date.Instant) (id : Nat) (t : Table) (m : MemoryTable)
    (w f : String) (picked : Except Error (List RowId)) : Prop where
  -- the ids are those of rows of the table, in its order
  rows : ∀ ids, picked = .ok ids → (m.rows.filter fun e => e.1 ∈ ids).map Prod.fst = ids
  select : ∃ d, Apart d (fun ids out => out.rows.map OutputRow.id = ids) picked
    (db.execute now ("SELECT 1 FROM " ++ w ++ " WHERE " ++ f)).1
  delete : ∃ d, Apart d
    (fun ids out => Delete.Removes db.catalog id m ids out
      (db.execute now ("DELETE FROM " ++ w ++ " WHERE " ++ f)).2.catalog)
    picked (db.execute now ("DELETE FROM " ++ w ++ " WHERE " ++ f)).1
  update : ∀ sets programs, Update.Sets db.catalog db.config.parser now t sets f programs →
    (∀ ids, picked = .ok ids → ∃ changes, (ids.mapM fun i => Update.rowChange
      (Table.here db.catalog now m) programs [some i]) = .ok changes) →
    ∃ d, Apart d
      (fun ids out => Update.Writes db.catalog now id m programs ids out
        (db.execute now ("UPDATE " ++ w ++ " SET " ++ sets ++ " WHERE " ++ f)).2.catalog)
      picked (db.execute now ("UPDATE " ++ w ++ " SET " ++ sets ++ " WHERE " ++ f)).1

/-- **SELECT, DELETE and UPDATE pick the same rows**: on a table that is written by its name, with
any condition. -/
theorem Reachable.exists_sameRows (h : Reachable db) (hid : db.catalog.tables[id]? = some t)
    (hw : Tokens.Spells w t.name) (hf : Expr.Whole db.config.parser f) (now : Date.Instant) :
    ∃ m picked, t.provider = some (.memory m) ∧ SameRows db now id t m w f picked := by
  have ht := h.sound.table hid
  obtain ⟨m, hm, hsound⟩ := ht.memory
  have hname := h.findTable?_name hid
  refine ⟨m, t.picked db.catalog db.config.parser now id f, hm, ?_, ?_, ?_, ?_⟩
  · intro ids hids
    obtain ⟨filter, -, hpicked⟩ := bind_eq_ok_iff.1 hids
    obtain ⟨e, -, herror⟩ | ⟨ids', hsub, -, hok⟩ := Table.pickedBy_cases hid hm now filter
    · rw [herror] at hpicked
      cases hpicked
    · obtain rfl := Except.ok.inj (hok.symm.trans hpicked)
      exact hsound.ascending.ids_filter
        ((Entries.pairwise_idsAfter m.rows beforeFirst).sublist hsub)
        (Table.mem_ids_of_sublist hsub)
  · obtain ⟨d, x, hprepare⟩ := Statement.prepare_select hname hw hf
    refine execute_apart (P := fun ids out _ => out.rows.map OutputRow.id = ids) hprepare ?_
    rintro filter _ - ⟨q, rfl, hq⟩
    rw [← Table.pickedBy_moved d]
    exact Select.execute_numbers hid hm hq
  · obtain ⟨d, hprepare⟩ := Statement.prepare_delete hname hw hf
    refine execute_apart (P := Delete.Removes db.catalog id m) hprepare ?_
    rintro filter _ - ⟨text, offset, rfl⟩
    rw [← Table.pickedBy_moved d]
    exact Delete.execute_where hid hm text offset _
  · rintro sets programs ⟨list, resolved, hsets, hresolved, hprograms⟩ hchanges
    obtain ⟨d, k, hprepare⟩ := Statement.prepare_update hname hw hf hsets hresolved
    refine execute_apart (P := Update.Writes db.catalog now id m programs) hprepare ?_
    rintro filter _ hcondition ⟨text, offset, rfl⟩
    rw [← Table.pickedBy_moved d]
    refine Update.execute_where ht hid hm hsound text offset _
      ((Update.mapM_assignment_moved k).trans hprograms) fun ids hids => hchanges ids ?_
    rw [Table.picked, hcondition, ok_bind, ← Table.pickedBy_moved d, hids]

/-- Two lamps of three are lit. -/
def lampRows : MemoryTable :=
  ⟨[(0, [.boolean true]), (1, [.boolean false]), (2, [.boolean true])], 1, 3⟩

def lampTable : Table :=
  ⟨"lamps", [⟨"lit", .boolean⟩], some (.memory lampRows)⟩

def lamps : Database :=
  ⟨⟨"wooby", [lampTable], Function.builtins⟩, {}⟩

theorem reachable_lamps : Reachable lamps := by
  let created := ((ofConfig {}).execute ⟨0, 0⟩ "CREATE TABLE lamps (lit BOOLEAN)").2
  have hinserted : (created.execute ⟨0, 0⟩ "INSERT INTO lamps VALUES (TRUE), (FALSE), (TRUE)").2 =
      lamps := by
    cbv
  exact hinserted ▸ .execute (.execute (.new {}) _ _) _ _

theorem lamps_spelled : Tokens.Spells "lamps" "lamps" :=
  ⟨⟨0, [], "lamps".toList, .name "lamps" true⟩, 5, by cbv, rfl, rfl, rfl, rfl⟩

theorem lit_whole : Expr.Whole {} "lit" := by
  have htokens : Tokens.ofText "lit" =
      .next ⟨0, [], "lit".toList, .name "lit" true⟩ (.finish [] 3) := by
    cbv
  rw [Expr.Whole, htokens]
  refine ⟨rfl, .ofNodes [.column { qualifier := none, column := "lit", offset := 0 }] "lit" 0,
    ⟨.finish [] 3, by decide⟩, ?_, [], 3, rfl⟩
  cbv

/-- Switching lamps off is a list of assignments to columns of the table. -/
theorem lamps_sets : Update.Sets lamps.catalog {} ⟨0, 0⟩ lampTable "lit = FALSE" "lit"
    [(0, ⟨"lit", .boolean⟩, ⟨[.boolean false], []⟩)] := by
  let rest : Tokens := .next ⟨12, [' '], "WHERE".toList, .keyword .whereWord⟩
    (.next ⟨18, [' '], "lit".toList, .name "lit" true⟩ (.finish [] 21))
  have htokens : Tokens.ofText ("lit = FALSE" ++ " WHERE " ++ "lit") =
      .next ⟨0, [], "lit".toList, .name "lit" true⟩
        (.next ⟨4, [' '], "=".toList, .mark .equal⟩
          (.next ⟨6, [' '], "FALSE".toList, .keyword .falseWord⟩ rest)) := by
    cbv
  refine ⟨[⟨"lit", 0, .ofNodes [.boolean false] "FALSE" 6, 0⟩],
    [⟨"lit", 0, ⟨[.boolean false], .boolean, true, false, "FALSE", none, 6⟩, 0⟩],
    ⟨by cbv, ?_⟩, by rfl, by rfl⟩
  rw [htokens]
  exact ⟨⟨rest, by decide⟩, by cbv, by cbv⟩

/-- The rows 0 and 2 are picked: they are selected, deleted, and switched off. -/
theorem lamps_sameRows :
    SameRows lamps ⟨0, 0⟩ 0 lampTable lampRows "lamps" "lit" (.ok [0, 2]) ∧
      ∃ d, Apart d
        (fun ids out => Update.Writes lamps.catalog ⟨0, 0⟩ 0 lampRows
          [(0, ⟨"lit", .boolean⟩, ⟨[.boolean false], []⟩)] ids out
          (lamps.execute ⟨0, 0⟩ "UPDATE lamps SET lit = FALSE WHERE lit").2.catalog)
        (.ok [0, 2]) (lamps.execute ⟨0, 0⟩ "UPDATE lamps SET lit = FALSE WHERE lit").1 := by
  obtain ⟨m, picked, hm, hsame⟩ :=
    reachable_lamps.exists_sameRows (show lamps.catalog.tables[0]? = some lampTable from rfl)
      lamps_spelled lit_whole ⟨0, 0⟩
  obtain rfl : lampRows = m := Provider.memory.inj (Option.some.inj hm)
  -- what the DELETE leaves says which rows were picked
  have hleft : (lamps.execute ⟨0, 0⟩
      ("DELETE FROM " ++ "lamps" ++ " WHERE " ++ "lit")).2.catalog.provider? 0 =
        some (.memory ⟨[(1, [.boolean false])], 1, 3⟩) := by
    cbv
  have hok : (lamps.execute ⟨0, 0⟩
      ("DELETE FROM " ++ "lamps" ++ " WHERE " ++ "lit")).1.isOk = true := by
    cbv
  obtain ⟨d, hdelete⟩ := hsame.delete
  obtain ⟨ids, out, rfl, -, hcatalog⟩ : ∃ ids out, picked = .ok ids ∧
      Delete.Removes lamps.catalog 0 lampRows ids out (lamps.execute ⟨0, 0⟩
        ("DELETE FROM " ++ "lamps" ++ " WHERE " ++ "lit")).2.catalog := by
    generalize (lamps.execute ⟨0, 0⟩ ("DELETE FROM " ++ "lamps" ++ " WHERE " ++ "lit")).1 = x
      at hdelete hok
    cases hdelete with
    | ok h => exact ⟨_, _, rfl, h⟩
    | error => cases hok
  rw [hcatalog] at hleft
  have hrows : lampRows.rows.filter (fun e => e.1 ∉ ids) = [(1, [.boolean false])] :=
    congrArg MemoryTable.rows (Provider.memory.inj (Option.some.inj hleft))
  have hmem : (0 : RowId) ∈ ids ∧ (1 : RowId) ∉ ids ∧ (2 : RowId) ∈ ids := by
    by_cases h₀ : (0 : RowId) ∈ ids <;> by_cases h₁ : (1 : RowId) ∈ ids <;>
      by_cases h₂ : (2 : RowId) ∈ ids <;> simp [lampRows, h₀, h₁, h₂] at hrows ⊢
  obtain rfl : [0, 2] = ids := by
    simpa [lampRows, hmem] using hsame.rows ids rfl
  refine ⟨hsame, hsame.update "lit = FALSE" _ lamps_sets fun ids hids => ?_⟩
  obtain rfl := Except.ok.inj hids
  exact ⟨[(0, [(0, .boolean false)]), (2, [(0, .boolean false)])], by rfl⟩

end Database

end SqlEngine
