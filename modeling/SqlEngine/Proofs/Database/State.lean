import Mathlib
import SqlEngine.Database.Basic
import SqlEngine.Proofs.Plan.Combination
import SqlEngine.Proofs.Statement.Formed

/-!
# Database — reachable states

A database is reachable when it comes from a new one by running texts.  Its catalog is then *sound*
(`Catalog.Sound`): it has the built-in functions, and every table is in memory, has columns of known
types and rows of these types.

A statement evaluates everything before its first change, and what it checks then is what the
changes need.  So in a sound catalog it either fails and changes nothing, or does all it has to do
(`Statement.execute_steps`).

* `Database.Reachable.sound`: reachable databases have sound catalogs.
* `Database.Reachable.eq_of_error`: a text that fails leaves a reachable database as it was.
-/

namespace SqlEngine

/-! ### Sound catalogs -/

/-- The types of the columns. -/
def Table.types (t : Table) : List DataType :=
  t.columns.map Column.type

/-- A table in memory, with columns of known types. -/
structure Table.Sound (t : Table) : Prop where
  known : ∀ τ ∈ t.types, τ ≠ .null
  memory : ∃ m, t.provider = some (.memory m) ∧ m.Sound t.types

structure Catalog.Sound (c : Catalog) : Prop where
  functions : c.functions = Function.builtins
  tables : ∀ t ∈ c.tables, t.Sound

/-- What a statement may do in a catalog: it fails and changes nothing, or it succeeds with a sound
catalog. -/
inductive Catalog.Steps (c : Catalog) : Outcome → Prop
  | failed (e : Error) : Steps c (.error e, c)
  | done (out : Output) {c' : Catalog} (h : c'.Sound) : Steps c (.ok out, c')

/-- The statement has succeeded, with a sound catalog. -/
def Outcome.Done (o : Outcome) : Prop :=
  ∃ out c', o = (.ok out, c') ∧ c'.Sound

variable {c : Catalog} {t : Table} {id : Nat} {p : Provider} {now : Date.Instant}

/-- A statement that succeeds whenever it can be prepared. -/
theorem Catalog.steps_outcome {α : Type} {prepared : Except Error α} {run : α → Outcome}
    (h : ∀ a, prepared = .ok a → (c.outcome prepared run).Done) :
    c.Steps (c.outcome prepared run) := by
  cases prepared with
  | error e => exact .failed e
  | ok a =>
    obtain ⟨out, c', hout, hsound⟩ := h a rfl
    rw [hout]
    exact .done out hsound

theorem Table.types_getElem? {i : Nat} {column : Column} (h : t.columns[i]? = some column) :
    t.types[i]? = some column.type := by
  rw [Table.types, List.getElem?_map, h]
  rfl

theorem Catalog.sound_named (name : String) : (Catalog.named name).Sound where
  functions := rfl
  tables := nofun

namespace Catalog.Sound

theorem table (h : c.Sound) (ht : c.tables[id]? = some t) : t.Sound :=
  h.tables t (List.mem_of_getElem? ht)

theorem setProvider (h : c.Sound) (ht : c.tables[id]? = some t) {m : MemoryTable}
    (hm : m.Sound t.types) : (c.setProvider id (.memory m)).Sound where
  functions := h.functions
  tables t' ht' := by
    obtain ⟨j, hj⟩ := List.mem_iff_getElem?.1 ht'
    simp only [Catalog.setProvider, Catalog.modify, List.getElem?_modify] at hj
    obtain ⟨old, hold, rfl⟩ := Option.map_eq_some_iff.1 hj
    have hsound := h.table hold
    split
    next heq =>
      subst heq
      obtain rfl := Option.some.inj (hold.symm.trans ht)
      exact ⟨hsound.known, m, rfl, hm⟩
    next => exact hsound

end Catalog.Sound

/-! ### Changes of rows -/

/-- When each change can be made after those before it, all are made.  The invariant speaks of the
changes that are left. -/
theorem Provider.changeAll_ok {α : Type} {change : Provider → α → Except Error Provider}
    {I : Provider → List α → Prop}
    (hstep : ∀ p a as, I p (a :: as) → ∃ p', change p a = .ok p' ∧ I p' as) :
    ∀ {as : List α} {p : Provider}, I p as → ∃ p', p.changeAll change as = (.ok (), p') ∧ I p' []
  | [], p, h => ⟨p, rfl, h⟩
  | a :: as, p, h => by
    obtain ⟨next, hnext, hI⟩ := hstep p a as h
    obtain ⟨p', hp', hI'⟩ := changeAll_ok hstep hI
    exact ⟨p', by simp only [Provider.changeAll, hnext, hp'], hI'⟩

/-- Changes that can all be made leave a sound catalog. -/
theorem Catalog.Sound.changeRows_done {α : Type} (h : c.Sound) (ht : c.tables[id]? = some t)
    {change : Provider → α → Except Error Provider} {I : MemoryTable → List α → Prop}
    (hsound : ∀ m as, I m as → m.Sound t.types)
    (hstep : ∀ m a as, I m (a :: as) → ∃ m', change (.memory m) a = .ok (.memory m') ∧ I m' as)
    {m : MemoryTable} {as : List α} (hm : I m as) :
    (c.changeRows id (.memory m) change as).Done := by
  have hprovider : ∀ p a as, (∃ m, p = .memory m ∧ I m (a :: as)) →
      ∃ p', change p a = .ok p' ∧ ∃ m, p' = .memory m ∧ I m as := by
    rintro p a as ⟨m, rfl, hI⟩
    obtain ⟨m', hm', hI'⟩ := hstep m a as hI
    exact ⟨_, hm', m', rfl, hI'⟩
  obtain ⟨p, hp, m', rfl, hI⟩ :=
    Provider.changeAll_ok (I := fun p as => ∃ m, p = .memory m ∧ I m as) hprovider ⟨m, rfl, hm⟩
  simp only [Catalog.changeRows, hp]
  exact ⟨_, _, rfl, h.setProvider ht (hsound m' [] hI)⟩

/-! ### What a statement has checked -/

theorem Catalog.expectTable_eq_ok (h : c.expectTable id = .ok t) : c.tables[id]? = some t := by
  simp only [Catalog.expectTable] at h
  split at h
  next t' ht' => exact ht'.trans (congrArg some (Except.ok.inj h))
  next => cases h

theorem Catalog.expectTarget_eq_ok {target : Option Nat} {name : String}
    (h : c.expectTarget target name = .ok (id, t)) :
    target = some id ∧ c.tables[id]? = some t := by
  cases target with
  | none => cases h
  | some i =>
    simp only [Catalog.expectTarget, bind_eq_ok_iff] at h
    obtain ⟨t', ht', h⟩ := h
    obtain ⟨rfl, rfl⟩ := Prod.mk.inj (Except.ok.inj h)
    exact ⟨rfl, expectTable_eq_ok ht'⟩

theorem Catalog.expectProvider_eq_ok {name : String} (h : c.expectProvider id name = .ok p)
    (ht : c.tables[id]? = some t) : t.provider = some p := by
  simp only [Catalog.expectProvider] at h
  split at h
  next p' hp' =>
    obtain rfl := Except.ok.inj h
    simpa only [Catalog.provider?, ht, Option.bind_some] using hp'
  next => cases h

theorem Table.expectColumnAt_eq_ok {i : Nat} {column : Column}
    (h : t.expectColumnAt i = .ok column) : t.columns[i]? = some column := by
  simp only [Table.expectColumnAt] at h
  split at h
  next column' hcolumn => exact hcolumn.trans (congrArg some (Except.ok.inj h))
  next => cases h

theorem Column.requireFit_eq_ok {column : Column} {v : Value} {u : Unit}
    (h : column.requireFit v = .ok u) : v.fits column.type = true := by
  simp only [Column.requireFit] at h
  split at h
  next hfits => exact hfits
  next => cases h

/-- The provider that a statement works on is the memory of a sound table. -/
theorem Catalog.Sound.target (h : c.Sound) {target : Option Nat} {name : String}
    (htarget : c.expectTarget target name = .ok (id, t))
    (hp : c.expectProvider id name = .ok p) :
    c.tables[id]? = some t ∧ ∃ m, p = .memory m ∧ t.provider = some (.memory m) ∧
      m.Sound t.types := by
  obtain ⟨-, ht⟩ := Catalog.expectTarget_eq_ok htarget
  obtain ⟨m, hm, hsound⟩ := (h.table ht).memory
  have heq := hm.symm.trans (Catalog.expectProvider_eq_ok hp ht)
  exact ⟨ht, m, (Option.some.inj heq).symm, hm, hsound⟩

/-- A value that passed the check at run time has the type of the column. -/
theorem Table.Sound.fits_cons (ht : t.Sound) {i : Nat} {column : Column} {v : Value} {u : Unit}
    (hcolumn : t.expectColumnAt i = .ok column) (hv : column.requireFit v = .ok u)
    {change : Change} (h : change.Fits t.types) : Change.Fits ((i, v) :: change) t.types := by
  have hτ := Table.types_getElem? (Table.expectColumnAt_eq_ok hcolumn)
  refine List.forall_mem_cons.2 ⟨⟨_, hτ, ?_⟩, h⟩
  exact Value.hasType_of_fits (ht.known _ (List.mem_of_getElem? hτ)) (Column.requireFit_eq_ok hv)

/-! ### INSERT -/

theorem Insert.rowChange_fits (ht : t.Sound) :
    ∀ {es : List Expr} {positions : List Nat} {change : Change},
    Insert.rowChange c now t es positions = .ok change → change.Fits t.types
  | e :: es, i :: positions, change, h => by
    simp only [Insert.rowChange, bind_eq_ok_iff] at h
    obtain ⟨q, -, v, -, column, hcolumn, fits, hfits, rest, hrest, h⟩ := h
    obtain rfl := Except.ok.inj h
    exact ht.fits_cons hcolumn hfits (rowChange_fits ht hrest)
  | [], _, _, h | _ :: _, [], _, h => by
    simp only [Insert.rowChange, Except.ok.injEq] at h
    subst h
    exact Change.fits_nil _

/-- An INSERT that can be prepared succeeds. -/
theorem Insert.execute_done (h : c.Sound) {s : Insert} {prepared : Nat × Provider × List Change}
    (hprepared : s.prepareRows c now = .ok prepared) : (s.execute c now).Done := by
  rw [Insert.execute, hprepared]
  simp only [Insert.prepareRows, bind_eq_ok_iff] at hprepared
  obtain ⟨⟨id, t⟩, htarget, rows, hrows, p, hp, hprepared⟩ := hprepared
  obtain rfl := Except.ok.inj hprepared
  obtain ⟨ht, m, rfl, -, hsound⟩ := h.target htarget hp
  have hfits : ∀ change ∈ rows, Change.Fits change t.types := by
    intro change hchange
    obtain ⟨row, -, hrow⟩ := exists_mem_of_forall₂ (mapM_eq_ok_iff.1 hrows) hchange
    exact Insert.rowChange_fits (h.table ht) hrow
  refine h.changeRows_done ht (I := fun m rows => m.Sound t.types ∧
    ∀ change ∈ rows, Change.Fits change t.types) (fun m _ hI => hI.1) ?_ ⟨hsound, hfits⟩
  rintro m change rows ⟨hm, hrows⟩
  obtain ⟨m', hm', hsound'⟩ := hm.insert (hrows change List.mem_cons_self)
  exact ⟨m', by simp only [Provider.insert, hm']; rfl, hsound',
    fun change hchange => hrows change (List.mem_cons_of_mem _ hchange)⟩

/-! ### UPDATE and DELETE -/

/-- The rows that WHERE keeps are rows of the table, each of them once. -/
theorem Table.matchingRows_eq_ok {filter : Option Expr} {here : Setting} {kept : List Combination}
    (h : t.matchingRows c now id filter = .ok (here, kept)) (ht : c.tables[id]? = some t) :
    ∃ p, t.provider = some p ∧ here.providers = [p] ∧
      kept.Sublist (p.rowIds.map fun id => [some id]) := by
  simp only [Table.matchingRows, bind_eq_ok_iff] at h
  obtain ⟨p, hp, program, -, cs, hcs, rows, hrows, h⟩ := h
  obtain ⟨rfl, rfl⟩ := Prod.mk.inj (Except.ok.inj h)
  obtain rfl := Except.ok.inj hcs
  exact ⟨p, Catalog.expectProvider_eq_ok hp ht, rfl, keep_sublist hrows⟩

/-- The change of a row is for the row that the combination names, and fits its columns. -/
theorem Update.rowChange_eq_ok (ht : t.Sound) {here : Setting} {m : MemoryTable}
    (hm : here.providers = [.memory m])
    {assignments : List (Nat × Column × Program Query)}
    (hassignments : ∀ a ∈ assignments, t.expectColumnAt a.1 = .ok a.2.1) {row : Combination}
    (hrow : row ∈ (Provider.memory m).rowIds.map fun id => [some id]) {r : RowId × Change}
    (h : Update.rowChange here assignments row = .ok r) : r.1 ∈ m.ids ∧ r.2.Fits t.types := by
  simp only [Update.rowChange, bind_eq_ok_iff] at h
  obtain ⟨env, henv, change, hchange, h⟩ := h
  obtain rfl := Except.ok.inj h
  constructor
  -- the combination has one part, which is a row of the table
  · obtain ⟨id, hid, rfl⟩ := List.mem_map.1 hrow
    obtain ⟨-, hmem⟩ := Entries.mem_of_mem_idsAfter hid
    obtain ⟨old, hold⟩ : ∃ old, m.rows.at? id = some old := Entries.exists_at? hmem
    simp only [Setting.envAt, hm, locateAll, Provider.locate, Provider.seek, hold, ok_bind] at henv
    obtain rfl := Except.ok.inj henv
    exact hmem
  -- each value has passed the check of its column
  · have hall := mapM_eq_ok_iff.1 hchange
    clear hchange henv h
    induction hall with
    | nil => exact Change.fits_nil _
    | @cons a b as bs hab _ ih =>
      obtain ⟨ha, has⟩ := List.forall_mem_cons.1 hassignments
      obtain ⟨i, column, program⟩ := a
      simp only [Column.evaluate, bind_eq_ok_iff] at hab
      obtain ⟨v, ⟨v', -, fits, hfits, hv⟩, hb⟩ := hab
      obtain rfl := Except.ok.inj hv
      obtain rfl := Except.ok.inj hb
      exact ht.fits_cons ha hfits (ih has)

/-- The columns of the programs are columns of the table. -/
theorem Update.expectColumnAt_of_assignment {resolved : List Assignment}
    {programs : List (Nat × Column × Program Query)}
    (h : resolved.mapM (Update.assignment c now t) = .ok programs) :
    ∀ a ∈ programs, t.expectColumnAt a.1 = .ok a.2.1 := by
  intro a ha
  obtain ⟨source, -, hsource⟩ := exists_mem_of_forall₂ (mapM_eq_ok_iff.1 h) ha
  simp only [Update.assignment, bind_eq_ok_iff] at hsource
  obtain ⟨column, hcolumn, program, -, hsource⟩ := hsource
  obtain rfl := Except.ok.inj hsource
  exact hcolumn

/-- An UPDATE that can be prepared succeeds. -/
theorem Update.execute_done (h : c.Sound) {s : Update}
    {prepared : Nat × Provider × List (RowId × Change)}
    (hprepared : s.prepareRows c now = .ok prepared) : (s.execute c now).Done := by
  rw [Update.execute, hprepared]
  simp only [Update.prepareRows, bind_eq_ok_iff] at hprepared
  obtain ⟨⟨id, t⟩, htarget, assignments, hassignments, ⟨here, kept⟩, hkept, changes, hchanges,
    p, hp, hprepared⟩ := hprepared
  obtain rfl := Except.ok.inj hprepared
  obtain ⟨ht, m, rfl, hm, hsound⟩ := h.target htarget hp
  obtain ⟨p, hp, hproviders, hsub⟩ := Table.matchingRows_eq_ok hkept ht
  obtain rfl := Option.some.inj (hm.symm.trans hp)
  have hcolumns := expectColumnAt_of_assignment hassignments
  have hall : ∀ r ∈ changes, r.1 ∈ m.ids ∧ r.2.Fits t.types := by
    intro r hr
    obtain ⟨row, hrow, hchange⟩ := exists_mem_of_forall₂ (mapM_eq_ok_iff.1 hchanges) hr
    exact Update.rowChange_eq_ok (h.table ht) hproviders hcolumns (hsub.subset hrow) hchange
  refine h.changeRows_done ht (I := fun m changes => m.Sound t.types ∧
    ∀ r ∈ changes, r.1 ∈ m.ids ∧ r.2.Fits t.types) (fun m _ hI => hI.1) ?_ ⟨hsound, hall⟩
  rintro m r changes ⟨hm, hchanges⟩
  obtain ⟨⟨hid, hfits⟩, hrest⟩ := List.forall_mem_cons.1 hchanges
  obtain ⟨m', hm', hsound', hids⟩ := hm.update hid hfits
  exact ⟨m', by simp only [Provider.update, hm']; rfl, hsound',
    fun r hr => ⟨hids _ (hrest r hr).1, (hrest r hr).2⟩⟩

/-- A DELETE that can be prepared succeeds. -/
theorem Delete.execute_done (h : c.Sound) {s : Delete} {prepared : Nat × Provider × List RowId}
    (hprepared : s.prepareRows c now = .ok prepared) : (s.execute c now).Done := by
  rw [Delete.execute, hprepared]
  simp only [Delete.prepareRows, bind_eq_ok_iff] at hprepared
  obtain ⟨⟨id, t⟩, htarget, ⟨here, kept⟩, hkept, p, hp, hprepared⟩ := hprepared
  obtain rfl := Except.ok.inj hprepared
  obtain ⟨ht, m, rfl, hm, hsound⟩ := h.target htarget hp
  obtain ⟨p, hp, -, hsub⟩ := Table.matchingRows_eq_ok hkept ht
  obtain rfl := Option.some.inj (hm.symm.trans hp)
  have hids : (kept.filterMap fun row => row.head?.join).Sublist (Provider.memory m).rowIds := by
    have hmap : ∀ ids : List RowId,
        (ids.map fun id => [some id]).filterMap (fun row : Combination => row.head?.join) =
          ids := by
      intro ids
      rw [List.filterMap_map]
      exact List.filterMap_some
    exact hmap (Provider.memory m).rowIds ▸ hsub.filterMap _
  have hpairwise := (Entries.pairwise_idsAfter m.rows beforeFirst).sublist hids
  -- the ids that are left differ from those that are gone
  refine h.changeRows_done ht (I := fun m ids => m.Sound t.types ∧ ids.Pairwise (· < ·) ∧
    ∀ id ∈ ids, id ∈ m.ids) (fun m _ hI => hI.1) ?_
    ⟨hsound, hpairwise, fun id hid => (Entries.mem_of_mem_idsAfter (hids.subset hid)).2⟩
  rintro m id ids ⟨hm, hpairwise, hmem⟩
  obtain ⟨hlt, hpairwise⟩ := List.pairwise_cons.1 hpairwise
  obtain ⟨hid, hmem⟩ := List.forall_mem_cons.1 hmem
  obtain ⟨before, m', hm', hsound', hkeeps⟩ := hm.delete hid
  exact ⟨m', by simp only [Provider.delete, hm']; rfl, hsound', hpairwise,
    fun j hj => hkeeps j (hmem j hj) (Int.ne_of_gt (hlt j hj))⟩

/-! ### CREATE TABLE -/

/-- The columns of a new table have known types. -/
def Statement.KnownColumns : Statement → Prop
  | .create s => ∀ column ∈ s.columns, column.type ≠ .null
  | _         => True

/-- A CREATE TABLE of a table that may be made succeeds. -/
theorem Create.execute_done (h : c.Sound) {s : Create}
    (hs : ∀ column ∈ s.columns, column.type ≠ .null)
    (hnew : c.checkNew s.table (s.columns.map ColumnClause.name) = .ok ()) :
    (s.execute c).Done := by
  have hnames : (s.columns.map fun column => Column.mk column.name column.type).map Column.name =
      s.columns.map ColumnClause.name := by
    rw [List.map_map]
    rfl
  -- what was checked are the names of the clauses, and the catalog checks those of the columns
  rw [← hnames] at hnew
  rw [Create.execute]
  generalize hcolumns : s.columns.map (fun column => Column.mk column.name column.type) = columns
    at hnew
  simp only [Catalog.createTable, hnew, ok_bind, Provider.bind, Catalog.outcome]
  refine ⟨_, _, rfl, h.functions, fun t ht => ?_⟩
  rcases List.mem_append.1 ht with ht | ht
  · exact h.tables t ht
  · obtain rfl := List.mem_singleton.1 ht
    refine ⟨fun τ hτ => ?_, _, rfl, ?_⟩
    · obtain ⟨column, hcolumn, rfl⟩ := List.mem_map.1 hτ
      rw [← hcolumns] at hcolumn
      obtain ⟨clause, hclause, rfl⟩ := List.mem_map.1 hcolumn
      exact hs clause hclause
    · have hsound := MemoryTable.sound_empty (columns.map Column.type)
      rw [List.length_map] at hsound
      exact hsound

theorem Create.execute_steps (h : c.Sound) {s : Create}
    (hs : ∀ column ∈ s.columns, column.type ≠ .null) : c.Steps (s.execute c) := by
  refine Catalog.steps_outcome fun created hcreated => Create.execute_done h hs ?_
  simp only [Catalog.createTable, bind_eq_ok_iff, List.map_map] at hcreated
  obtain ⟨u, hnew, -⟩ := hcreated
  exact hnew

/-! ### All statements -/

/-- **What a statement does in a sound catalog**: it fails and changes nothing, or it succeeds with
a sound catalog. -/
theorem Statement.execute_steps (h : c.Sound) {s : Statement} (hs : s.KnownColumns) :
    c.Steps (s.execute c now) := by
  cases s with
  | select s =>
    simp only [Statement.execute]
    cases s.execute c now with
    | error e => exact .failed e
    | ok out => exact .done out h
  | insert s => exact Catalog.steps_outcome fun _ hprepared => Insert.execute_done h hprepared
  | update s => exact Catalog.steps_outcome fun _ hprepared => Update.execute_done h hprepared
  | delete s => exact Catalog.steps_outcome fun _ hprepared => Delete.execute_done h hprepared
  | create s => exact Create.execute_steps h hs

namespace Database

variable {db : Database} {text : String}

/-- The states that a new database comes to by running texts. -/
inductive Reachable : Database → Prop
  | new (config : Config) : Reachable (ofConfig config)
  | execute {db : Database} (h : Reachable db) (now : Date.Instant) (text : String) :
      Reachable (db.execute now text).2

/-- A prepared statement was read and resolved. -/
theorem exists_of_prepare {s : Statement} (h : db.prepare text = .ok s) :
    ∃ read : Statement, read.Formed ∧ read.resolve db.catalog = .ok s := by
  simp only [prepare, Statement.prepare, bind_eq_ok_iff] at h
  obtain ⟨read, hread, hresolve⟩ := h
  exact ⟨read, Statement.parse_formed hread, hresolve⟩

theorem knownColumns_of_prepare {s : Statement} (h : db.prepare text = .ok s) :
    s.KnownColumns := by
  obtain ⟨read, hread, hresolve⟩ := exists_of_prepare h
  cases read with
  | create q =>
    simp only [Statement.resolve, Create.resolve, bind_eq_ok_iff] at hresolve
    obtain ⟨_, ⟨-, -, hq⟩, hs⟩ := hresolve
    obtain rfl := Except.ok.inj hq
    obtain rfl := Except.ok.inj hs
    exact hread
  | select | insert | update | delete =>
    simp only [Statement.resolve, bind_eq_ok_iff] at hresolve
    obtain ⟨_, -, hs⟩ := hresolve
    obtain rfl := Except.ok.inj hs
    trivial

/-- What running a text does to a database with a sound catalog. -/
theorem execute_steps (h : db.catalog.Sound) (now : Date.Instant) (text : String) :
    db.catalog.Steps ((db.execute now text).1, (db.execute now text).2.catalog) := by
  simp only [execute, Catalog.run, Catalog.outcome]
  cases hprepare : Statement.prepare db.config.parser db.catalog text with
  | error e => exact .failed e
  | ok s => exact Statement.execute_steps h (knownColumns_of_prepare hprepare)

/-- **Reachable databases have sound catalogs.** -/
theorem Reachable.sound (h : Reachable db) : db.catalog.Sound := by
  induction h with
  | new config => exact Catalog.sound_named _
  | @execute db h now text ih =>
    generalize hoc : ((db.execute now text).1, (db.execute now text).2.catalog) = outcome
    have hsteps := execute_steps ih now text
    rw [hoc] at hsteps
    cases hsteps with
    | failed e => exact (Prod.mk.inj hoc).2 ▸ ih
    | done out hsound => exact (Prod.mk.inj hoc).2 ▸ hsound

/-- **A text that fails changes nothing** in a reachable database. -/
theorem Reachable.eq_of_error (h : Reachable db) {now : Date.Instant} {e : Error}
    (herror : (db.execute now text).1 = .error e) : (db.execute now text).2 = db := by
  have hsteps := execute_steps h.sound now text
  rw [herror] at hsteps
  have hcatalog : (db.execute now text).2.catalog = db.catalog := by
    generalize (db.execute now text).2.catalog = c at hsteps
    cases hsteps
    rfl
  obtain ⟨catalog, config⟩ := db
  exact congrArg (Database.mk · config) hcatalog

/-- A database with one table, which has one row. -/
def flags : Database :=
  let new := ofConfig {}
  let created := (new.execute ⟨0, 0⟩ "CREATE TABLE flags (flag BOOLEAN)").2
  (created.execute ⟨0, 0⟩ "INSERT INTO flags VALUES (FALSE)").2

/-- The second row of the INSERT fails, and the first one is not added. -/
theorem flags_eq_of_failed_insert :
    (flags.execute ⟨0, 0⟩ "INSERT INTO flags VALUES (TRUE), (TRUE AND NULL)").1 =
        .error (.typeMismatch .and .boolean .null) ∧
      (flags.execute ⟨0, 0⟩ "INSERT INTO flags VALUES (TRUE), (TRUE AND NULL)").2 = flags := by
  have hreachable : Reachable flags := .execute (.execute (.new {}) _ _) _ _
  have herror : (flags.execute ⟨0, 0⟩ "INSERT INTO flags VALUES (TRUE), (TRUE AND NULL)").1 =
      .error (.typeMismatch .and .boolean .null) := by cbv
  exact ⟨herror, hreachable.eq_of_error herror⟩

end Database

end SqlEngine
