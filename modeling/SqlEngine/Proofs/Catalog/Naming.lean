import SqlEngine.Proofs.Catalog.Registry

/-!
# Catalogs — names and ids

A `Catalog` is a registry seen through its tables: the index is a search by name, and the providers
stand with their tables (`Registry.catalog`).  So what a registry keeps is kept by a catalog.

* `Registry.Kept.catalog_perform`: a call does to a catalog what it does to the registry, with the
  same answer or the same error.
* `Registry.Sound`: what holds after any calls, whatever providers do when they are set up.
* `Catalog.names_and_ids_stay`: all of this, from a registry without tables on.
-/

namespace SqlEngine

namespace Registry

/-! ### The catalog of a registry -/

/-- The table that an entry describes. -/
def tableOf (r : Registry Provider) (t : TableEntry) : Table :=
  ⟨t.name, t.columns.map ColumnEntry.toColumn, r.provider? t.id⟩

/-- The catalog with the tables of a registry. -/
def catalog (base : Catalog) (r : Registry Provider) : Catalog :=
  { base with tables := r.tables.map r.tableOf }

end Registry

/-- Setting up a provider for a table is binding it. -/
def Provider.setUp (_ : Registry Provider) (t : TableEntry) (p : Provider) :
    Except Error Provider :=
  p.bind t.name t.columns.length

namespace Catalog

/-- The operation of a catalog that a call stands for. -/
def perform (c : Catalog) : Registry.Call Provider → Except Error (Registry.Answer × Catalog)
  | .addTable name              => (c.addTable name).map fun r => (.table r.1, r.2)
  | .addColumn table column     =>
    (c.addColumn table column.name column.type).map fun r => (.column r.1, r.2)
  | .createTable name columns p => (c.createTable name columns p).map fun r => (.table r.1, r.2)
  | .attach table p             => (c.attach table p).map fun c => (.attached, c)

/-- The catalog after a call; one that fails gives no new catalog. -/
def after (c : Catalog) (call : Registry.Call Provider) : Catalog :=
  match c.perform call with
  | .ok r    => r.2
  | .error _ => c


end Catalog

namespace Registry

variable {r : Registry Provider} (base : Catalog)

theorem getElem?_catalog (r : Registry Provider) (id : Nat) :
    (r.catalog base).tables[id]? = r.tables[id]?.map r.tableOf :=
  List.getElem?_map

theorem Kept.catalog_distinct (h : r.Kept) : (r.catalog base).Distinct := by
  simp only [Catalog.Distinct, Catalog.names, catalog, List.map_map]
  exact List.pairwise_map.2 h.tableNames

/-- A name finds the same table in both. -/
theorem Kept.catalog_findTable? (h : r.Kept) (name : String) :
    (r.catalog base).findTable? name = (r.findTable? name).map fun t => (t.id, r.tableOf t) := by
  cases hfound : r.findTable? name with
  | some t =>
    obtain ⟨hmem, hname⟩ := h.findTable?_eq_some_iff.1 hfound
    obtain ⟨id, ht⟩ := List.mem_iff_getElem?.1 hmem
    have hc : (r.catalog base).tables[id]? = some (r.tableOf t) := by
      rw [getElem?_catalog, ht, Option.map_some]
    have hself := (h.catalog_distinct base).findTable? hc
    rw [Catalog.findTable?, show (r.tableOf t).name = t.name from rfl, hname] at hself
    rw [Catalog.findTable?, hself, Option.map_some, h.tableIds id t ht]
  | none =>
    rw [Option.map_none]
    cases hc : (r.catalog base).findTable? name with
    | none => rfl
    | some found =>
      have ht := Catalog.getElem?_of_findTable? hc
      rw [getElem?_catalog, Option.map_eq_some_iff] at ht
      obtain ⟨t, ht, hshown⟩ := ht
      have hname := Catalog.lower_of_findTable? hc
      rw [← hshown] at hname
      rw [h.findTable?_eq_some_iff.2 ⟨List.mem_of_getElem? ht, hname⟩] at hfound
      cases hfound

theorem Kept.catalog_provider? (h : r.Kept) (id : Nat) :
    (r.catalog base).provider? id = r.providers[id]? := by
  rw [Catalog.provider?, getElem?_catalog]
  cases ht : r.tables[id]? with
  | some t => rw [Option.map_some, Option.bind_some, tableOf, h.tableIds id t ht, provider?]
  | none =>
    rw [Option.map_none, Option.bind_none]
    cases hp : r.providers[id]? with
    | none => rfl
    | some p =>
      have hlt := h.providers id p hp
      rw [List.getElem?_eq_none_iff] at ht
      omega

/-! ### Calls on both -/

theorem Kept.catalog_register (h : r.Kept) (name : String) (columns : Columns) :
    (r.register name columns).catalog base =
      { r.catalog base with tables := (r.catalog base).tables ++ [⟨name, columns, none⟩] } := by
  have hnone : r.providers[r.tables.length]? = none := by
    cases hp : r.providers[r.tables.length]? with
    | none => rfl
    | some p => exact absurd (h.providers _ p hp) (Nat.lt_irrefl _)
  have hnew : (r.register name columns).tableOf (.made r.tables.length name columns) =
      ⟨name, columns, none⟩ := by
    simp only [tableOf, TableEntry.toColumn_made]
    exact congrArg _ hnone
  have htables : (r.register name columns).tables =
      r.tables ++ [.made r.tables.length name columns] := rfl
  rw [catalog, htables, List.map_append, List.map_singleton, hnew]
  rfl

theorem Kept.catalog_provide (h : r.Kept) (id : Nat) (p : Provider) :
    (r.provide id p).catalog base = (r.catalog base).setProvider id p := by
  have htables : ((r.provide id p).catalog base).tables =
      ((r.catalog base).setProvider id p).tables := by
    refine List.ext_getElem? fun i => ?_
    rw [getElem?_catalog, Catalog.setProvider, Catalog.modify, List.getElem?_modify,
      getElem?_catalog]
    have hentry : (r.provide id p).tables[i]? = r.tables[i]? := rfl
    rw [hentry]
    cases ht : r.tables[i]? with
    | none => rfl
    | some t =>
      have hid := h.tableIds i t ht
      by_cases hi : id = i
      · simp [tableOf, provider?, Registry.provide, hid, hi]
      · simp [tableOf, provider?, Registry.provide, hid, hi, Std.ExtHashMap.getElem?_insert]
  exact congrArg (fun tables => { base with tables := tables }) htables

theorem catalog_setTable {table : Nat} {t : TableEntry} (ht : r.tables[table]? = some t)
    (column : Column) :
    (r.setTable table (t.append column)).catalog base =
      (r.catalog base).modify table fun t => { t with columns := t.columns ++ [column] } := by
  have htables : ((r.setTable table (t.append column)).catalog base).tables =
      ((r.catalog base).modify table
        fun t => { t with columns := t.columns ++ [column] }).tables := by
    refine List.ext_getElem? fun i => ?_
    rw [getElem?_catalog, getElem?_setTable ht, Catalog.modify, List.getElem?_modify,
      getElem?_catalog]
    by_cases hi : i = table
    · subst hi
      simp [ht, tableOf, provider?, setTable, TableEntry.append]
    · rw [if_neg hi]
      cases r.tables[i]? with
      | none => rfl
      | some t' => simp [Ne.symm hi, tableOf, provider?, setTable]
  exact congrArg (fun tables => { base with tables := tables }) htables

/-- The last table gets its first provider. -/
theorem setProvider_concat (c : Catalog) (name : String) (columns : Columns) (p : Provider) :
    Catalog.setProvider { c with tables := c.tables ++ [⟨name, columns, none⟩] } c.tables.length p =
      { c with tables := c.tables ++ [⟨name, columns, some p⟩] } := by
  simp [Catalog.setProvider, Catalog.modify, List.modify_eq_set_getElem?]

theorem catalog_expectTable {id : Nat} :
    (r.catalog base).expectTable id =
      match r.tables[id]? with
      | some t => .ok (r.tableOf t)
      | none   => .error (.internal (.unknownTable id)) := by
  rw [Catalog.expectTable, getElem?_catalog]
  cases r.tables[id]? <;> rfl

theorem isSome_catalog_findTable? (h : r.Kept) (name : String) :
    ((r.catalog base).findTable? name).isSome = (r.findTable? name).isSome := by
  rw [h.catalog_findTable? base, Option.isSome_map]

theorem length_catalog_tables (r : Registry Provider) :
    (r.catalog base).tables.length = r.tables.length :=
  List.length_map _

/-- The outcome of a call, seen in the catalog. -/
def outcomeIn (base : Catalog) :
    Except Error Answer × Registry Provider → Except Error (Answer × Catalog)
  | (.ok a, r)    => .ok (a, r.catalog base)
  | (.error e, _) => .error e

theorem Kept.catalog_addTable (h : r.Kept) (name : String) :
    (r.catalog base).perform (.addTable name) =
      outcomeIn base (r.perform Provider.setUp (.addTable name)) := by
  have hfound := isSome_catalog_findTable? base h name
  rw [h.findTable?_isSome] at hfound
  cases hindex : r.index[Text.lower name]? with
  | some id =>
    rw [Std.ExtHashMap.contains_eq_isSome_getElem?, hindex] at hfound
    simp only [Catalog.perform, Catalog.addTable, hfound, Registry.perform, addTable,
      Std.ExtHashMap.contains_eq_isSome_getElem?, hindex]
    rfl
  | none =>
    rw [Std.ExtHashMap.contains_eq_isSome_getElem?, hindex] at hfound
    rw [Registry.perform, addTable_of_new hindex]
    simp only [Catalog.perform, Catalog.addTable, hfound, length_catalog_tables]
    exact congrArg (fun c => Except.ok (Answer.table r.tables.length, c))
      (h.catalog_register base name []).symm

theorem Kept.catalog_addColumn (h : r.Kept) (table : Nat) (column : Column) :
    (r.catalog base).perform (.addColumn table column) =
      outcomeIn base (r.perform Provider.setUp (.addColumn table column)) := by
  simp only [Catalog.perform, Catalog.addColumn, catalog_expectTable, Registry.perform, addColumn]
  cases ht : r.tables[table]? with
  | none => rfl
  | some t =>
    have hindex : ((r.tableOf t).columns.index? column.name).isSome =
        (t.columnIndex? column.name).isSome := by
      simp only [Columns.index?, tableOf, t.isSome_columnIndex?, List.findIdx?_isSome,
        List.any_map, Function.comp_def]
    simp only [ok_bind, hindex]
    by_cases hsome : (t.columnIndex? column.name).isSome = true
    · simp only [if_pos hsome]
      rfl
    · have hnew : ∀ c ∈ t.columns, ¬ Text.sameName c.name column.name := by
        rw [t.isSome_columnIndex?, List.any_eq_true] at hsome
        exact fun c hc hsame => hsome ⟨c, hc, hsame⟩
      have hadd := addColumn_of_new ht (h.tableIds table t ht) hnew
      have hlength : (r.tableOf t).columns.length = t.columns.length := List.length_map _
      simp only [addColumn, ht] at hadd
      rw [hadd, if_neg hsome, hlength]
      exact congrArg (fun c => Except.ok (Answer.column t.columns.length, c))
        (catalog_setTable base ht column).symm

theorem Kept.catalog_createTable (h : r.Kept) (name : String) (columns : Columns) (p : Provider) :
    (r.catalog base).perform (.createTable name columns p) =
      outcomeIn base (r.perform Provider.setUp (.createTable name columns p)) := by
  have hfound := isSome_catalog_findTable? base h name
  rw [Registry.perform, h.createTable_eq]
  simp only [Catalog.perform, Catalog.createTable, Catalog.checkNew, hfound]
  cases htable : r.findTable? name with
  | some t => rfl
  | none =>
    cases hrepeated : Columns.repeatedName? [] (columns.map Column.name) with
    | some column => rfl
    | none =>
      have hbind : Provider.setUp (r.register name columns)
          (.made r.tables.length name columns) p = p.bind name columns.length := by
        simp only [Provider.setUp, TableEntry.made, List.length_mapIdx]
      rw [hbind]
      cases p.bind name columns.length with
      | error e => rfl
      | ok p' =>
        have hkept := h.register (h.index_eq_none htable)
          (Columns.distinct_of_repeatedName? hrepeated)
        have hprovide := hkept.catalog_provide base r.tables.length p'
        rw [h.catalog_register base name columns, ← length_catalog_tables base,
          setProvider_concat] at hprovide
        rw [← length_catalog_tables base]
        exact congrArg (fun c => Except.ok (Answer.table (r.catalog base).tables.length, c))
          hprovide.symm

theorem Kept.catalog_attach (h : r.Kept) (table : Nat) (p : Provider) :
    (r.catalog base).perform (.attach table p) =
      outcomeIn base (r.perform Provider.setUp (.attach table p)) := by
  simp only [Catalog.perform, Catalog.attach, catalog_expectTable, Registry.perform, attach]
  cases ht : r.tables[table]? with
  | none => rfl
  | some t =>
    have hbind : Provider.setUp r t p =
        p.bind (r.tableOf t).name (r.tableOf t).columns.length := by
      simp only [Provider.setUp, tableOf, List.length_map]
    simp only [ok_bind, ← hbind]
    cases Provider.setUp r t p with
    | error e => rfl
    | ok p' =>
      exact congrArg (fun c => Except.ok (Answer.attached, c))
        (h.catalog_provide base table p').symm

/-- **A call does the same to a registry and to its catalog.** -/
theorem Kept.catalog_perform (h : r.Kept) (call : Call Provider) :
    (r.catalog base).perform call = outcomeIn base (r.perform Provider.setUp call) := by
  cases call with
  | addTable name => exact h.catalog_addTable base name
  | addColumn table column => exact h.catalog_addColumn base table column
  | createTable name columns p => exact h.catalog_createTable base name columns p
  | attach table p => exact h.catalog_attach base table p

/-- A catalog without tables is that of a registry without tables. -/
theorem catalog_empty (name : String) : empty.catalog (Catalog.named name) = Catalog.named name :=
  rfl

theorem Kept.catalog_after (h : r.Kept) (call : Call Provider) :
    (r.catalog base).after call = (r.perform Provider.setUp call).2.catalog base := by
  rw [Catalog.after, h.catalog_perform base call]
  rcases h.perform_cases Provider.setUp call with ⟨e, hcall⟩ | ⟨a, r', hcall, -⟩
  · rw [hcall]
    rfl
  · rw [hcall]
    rfl

theorem Kept.catalog_run (h : r.Kept) (calls : List (Call Provider)) :
    calls.foldl Catalog.after (r.catalog base) = (r.run Provider.setUp calls).catalog base := by
  induction calls generalizing r with
  | nil => rfl
  | cons call calls ih =>
    rw [List.foldl_cons, h.catalog_after base call]
    exact ih (h.perform Provider.setUp call)

/-! ### What holds after any calls -/

/-- What holds of a registry, and of the calls that come next. -/
structure Sound {P : Type} (setUp : Registry P → TableEntry → P → Except Error P)
    (r : Registry P) : Prop where
  tableIds : ∀ (i : Nat) (t : TableEntry), r.tables[i]? = some t → t.id = i
  columnIds : ∀ t ∈ r.tables, ∀ (i : Nat) (c : ColumnEntry),
    t.columns[i]? = some c → c.id = i ∧ c.table = t.id
  tableNames : r.tables.Pairwise fun a b => Text.lower a.name ≠ Text.lower b.name
  columnNames : ∀ t ∈ r.tables, t.columns.Pairwise fun a b => ¬ Text.sameName a.name b.name
  /-- The index leads from every name in small letters to its table, and nowhere else. -/
  index : ∀ (key : String) (id : Nat),
    r.index[key]? = some id ↔ ∃ t, r.tables[id]? = some t ∧ Text.lower t.name = key
  findTable : ∀ (name : String) (t : TableEntry),
    r.findTable? name = some t ↔ t ∈ r.tables ∧ Text.lower t.name = Text.lower name
  /-- A call that fails leaves the tables, the index and the providers as they were. -/
  unchanged : ∀ (call : Call P) (e : Error),
    (r.perform setUp call).1 = .error e → (r.perform setUp call).2 = r
  /-- What a call makes goes by the id that the call gives, whatever comes later. -/
  names : ∀ (call : Call P) (a : Answer), (r.perform setUp call).1 = .ok a →
    ∀ later : List (Call P), ((r.perform setUp call).2.run setUp later).Names call a
  /-- A table keeps the provider it was made with until another one is attached to it. -/
  provider : ∀ (name : String) (columns : Columns) (p : P) (id : Nat),
    (r.createTable setUp name columns p).1 = .ok id →
    ∃ p', setUp (r.register name columns) (.made id name columns) p = .ok p' ∧
      ∀ later : List (Call P), (r.createTable setUp name columns p).2.Untouched setUp id later →
        ((r.createTable setUp name columns p).2.run setUp later).providers[id]? = some p'

theorem Kept.sound {P : Type} {setUp : Registry P → TableEntry → P → Except Error P}
    {r : Registry P} (h : r.Kept) : Sound setUp r where
  tableIds := h.tableIds
  columnIds := h.columnIds
  tableNames := h.tableNames
  columnNames := h.columnNames
  index := h.index
  findTable := fun _ _ => h.findTable?_eq_some_iff
  unchanged := fun _ _ => h.perform_of_error
  names := by
    intro call a ha later
    have hstep := h.step_of_ok ha
    exact (h.names_of_step hstep).extends ((h.step hstep).extends_run setUp later)
  provider := by
    intro name columns p id hid
    have hok : (r.perform setUp (.createTable name columns p)).1 = .ok (.table id) := by
      rw [Registry.perform, Prod.map_fst, hid]
      rfl
    have hstep : Step setUp r (.createTable name columns p) (.table id)
        (r.createTable setUp name columns p).2 := h.step_of_ok hok
    generalize (r.createTable setUp name columns p).2 = r' at hstep ⊢
    have hkept := h.step hstep
    cases hstep with
    | @createTable _ _ _ p' hnew hcolumns hp =>
      refine ⟨p', hp, fun later huntouched => hkept.providers_run ?_ huntouched⟩
      rw [Registry.provide, Std.ExtHashMap.getElem?_insert_self]

/-- What a catalog and a registry have in common: their tables and providers, what each name finds,
and what each call does. -/
structure Alike (base : Catalog) (r : Registry Provider) (c : Catalog) : Prop where
  tables : c = r.catalog base
  findTable : ∀ name, c.findTable? name = (r.findTable? name).map fun t => (t.id, r.tableOf t)
  provider : ∀ id : Nat, c.provider? id = r.providers[id]?
  perform : ∀ call, c.perform call = outcomeIn base (r.perform Provider.setUp call)

end Registry

/-- **Names and ids stay.**  After any calls on a registry without tables, of which some may fail
and whatever providers do when they are set up: ids are positions, names are different, each name
finds the table it belongs to, a call that fails changes nothing, and ids and providers stay with
what they were given to.  The same calls on a catalog without tables lead to the catalog of that
registry, with the same answers and errors. -/
theorem Catalog.names_and_ids_stay :
    (∀ (P : Type) (setUp : Registry P → TableEntry → P → Except Error P)
      (calls : List (Registry.Call P)), (Registry.empty.run setUp calls).Sound setUp) ∧
    ∀ (name : String) (calls : List (Registry.Call Provider)),
      (Registry.empty.run Provider.setUp calls).Alike (Catalog.named name)
        (calls.foldl Catalog.after (Catalog.named name)) := by
  refine ⟨fun P setUp calls => (Registry.kept_empty.run setUp calls).sound, fun name calls => ?_⟩
  have hkept := Registry.kept_empty.run Provider.setUp calls
  have hrun := Registry.kept_empty.catalog_run (Catalog.named name) calls
  rw [Registry.catalog_empty] at hrun
  constructor
  case tables => exact hrun
  all_goals rw [hrun]
  case findTable => exact hkept.catalog_findTable? _
  case provider => exact hkept.catalog_provider? _
  case perform => exact hkept.catalog_perform _

end SqlEngine
