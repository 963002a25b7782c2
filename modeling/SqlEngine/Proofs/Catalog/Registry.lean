import Mathlib
import SqlEngine.Proofs.Database.Names

/-!
# Catalogs — the registry

How a catalog keeps its tables: their entries in a list, an index from names in small letters to
ids, and the providers by id.  A table is registered before its provider sees it, and is taken back
when the provider refuses it.  What a provider does when it is bound is not known here; it may look
at the whole registry.

* `Registry.Kept.createTable_eq`: registering, refusing and taking back come to a check before
  anything is registered.
* `Registry.Kept.perform_cases`: a call fails and changes nothing, or it takes a `Step`.
* `Registry.Kept.run`: in every registry that calls lead to, ids are positions, names are different
  and the index finds each table by its name.
* `Registry.Kept.extends_run`, `Registry.Kept.providers_run`: ids and providers stay with their
  tables.
-/

namespace SqlEngine

theorem getElem?_concat_cases {α : Type} {as : List α} {a b : α} {i : Nat}
    (h : (as ++ [a])[i]? = some b) : as[i]? = some b ∨ i = as.length ∧ b = a := by
  rw [List.getElem?_append] at h
  split at h
  · exact .inl h
  · rw [List.getElem?_singleton] at h
    split at h
    · exact .inr ⟨by omega, (Option.some.inj h).symm⟩
    · cases h

/-- A column with its own id and the id of its table. -/
structure ColumnEntry extends Column where
  id : Nat
  table : Nat
deriving DecidableEq, Repr

structure TableEntry where
  id : Nat
  name : String
  columns : List ColumnEntry
deriving DecidableEq, Repr

namespace TableEntry

/-- The entry of a table of the given columns. -/
def made (id : Nat) (name : String) (columns : Columns) : TableEntry :=
  ⟨id, name, columns.mapIdx fun i column => ⟨column, i, id⟩⟩

/-- Adds a column at the end. -/
def append (t : TableEntry) (column : Column) : TableEntry :=
  { t with columns := t.columns ++ [⟨column, t.columns.length, t.id⟩] }

/-- The position of the first column with a name. -/
def columnIndex? (t : TableEntry) (name : String) : Option Nat :=
  t.columns.findIdx? fun c => Text.sameName c.name name

theorem isSome_columnIndex? (t : TableEntry) (name : String) :
    (t.columnIndex? name).isSome = t.columns.any fun c => Text.sameName c.name name :=
  List.findIdx?_isSome

theorem made_append (id : Nat) (name : String) (columns : Columns) (column : Column) :
    (made id name columns).append column = made id name (columns ++ [column]) := by
  simp [made, append, List.mapIdx_concat]

/-- The columns as they were given. -/
theorem toColumn_made (id : Nat) (name : String) (columns : Columns) :
    (made id name columns).columns.map ColumnEntry.toColumn = columns := by
  refine List.ext_getElem? fun i => ?_
  simp only [made, List.getElem?_map, List.getElem?_mapIdx, Option.map_map]
  cases columns[i]? <;> rfl

end TableEntry

/-- Tables with an index of their names, and the providers of tables. -/
structure Registry (P : Type) where
  tables : List TableEntry
  index : Std.ExtHashMap String Nat
  providers : Std.ExtHashMap Nat P

namespace Registry

variable {P : Type} (setUp : Registry P → TableEntry → P → Except Error P)

/-- A registry without tables. -/
def empty : Registry P := ⟨[], ∅, ∅⟩

/-! ### Calls -/

/-- The table that a name stands for. -/
def findTable? (r : Registry P) (name : String) : Option TableEntry :=
  r.index[Text.lower name]?.bind fun id => r.tables[id]?

/-- The provider of a table. -/
def provider? (r : Registry P) (table : Nat) : Option P :=
  r.providers[table]?

/-- Adds a table without columns. -/
def addTable (r : Registry P) (name : String) : Except Error Nat × Registry P :=
  let key := Text.lower name
  if r.index.contains key then (.error (.tableExists name), r)
  else
    let id := r.tables.length
    (.ok id, { r with tables := r.tables ++ [⟨id, name, []⟩], index := r.index.insert key id })

/-- Adds a column at the end of a table. -/
def addColumn (r : Registry P) (table : Nat) (column : Column) : Except Error Nat × Registry P :=
  match r.tables[table]? with
  | none   => (.error (.internal (.unknownTable table)), r)
  | some t =>
    if (t.columnIndex? column.name).isSome then (.error (.duplicateColumn t.name column.name), r)
    else
      let id := t.columns.length
      let t' := { t with columns := t.columns ++ [⟨column, id, table⟩] }
      (.ok id, { r with tables := r.tables.set table t' })

/-- Adds columns up to the first one that fails. -/
def addColumns (r : Registry P) (table : Nat) : Columns → Except Error Unit × Registry P
  | []                => (.ok (), r)
  | column :: columns =>
    match r.addColumn table column with
    | (.error e, r) => (.error e, r)
    | (.ok _, r)    => r.addColumns table columns

/-- Binds a provider to a table, after it is set up for it. -/
def attach (r : Registry P) (table : Nat) (p : P) : Except Error Unit × Registry P :=
  match r.tables[table]? with
  | none   => (.error (.internal (.unknownTable table)), r)
  | some t =>
    match setUp r t p with
    | .error e => (.error e, r)
    | .ok p    => (.ok (), { r with providers := r.providers.insert table p })

/-- Takes the last table back, whose name is given. -/
def takeBack (r : Registry P) (name : String) : Registry P :=
  { r with tables := r.tables.dropLast, index := r.index.erase (Text.lower name) }

/-- Makes a table with its columns and its provider. -/
def createTable (r : Registry P) (name : String) (columns : Columns) (p : P) :
    Except Error Nat × Registry P :=
  if (r.findTable? name).isSome then (.error (.tableExists name), r) else
  match Columns.repeatedName? [] (columns.map Column.name) with
  | some column => (.error (.duplicateColumn name column), r)
  | none        =>
  match r.addTable name with
  | (.error e, r) => (.error e, r)
  | (.ok id, r)   =>
  match r.addColumns id columns with
  | (.error e, r) => (.error e, r)
  | (.ok (), r)   =>
  match r.attach setUp id p with
  | (.error e, r) => (.error e, r.takeBack name)
  | (.ok (), r)   => (.ok id, r)

/-- A call that may change the registry. -/
inductive Call (P : Type)
  | addTable (name : String)
  | addColumn (table : Nat) (column : Column)
  | createTable (name : String) (columns : Columns) (p : P)
  | attach (table : Nat) (p : P)

/-- What a call that succeeds gives: the id of the new table or column, if there is one. -/
inductive Answer
  | table (id : Nat)
  | column (id : Nat)
  | attached
deriving DecidableEq, Repr

def perform (r : Registry P) : Call P → Except Error Answer × Registry P
  | .addTable name              => (r.addTable name).map (Except.map .table) id
  | .addColumn table column     => (r.addColumn table column).map (Except.map .column) id
  | .createTable name columns p => (r.createTable setUp name columns p).map (Except.map .table) id
  | .attach table p             => (r.attach setUp table p).map (Except.map fun _ => .attached) id

/-- The registry after calls, of which some may fail. -/
def run (r : Registry P) (calls : List (Call P)) : Registry P :=
  calls.foldl (fun r call => (r.perform setUp call).2) r

/-! ### What calls do -/

/-- The registry with one more table. -/
def register (r : Registry P) (name : String) (columns : Columns) : Registry P :=
  { r with
    tables := r.tables ++ [.made r.tables.length name columns]
    index := r.index.insert (Text.lower name) r.tables.length }

/-- The registry with a provider in the place of a table's old one. -/
def provide (r : Registry P) (table : Nat) (p : P) : Registry P :=
  { r with providers := r.providers.insert table p }

/-- The registry with another entry for a table. -/
def setTable (r : Registry P) (table : Nat) (t : TableEntry) : Registry P :=
  { r with tables := r.tables.set table t }

/-- What holds of a registry between two calls. -/
structure Kept (r : Registry P) : Prop where
  tableIds : ∀ (i : Nat) (t : TableEntry), r.tables[i]? = some t → t.id = i
  columnIds : ∀ t ∈ r.tables, ∀ (i : Nat) (c : ColumnEntry),
    t.columns[i]? = some c → c.id = i ∧ c.table = t.id
  columnNames : ∀ t ∈ r.tables, t.columns.Pairwise fun a b => ¬ Text.sameName a.name b.name
  index : ∀ (key : String) (id : Nat),
    r.index[key]? = some id ↔ ∃ t, r.tables[id]? = some t ∧ Text.lower t.name = key
  providers : ∀ (id : Nat) (p : P), r.providers[id]? = some p → id < r.tables.length

/-- What a call that succeeds does: it gives an answer and leaves another registry. -/
inductive Step (r : Registry P) : Call P → Answer → Registry P → Prop
  | addTable {name : String} (hnew : r.index[Text.lower name]? = none) :
      Step r (.addTable name) (.table r.tables.length) (r.register name [])
  | addColumn {table : Nat} {t : TableEntry} {column : Column} (ht : r.tables[table]? = some t)
      (hnew : ∀ c ∈ t.columns, ¬ Text.sameName c.name column.name) :
      Step r (.addColumn table column) (.column t.columns.length)
        (r.setTable table (t.append column))
  | createTable {name : String} {columns : Columns} {p p' : P}
      (hnew : r.index[Text.lower name]? = none) (hcolumns : columns.Distinct)
      (hp : setUp (r.register name columns) (.made r.tables.length name columns) p = .ok p') :
      Step r (.createTable name columns p) (.table r.tables.length)
        ((r.register name columns).provide r.tables.length p')
  | attach {table : Nat} {t : TableEntry} {p p' : P} (ht : r.tables[table]? = some t)
      (hp : setUp r t p = .ok p') :
      Step r (.attach table p) .attached (r.provide table p')

section Calls

variable {setUp} {r : Registry P}

/-! #### Lookup -/

theorem Kept.findTable?_eq_some_iff (h : r.Kept) {name : String} {t : TableEntry} :
    r.findTable? name = some t ↔ t ∈ r.tables ∧ Text.lower t.name = Text.lower name := by
  rw [findTable?, Option.bind_eq_some_iff]
  constructor
  · rintro ⟨id, hid, ht⟩
    obtain ⟨t', ht', hname⟩ := (h.index _ id).1 hid
    obtain rfl : t' = t := Option.some.inj (ht'.symm.trans ht)
    exact ⟨List.mem_of_getElem? ht, hname⟩
  · rintro ⟨hmem, hname⟩
    obtain ⟨id, ht⟩ := List.mem_iff_getElem?.1 hmem
    exact ⟨id, (h.index _ id).2 ⟨t, ht, hname⟩, ht⟩

/-- The index leads to tables only. -/
theorem Kept.findTable?_isSome (h : r.Kept) (name : String) :
    (r.findTable? name).isSome = r.index.contains (Text.lower name) := by
  rw [Std.ExtHashMap.contains_eq_isSome_getElem?, findTable?]
  cases hid : r.index[Text.lower name]? with
  | none => rfl
  | some id =>
    obtain ⟨t, ht, -⟩ := (h.index _ id).1 hid
    rw [Option.bind_some, ht]
    rfl

/-- Names of tables are different. -/
theorem Kept.tableNames (h : r.Kept) :
    r.tables.Pairwise fun a b => Text.lower a.name ≠ Text.lower b.name := by
  rw [List.pairwise_iff_getElem]
  intro i j hi hj hlt heq
  have hindex := (h.index (Text.lower r.tables[j].name) i).2
    ⟨_, List.getElem?_eq_getElem hi, heq⟩
  have hindex' := (h.index (Text.lower r.tables[j].name) j).2
    ⟨_, List.getElem?_eq_getElem hj, rfl⟩
  have hij : i = j := Option.some.inj (hindex.symm.trans hindex')
  omega

/-! #### Changes -/

theorem addTable_of_new {name : String} (hnew : r.index[Text.lower name]? = none) :
    r.addTable name = (.ok r.tables.length, r.register name []) := by
  simp [addTable, Std.ExtHashMap.contains_eq_isSome_getElem?, hnew, register, TableEntry.made]

theorem addColumn_of_new {table : Nat} {t : TableEntry} {column : Column}
    (ht : r.tables[table]? = some t) (hid : t.id = table)
    (hnew : ∀ c ∈ t.columns, ¬ Text.sameName c.name column.name) :
    r.addColumn table column = (.ok t.columns.length, r.setTable table (t.append column)) := by
  have hnone : (t.columnIndex? column.name).isSome = false := by
    rw [t.isSome_columnIndex?, List.any_eq_false]
    exact hnew
  simp only [addColumn, ht, hnone, Bool.false_eq_true, if_false, setTable, TableEntry.append, hid]

theorem getElem?_register (r : Registry P) (name : String) (columns : Columns) :
    (r.register name columns).tables[r.tables.length]? =
      some (.made r.tables.length name columns) := by
  rw [register, List.getElem?_concat_length]

theorem setTable_register (r : Registry P) (name : String) (before after : Columns) :
    (r.register name before).setTable r.tables.length (.made r.tables.length name after) =
      r.register name after := by
  simp [register, setTable]

/-- The columns of a table that is made are added one by one. -/
theorem addColumns_register (r : Registry P) (name : String) : ∀ {columns before : Columns},
    Columns.repeatedName? (before.map Column.name) (columns.map Column.name) = none →
    (r.register name before).addColumns r.tables.length columns =
      (.ok (), r.register name (before ++ columns))
  | [], before, _ => by rw [List.append_nil, addColumns]
  | column :: columns, before, h => by
    simp only [List.map_cons, Columns.repeatedName?] at h
    split at h
    · cases h
    next hnew =>
      have hfresh : ∀ c ∈ (TableEntry.made r.tables.length name before).columns,
          ¬ Text.sameName c.name column.name := by
        intro c hc hsame
        have hmem : c.toColumn ∈ before := by
          rw [← TableEntry.toColumn_made r.tables.length name before]
          exact List.mem_map_of_mem hc
        exact hnew (List.any_eq_true.2 ⟨c.name, List.mem_map_of_mem hmem, hsame⟩)
      have hadd := addColumn_of_new (getElem?_register r name before) rfl hfresh
      rw [TableEntry.made_append, setTable_register] at hadd
      have hmap : before.map Column.name ++ [column.name] =
          (before ++ [column]).map Column.name := by
        rw [List.map_append, List.map_singleton]
      rw [hmap] at h
      rw [addColumns, hadd]
      dsimp only
      rw [addColumns_register r name h, List.append_assoc, List.singleton_append]

/-- What was registered last is taken back. -/
theorem takeBack_register {name : String} (columns : Columns)
    (hnew : r.index[Text.lower name]? = none) : (r.register name columns).takeBack name = r := by
  have hindex : (r.index.insert (Text.lower name) r.tables.length).erase (Text.lower name) =
      r.index := by
    refine Std.ExtHashMap.ext_getElem? fun key => ?_
    rw [Std.ExtHashMap.getElem?_erase, Std.ExtHashMap.getElem?_insert]
    by_cases hkey : Text.lower name = key
    · rw [← hkey, hnew, beq_self_eq_true, if_pos rfl]
    · rw [if_neg (by simpa using hkey), if_neg (by simpa using hkey)]
  simp only [takeBack, register, List.dropLast_concat, hindex]

theorem Kept.index_eq_none (h : r.Kept) {name : String} (hnone : r.findTable? name = none) :
    r.index[Text.lower name]? = none := by
  have hsome := h.findTable?_isSome name
  rw [hnone, Std.ExtHashMap.contains_eq_isSome_getElem?] at hsome
  exact Option.not_isSome_iff_eq_none.1 (by rw [← hsome]; exact Bool.false_ne_true)

/-- **Making a table** comes to this: the names are checked, the provider is asked, and only then
anything is registered. -/
theorem Kept.createTable_eq (h : r.Kept) (name : String) (columns : Columns) (p : P) :
    r.createTable setUp name columns p =
      if (r.findTable? name).isSome then (.error (.tableExists name), r) else
      match Columns.repeatedName? [] (columns.map Column.name) with
      | some column => (.error (.duplicateColumn name column), r)
      | none        =>
        match setUp (r.register name columns) (.made r.tables.length name columns) p with
        | .error e => (.error e, r)
        | .ok p    =>
          (.ok r.tables.length, (r.register name columns).provide r.tables.length p) := by
  cases hfound : r.findTable? name with
  | some t => simp only [createTable, hfound, Option.isSome_some, if_true]
  | none =>
    cases hrepeated : Columns.repeatedName? [] (columns.map Column.name) with
    | some column => simp only [createTable, hfound, hrepeated]
    | none =>
      have hnew := h.index_eq_none hfound
      have hcolumns : (r.register name []).addColumns r.tables.length columns =
          (.ok (), r.register name columns) := addColumns_register r name hrepeated
      simp only [createTable, hfound, hrepeated, addTable_of_new hnew, hcolumns, attach,
        getElem?_register]
      cases setUp (r.register name columns) (.made r.tables.length name columns) p with
      | error e => simp [takeBack_register columns hnew]
      | ok p' => rfl

/-! ### What calls keep -/

theorem kept_empty : (empty : Registry P).Kept where
  tableIds := by
    intro i t h
    cases h
  columnIds := by
    intro t h
    cases h
  columnNames := by
    intro t h
    cases h
  index := by
    intro key id
    rw [empty, Std.ExtHashMap.getElem?_empty]
    refine iff_of_false (by simp) ?_
    rintro ⟨t, ht, -⟩
    cases ht
  providers := by
    intro id p h
    rw [empty, Std.ExtHashMap.getElem?_empty] at h
    cases h

theorem Kept.register (h : r.Kept) {name : String} {columns : Columns}
    (hnew : r.index[Text.lower name]? = none) (hcolumns : columns.Distinct) :
    (r.register name columns).Kept where
  tableIds := by
    intro i t ht
    rcases getElem?_concat_cases ht with ht | ⟨rfl, rfl⟩
    · exact h.tableIds i t ht
    · rfl
  columnIds := by
    intro t ht i c hc
    rcases List.mem_append.1 ht with ht | ht
    · exact h.columnIds t ht i c hc
    · obtain rfl := List.mem_singleton.1 ht
      rw [TableEntry.made, List.getElem?_mapIdx, Option.map_eq_some_iff] at hc
      obtain ⟨column, -, rfl⟩ := hc
      exact ⟨rfl, rfl⟩
  columnNames := by
    intro t ht
    rcases List.mem_append.1 ht with ht | ht
    · exact h.columnNames t ht
    · obtain rfl := List.mem_singleton.1 ht
      have hpairwise : columns.Pairwise fun a b => ¬ Text.sameName a.name b.name := by
        refine (List.pairwise_map.1 hcolumns).imp fun hne hsame => ?_
        exact hne (beq_iff_eq.1 hsame)
      rw [← TableEntry.toColumn_made r.tables.length name columns] at hpairwise
      exact List.pairwise_map.1 hpairwise
  index := by
    intro key id
    simp only [Registry.register, Std.ExtHashMap.getElem?_insert, beq_iff_eq]
    by_cases hkey : Text.lower name = key
    · -- the name is new, so it is that of the last table only
      subst hkey
      rw [if_pos rfl]
      constructor
      · intro hid
        obtain rfl := Option.some.inj hid
        exact ⟨_, getElem?_register r name columns, rfl⟩
      · rintro ⟨t, ht, hname⟩
        rcases getElem?_concat_cases ht with ht | ⟨rfl, -⟩
        · have hold := (h.index _ id).2 ⟨t, ht, hname⟩
          rw [hnew] at hold
          cases hold
        · rfl
    · rw [if_neg hkey, h.index key id]
      constructor
      · rintro ⟨t, ht, hname⟩
        obtain ⟨hlt, -⟩ := List.getElem?_eq_some_iff.1 ht
        exact ⟨t, by rw [List.getElem?_append_left hlt, ht], hname⟩
      · rintro ⟨t, ht, hname⟩
        rcases getElem?_concat_cases ht with ht | ⟨-, rfl⟩
        · exact ⟨t, ht, hname⟩
        · exact absurd hname hkey
  providers := by
    intro id p hp
    have hlt := h.providers id p hp
    rw [Registry.register, List.length_append]
    omega

theorem Kept.provide (h : r.Kept) {id : Nat} (p : P) (hid : id < r.tables.length) :
    (r.provide id p).Kept where
  tableIds := h.tableIds
  columnIds := h.columnIds
  columnNames := h.columnNames
  index := h.index
  providers := by
    intro i q hq
    rw [Registry.provide, Std.ExtHashMap.getElem?_insert] at hq
    by_cases hi : id = i
    · exact hi ▸ hid
    · rw [if_neg (by simpa using hi)] at hq
      exact h.providers i q hq

/-- An entry after a table got another column. -/
theorem getElem?_setTable {table i : Nat} {t : TableEntry} (ht : r.tables[table]? = some t)
    (t' : TableEntry) :
    (r.setTable table t').tables[i]? = if i = table then some t' else r.tables[i]? := by
  obtain ⟨hlt, -⟩ := List.getElem?_eq_some_iff.1 ht
  rw [setTable, List.getElem?_set]
  by_cases hi : i = table
  · rw [if_pos hi.symm, if_pos hlt, if_pos hi]
  · rw [if_neg (Ne.symm hi), if_neg hi]

theorem Kept.setTable (h : r.Kept) {table : Nat} {t : TableEntry} {column : Column}
    (ht : r.tables[table]? = some t)
    (hnew : ∀ c ∈ t.columns, ¬ Text.sameName c.name column.name) :
    (r.setTable table (t.append column)).Kept := by
  have hmem : ∀ {t'}, t' ∈ (r.setTable table (t.append column)).tables →
      t' ∈ r.tables ∨ t' = t.append column := List.mem_or_eq_of_mem_set
  have hmemt := List.mem_of_getElem? ht
  constructor
  case tableIds =>
    intro i t' ht'
    rw [getElem?_setTable ht] at ht'
    split at ht'
    next hi =>
      obtain rfl := Option.some.inj ht'
      exact hi ▸ h.tableIds table t ht
    · exact h.tableIds i t' ht'
  case columnIds =>
    intro t' ht' i c hc
    rcases hmem ht' with ht' | rfl
    · exact h.columnIds t' ht' i c hc
    · rcases getElem?_concat_cases hc with hc | ⟨rfl, rfl⟩
      · exact h.columnIds t hmemt i c hc
      · exact ⟨rfl, rfl⟩
  case columnNames =>
    intro t' ht'
    rcases hmem ht' with ht' | rfl
    · exact h.columnNames t' ht'
    · refine List.pairwise_append.2 ⟨h.columnNames t hmemt, List.pairwise_singleton _ _, ?_⟩
      intro a ha b hb
      obtain rfl := List.mem_singleton.1 hb
      exact hnew a ha
  case index =>
    intro key id
    rw [getElem?_setTable ht]
    refine (h.index key id).trans ?_
    by_cases hid : id = table
    · -- the table keeps its name
      subst hid
      simp only [if_pos, ht, Option.some.injEq, exists_eq_left', TableEntry.append]
    · simp only [if_neg hid]
  case providers =>
    intro id p hp
    rw [Registry.setTable, List.length_set]
    exact h.providers id p hp

/-- **A call fails and changes nothing, or it takes a step.** -/
theorem Kept.perform_cases (setUp : Registry P → TableEntry → P → Except Error P) (h : r.Kept)
    (call : Call P) :
    (∃ e, r.perform setUp call = (.error e, r)) ∨
      ∃ a r', r.perform setUp call = (.ok a, r') ∧ Step setUp r call a r' := by
  cases call with
  | addTable name =>
    cases hindex : r.index[Text.lower name]? with
    | some id =>
      refine .inl ⟨.tableExists name, ?_⟩
      simp [perform, addTable, Std.ExtHashMap.contains_eq_isSome_getElem?, hindex, Except.map]
    | none =>
      refine .inr ⟨_, _, ?_, .addTable hindex⟩
      rw [perform, addTable_of_new hindex]
      rfl
  | addColumn table column =>
    cases ht : r.tables[table]? with
    | none =>
      refine .inl ⟨.internal (.unknownTable table), ?_⟩
      simp only [perform, addColumn, ht]
      rfl
    | some t =>
      by_cases hsome : (t.columnIndex? column.name).isSome = true
      · refine .inl ⟨.duplicateColumn t.name column.name, ?_⟩
        simp only [perform, addColumn, ht, if_pos hsome]
        rfl
      · have hnew : ∀ c ∈ t.columns, ¬ Text.sameName c.name column.name := by
          rw [t.isSome_columnIndex?, List.any_eq_true] at hsome
          exact fun c hc hsame => hsome ⟨c, hc, hsame⟩
        refine .inr ⟨_, _, ?_, .addColumn ht hnew⟩
        rw [perform, addColumn_of_new ht (h.tableIds table t ht) hnew]
        rfl
  | createTable name columns p =>
    rw [perform, h.createTable_eq]
    cases hfound : r.findTable? name with
    | some t => exact .inl ⟨.tableExists name, rfl⟩
    | none =>
      cases hrepeated : Columns.repeatedName? [] (columns.map Column.name) with
      | some column => exact .inl ⟨.duplicateColumn name column, rfl⟩
      | none =>
        cases hp : setUp (r.register name columns) (.made r.tables.length name columns) p with
        | error e => exact .inl ⟨e, rfl⟩
        | ok p' =>
          have hcolumns := Columns.distinct_of_repeatedName? hrepeated
          exact .inr ⟨_, _, rfl, .createTable (h.index_eq_none hfound) hcolumns hp⟩
  | attach table p =>
    cases ht : r.tables[table]? with
    | none => exact .inl ⟨.internal (.unknownTable table), by simp only [perform, attach, ht]; rfl⟩
    | some t =>
      cases hp : setUp r t p with
      | error e => exact .inl ⟨e, by simp only [perform, attach, ht, hp]; rfl⟩
      | ok p' => exact .inr ⟨_, _, by simp only [perform, attach, ht, hp]; rfl, .attach ht hp⟩

/-- A call that fails changes nothing. -/
theorem Kept.perform_of_error (h : r.Kept) {call : Call P} {e : Error}
    (he : (r.perform setUp call).1 = .error e) : (r.perform setUp call).2 = r := by
  rcases h.perform_cases setUp call with ⟨e', hcall⟩ | ⟨a, r', hcall, -⟩
  · rw [hcall]
  · rw [hcall] at he
    cases he

theorem Kept.step_of_ok (h : r.Kept) {call : Call P} {a : Answer}
    (ha : (r.perform setUp call).1 = .ok a) : Step setUp r call a (r.perform setUp call).2 := by
  rcases h.perform_cases setUp call with ⟨e', hcall⟩ | ⟨a', r', hcall, hstep⟩
  · rw [hcall] at ha
    cases ha
  · rw [hcall] at ha ⊢
    obtain rfl := Except.ok.inj ha
    exact hstep

variable {r' : Registry P} {call : Call P} {a : Answer}

theorem Kept.step (h : r.Kept) (hstep : Step setUp r call a r') : r'.Kept := by
  cases hstep with
  | addTable hnew => exact h.register hnew List.nodup_nil
  | addColumn ht hnew => exact h.setTable ht hnew
  | createTable hnew hcolumns hp =>
    refine (h.register hnew hcolumns).provide _ ?_
    rw [Registry.register, List.length_append]
    exact Nat.lt_succ_self _
  | attach ht hp =>
    obtain ⟨hlt, -⟩ := List.getElem?_eq_some_iff.1 ht
    exact h.provide _ hlt

/-- What is kept by every step is kept by every call. -/
theorem Kept.perform_keeps {M : Registry P → Prop} (h : r.Kept) (hr : M r)
    (hstep : ∀ a r', Step setUp r call a r' → M r') : M (r.perform setUp call).2 := by
  rcases h.perform_cases setUp call with ⟨e, hcall⟩ | ⟨a, r', hcall, hs⟩
  · rw [hcall]
    exact hr
  · rw [hcall]
    exact hstep a r' hs

theorem Kept.perform (setUp : Registry P → TableEntry → P → Except Error P) (h : r.Kept)
    (call : Call P) : (r.perform setUp call).2.Kept :=
  h.perform_keeps h fun _ _ hstep => h.step hstep

theorem Kept.run (setUp : Registry P → TableEntry → P → Except Error P) (h : r.Kept)
    (calls : List (Call P)) : (r.run setUp calls).Kept := by
  induction calls generalizing r with
  | nil => exact h
  | cons call calls ih => exact ih (h.perform setUp call)

/-! ### Ids keep their meaning -/

/-- Every table keeps its id and its name, and every column its id. -/
def Extends (r r' : Registry P) : Prop :=
  ∀ (id : Nat) (t : TableEntry), r.tables[id]? = some t →
    ∃ t', r'.tables[id]? = some t' ∧ t'.name = t.name ∧ t.columns <+: t'.columns

theorem Extends.refl (r : Registry P) : r.Extends r :=
  fun _ t ht => ⟨t, ht, rfl, List.prefix_rfl⟩

theorem Extends.trans {r₁ r₂ r₃ : Registry P} (h : r₁.Extends r₂) (h' : r₂.Extends r₃) :
    r₁.Extends r₃ := by
  intro id t ht
  obtain ⟨t₂, ht₂, hname₂, hcolumns₂⟩ := h id t ht
  obtain ⟨t₃, ht₃, hname₃, hcolumns₃⟩ := h' id t₂ ht₂
  exact ⟨t₃, ht₃, hname₃.trans hname₂, hcolumns₂.trans hcolumns₃⟩

theorem extends_register (r : Registry P) (name : String) (columns : Columns) :
    r.Extends (r.register name columns) := by
  intro id t ht
  obtain ⟨hlt, -⟩ := List.getElem?_eq_some_iff.1 ht
  exact ⟨t, by rw [register, List.getElem?_append_left hlt, ht], rfl, List.prefix_rfl⟩

theorem Step.extends (hstep : Step setUp r call a r') : r.Extends r' := by
  cases hstep with
  | addTable => exact extends_register r _ _
  | @addColumn table t column ht hnew =>
    intro id t' ht'
    rw [getElem?_setTable ht]
    by_cases hid : id = table
    · subst hid
      obtain rfl := Option.some.inj (ht'.symm.trans ht)
      exact ⟨t'.append column, if_pos rfl, rfl, List.prefix_append _ _⟩
    · exact ⟨t', by rw [if_neg hid, ht'], rfl, List.prefix_rfl⟩
  | createTable => exact extends_register r _ _
  | attach => exact Extends.refl r

theorem Kept.extends_run (setUp : Registry P → TableEntry → P → Except Error P) (h : r.Kept)
    (calls : List (Call P)) : r.Extends (r.run setUp calls) := by
  induction calls generalizing r with
  | nil => exact Extends.refl r
  | cons call calls ih =>
    have hcall : r.Extends (r.perform setUp call).2 :=
      h.perform_keeps (Extends.refl r) fun _ _ hstep => hstep.extends
    exact hcall.trans (ih (h.perform setUp call))

/-- The answer names what the call made: a table of the given name and columns, or a column. -/
def Names (r : Registry P) : Call P → Answer → Prop
  | .addTable name, .table id               => ∃ t, r.tables[id]? = some t ∧ t.name = name
  | .addColumn table column, .column id     =>
    ∃ t, r.tables[table]? = some t ∧ t.columns[id]? = some ⟨column, id, table⟩
  | .createTable name columns _, .table id  =>
    ∃ t, r.tables[id]? = some t ∧ t.name = name ∧
      columns.mapIdx (fun i column => ⟨column, i, id⟩) <+: t.columns
  | .attach _ _, .attached                  => True
  | _, _                                    => False

theorem Kept.names_of_step (h : r.Kept) (hstep : Step setUp r call a r') : r'.Names call a := by
  cases hstep with
  | addTable => exact ⟨_, getElem?_register r _ _, rfl⟩
  | @addColumn table t column ht hnew =>
    refine ⟨t.append column, by rw [getElem?_setTable ht, if_pos rfl], ?_⟩
    rw [TableEntry.append, List.getElem?_concat_length, h.tableIds table t ht]
  | createTable => exact ⟨_, getElem?_register r _ _, rfl, List.prefix_rfl⟩
  | attach => trivial

theorem Names.extends (ha : r.Names call a) (h : r.Extends r') : r'.Names call a := by
  match call, a, ha with
  | .addTable name, .table id, ⟨t, ht, hname⟩ =>
    obtain ⟨t', ht', hname', -⟩ := h id t ht
    exact ⟨t', ht', hname'.trans hname⟩
  | .addColumn table column, .column id, ⟨t, ht, hcolumn⟩ =>
    obtain ⟨t', ht', -, hcolumns⟩ := h table t ht
    exact ⟨t', ht', getElem?_of_le hcolumns hcolumn⟩
  | .createTable name columns p, .table id, ⟨t, ht, hname, hcolumns⟩ =>
    obtain ⟨t', ht', hname', hcolumns'⟩ := h id t ht
    exact ⟨t', ht', hname'.trans hname, hcolumns.trans hcolumns'⟩
  | .attach table p, .attached, _ => trivial

/-! ### Providers stay -/

/-- Only a provider that is attached to a table takes the place of the one before. -/
theorem Step.providers_eq (hstep : Step setUp r call a r') {id : Nat} (hid : id < r.tables.length)
    (hcall : ∀ p, call ≠ .attach id p) : r'.providers[id]? = r.providers[id]? := by
  cases hstep with
  | addTable | addColumn => rfl
  | createTable =>
    rw [provide, Std.ExtHashMap.getElem?_insert, if_neg (by simpa using (Nat.ne_of_lt hid).symm)]
    rfl
  | @attach table t p p' ht hp =>
    have hne : table ≠ id := by
      rintro rfl
      exact hcall p rfl
    rw [provide, Std.ExtHashMap.getElem?_insert, if_neg (by simpa using hne)]

/-- No call attaches a provider to the table; attempts may fail. -/
def Untouched (setUp : Registry P → TableEntry → P → Except Error P) (r : Registry P) (id : Nat)
    (calls : List (Call P)) : Prop :=
  ∀ (before : List (Call P)) (p : P) (rest : List (Call P)),
    calls = before ++ .attach id p :: rest →
    ∃ e, ((r.run setUp before).perform setUp (.attach id p)).1 = .error e

theorem Kept.providers_run {id : Nat} {p : P} : ∀ {r : Registry P}, r.Kept →
    r.providers[id]? = some p → ∀ {calls : List (Call P)}, r.Untouched setUp id calls →
    (r.run setUp calls).providers[id]? = some p
  | _, _, hp, [], _ => hp
  | r, h, hp, call :: calls, hcalls => by
    have hstays : (r.perform setUp call).2.providers[id]? = some p := by
      cases hcall : (r.perform setUp call).1 with
      | error e => rw [h.perform_of_error hcall, hp]
      | ok a =>
        rw [(h.step_of_ok hcall).providers_eq (h.providers id p hp), hp]
        rintro q rfl
        obtain ⟨e, he⟩ := hcalls [] q calls rfl
        rw [Registry.run, List.foldl_nil, hcall] at he
        cases he
    refine (h.perform setUp call).providers_run hstays ?_
    intro before q rest hrest
    exact hcalls (call :: before) q rest (by rw [hrest, List.cons_append])

end Calls

end Registry

end SqlEngine
