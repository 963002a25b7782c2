import SqlEngine.Proofs.Database.State
import SqlEngine.Proofs.Resolution.Statement

/-!
# Databases — names of tables and columns

Only CREATE TABLE adds a table, and it checks the names first.  So no two tables of a reachable
database go by one name, nor two columns of one table, and the name that a table was created with
finds it.

* `Catalog.Distinct`: no name finds two tables.
* `Database.Reachable.findTable?_name`: a table is found by its name.
* `Database.Reachable.columns_distinct`: no two columns of a table go by one name.
-/

namespace SqlEngine

variable {c : Catalog} {t : Table} {id : Nat}

namespace Catalog

/-- The names as they are compared. -/
def names (c : Catalog) : List String :=
  c.tables.map fun t => Text.lower t.name

/-- No two tables go by one name. -/
def Distinct (c : Catalog) : Prop :=
  c.names.Nodup

theorem names_setProvider (c : Catalog) (id : Nat) (p : Provider) :
    (c.setProvider id p).names = c.names := by
  refine List.ext_getElem? fun i => ?_
  simp only [names, setProvider, modify, List.getElem?_map, List.getElem?_modify]
  cases c.tables[i]? with
  | none => rfl
  | some t =>
    by_cases hi : id = i
    · simp only [hi, Option.map_eq_map, Option.map_some, if_true]
    · simp only [hi, Option.map_eq_map, Option.map_some, if_false]

/-- A name that finds no table is none of the names. -/
theorem not_mem_names {name : String} (h : c.findTable? name = none) :
    Text.lower name ∉ c.names := by
  rw [findTable?, Option.map_eq_none_iff, List.find?_eq_none] at h
  intro hmem
  obtain ⟨t, ht, hname⟩ := List.mem_map.1 hmem
  obtain ⟨i, hi⟩ := List.mem_iff_getElem?.1 ht
  exact h (t, i) (List.mk_mem_zipIdx_iff_getElem?.2 hi) (beq_iff_eq.2 hname)

/-- The table that a name finds has this name, in small letters. -/
theorem lower_of_findTable? {name : String} (h : c.findTable? name = some (id, t)) :
    Text.lower t.name = Text.lower name := by
  rw [Catalog.findTable?, Option.map_eq_some_iff] at h
  obtain ⟨p, hp, hswap⟩ := h
  obtain ⟨-, rfl⟩ := Prod.mk.inj hswap
  simpa using List.find?_some hp

/-- What holds of the catalog and of what each run leaves holds of the outcome. -/
theorem outcome_keeps {α : Type} {P : Catalog → Prop} {prepared : Except Error α}
    {run : α → Outcome} (h : P c) (hrun : ∀ a, prepared = .ok a → P (run a).2) :
    P (c.outcome prepared run).2 := by
  cases prepared with
  | error e => exact h
  | ok a => exact hrun a rfl

theorem Distinct.changeRows {α : Type} {change : Provider → α → Except Error Provider}
    {p : Provider} {changes : List α} (h : c.Distinct) :
    (c.changeRows id p change changes).2.Distinct := by
  simp only [Catalog.changeRows, Distinct, names_setProvider]
  exact h

/-- A new table has a new name. -/
theorem Distinct.createTable {name : String} {columns : Columns} {p : Provider} {c' : Catalog}
    (h : c.Distinct) (hc : c.createTable name columns p = .ok (id, c')) : c'.Distinct := by
  simp only [Catalog.createTable, bind_eq_ok_iff] at hc
  obtain ⟨⟨⟩, hnew, bound, -, hc⟩ := hc
  obtain ⟨-, rfl⟩ := Prod.mk.inj (Except.ok.inj hc)
  have hnone : c.findTable? name = none := by
    simp only [checkNew] at hnew
    split at hnew
    · cases hnew
    next hfound => simpa using hfound
  simp only [Distinct, names, List.map_append, List.map_cons, List.map_nil]
  exact List.nodup_append_comm.1 (List.nodup_cons.2 ⟨not_mem_names hnone, h⟩)

/-- The name of a table finds it. -/
theorem Distinct.findTable? (h : c.Distinct) (ht : c.tables[id]? = some t) :
    c.findTable? t.name = some (id, t) := by
  cases hfound : c.findTable? t.name with
  | none =>
    exact absurd (List.mem_map_of_mem (List.mem_of_getElem? ht)) (not_mem_names hfound)
  | some found =>
    obtain ⟨i, t'⟩ := found
    have ht' := getElem?_of_findTable? hfound
    have hname := lower_of_findTable? hfound
    -- two places with one name are the same
    have hi : c.names[i]? = some (Text.lower t.name) := by
      rw [names, List.getElem?_map, ht', Option.map_some, hname]
    have hid : c.names[id]? = some (Text.lower t.name) := by
      rw [names, List.getElem?_map, ht, Option.map_some]
    obtain ⟨hlt, -⟩ := List.getElem?_eq_some_iff.1 hi
    obtain rfl : i = id := (List.getElem?_inj hlt h).1 (hi.trans hid.symm)
    rw [Option.some.inj (ht'.symm.trans ht)]

end Catalog

/-- What one statement does to the names. -/
theorem Statement.execute_distinct {now : Date.Instant} (s : Statement) (h : c.Distinct) :
    (s.execute c now).2.Distinct := by
  cases s with
  | select => exact h
  | insert | update | delete => exact Catalog.outcome_keeps h fun _ _ => h.changeRows
  | create => exact Catalog.outcome_keeps h fun _ hc => h.createTable hc

namespace Database

variable {db : Database}

theorem Reachable.distinct (h : Reachable db) : db.catalog.Distinct := by
  induction h with
  | new config => exact List.nodup_nil
  | execute _ now text ih =>
    exact Catalog.outcome_keeps ih fun s _ => s.execute_distinct ih

/-- **A table is found by the name that it was created with.** -/
theorem Reachable.findTable?_name (h : Reachable db) (ht : db.catalog.tables[id]? = some t) :
    db.catalog.findTable? t.name = some (id, t) :=
  h.distinct.findTable? ht

end Database

/-! ### Columns -/

namespace Columns

/-- No two columns go by one name. -/
def Distinct (columns : Columns) : Prop :=
  (columns.map fun column => Text.fold column.name).Nodup

/-- Names of which none is repeated are different. -/
theorem nodup_of_repeatedName? : ∀ {names seen : List String}, repeatedName? seen names = none →
    (seen.map Text.fold).Nodup → ((seen ++ names).map Text.fold).Nodup
  | [], seen, _, hseen => by rwa [List.append_nil]
  | name :: names, seen, h, hseen => by
    simp only [repeatedName?] at h
    split at h
    · cases h
    next hnew =>
      have hfresh : Text.fold name ∉ seen.map Text.fold := by
        intro hmem
        obtain ⟨before, hbefore, heq⟩ := List.mem_map.1 hmem
        exact hnew (List.any_eq_true.2 ⟨before, hbefore, beq_iff_eq.2 heq⟩)
      have hseen' : ((seen ++ [name]).map Text.fold).Nodup := by
        rw [List.map_append, List.map_singleton]
        exact List.nodup_append_comm.1 (List.nodup_cons.2 ⟨hfresh, hseen⟩)
      rw [List.append_cons]
      exact nodup_of_repeatedName? h hseen'

theorem distinct_of_repeatedName? {columns : Columns}
    (h : repeatedName? [] (columns.map Column.name) = none) : columns.Distinct := by
  have hnodup := nodup_of_repeatedName? h List.nodup_nil
  rwa [List.nil_append, List.map_map] at hnodup

/-- A name is that of one column at most. -/
theorem Distinct.eq_of_sameName {columns : Columns} (h : columns.Distinct) {name : String}
    {i j : Nat} {a b : Column} (ha : columns[i]? = some a) (hb : columns[j]? = some b)
    (haname : Text.sameName a.name name = true) (hbname : Text.sameName b.name name = true) :
    i = j := by
  have hi : (columns.map fun column => Text.fold column.name)[i]? = some (Text.fold name) := by
    rw [List.getElem?_map, ha, Option.map_some, beq_iff_eq.1 haname]
  have hj : (columns.map fun column => Text.fold column.name)[j]? = some (Text.fold name) := by
    rw [List.getElem?_map, hb, Option.map_some, beq_iff_eq.1 hbname]
  obtain ⟨hlt, -⟩ := List.getElem?_eq_some_iff.1 hi
  exact (List.getElem?_inj hlt h).1 (hi.trans hj.symm)

end Columns

namespace Catalog

/-- No two columns of one table go by one name. -/
def ColumnsDistinct (c : Catalog) : Prop :=
  ∀ t ∈ c.tables, t.columns.Distinct

theorem ColumnsDistinct.changeRows {α : Type} {change : Provider → α → Except Error Provider}
    {p : Provider} {changes : List α} (h : c.ColumnsDistinct) :
    (c.changeRows id p change changes).2.ColumnsDistinct := by
  intro t ht
  obtain ⟨i, hi⟩ := List.mem_iff_getElem?.1 ht
  simp only [Catalog.changeRows, setProvider, modify, List.getElem?_modify] at hi
  obtain ⟨old, hold, rfl⟩ := Option.map_eq_some_iff.1 hi
  have hdistinct := h old (List.mem_of_getElem? hold)
  split <;> exact hdistinct

/-- The names of the columns of a new table were checked. -/
theorem ColumnsDistinct.createTable {name : String} {columns : Columns} {p : Provider}
    {c' : Catalog} (h : c.ColumnsDistinct) (hc : c.createTable name columns p = .ok (id, c')) :
    c'.ColumnsDistinct := by
  simp only [Catalog.createTable, bind_eq_ok_iff] at hc
  obtain ⟨⟨⟩, hnew, bound, -, hc⟩ := hc
  obtain ⟨-, rfl⟩ := Prod.mk.inj (Except.ok.inj hc)
  simp only [checkNew] at hnew
  split at hnew
  · cases hnew
  split at hnew
  · cases hnew
  next hnone =>
    intro t ht
    rcases List.mem_append.1 ht with ht | ht
    · exact h t ht
    · obtain rfl := List.mem_singleton.1 ht
      exact Columns.distinct_of_repeatedName? hnone

end Catalog

theorem Statement.execute_columnsDistinct {now : Date.Instant} (s : Statement)
    (h : c.ColumnsDistinct) : (s.execute c now).2.ColumnsDistinct := by
  cases s with
  | select => exact h
  | insert | update | delete => exact Catalog.outcome_keeps h fun _ _ => h.changeRows
  | create => exact Catalog.outcome_keeps h fun _ hc => h.createTable hc

/-- **No two columns of a table go by one name** in a reachable database. -/
theorem Database.Reachable.columns_distinct {db : Database} (h : Reachable db) :
    db.catalog.ColumnsDistinct := by
  induction h with
  | new config => exact List.forall_mem_nil _
  | execute _ now text ih =>
    exact Catalog.outcome_keeps ih fun s _ => s.execute_columnsDistinct ih

end SqlEngine
