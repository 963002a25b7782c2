import SqlEngine.Proofs.Database.References
import SqlEngine.Proofs.Database.Selection
import SqlEngine.Proofs.Plan.Numbering
import SqlEngine.Proofs.Storage.RowMap

/-!
# Databases — what an UPDATE does to its table

An UPDATE evaluates all its expressions before it writes the first value.  So every expression has
its value for the row as it was and the database as it was, whatever else the statement assigns, and
each row is written by itself.  Of several assignments to one column the last one counts.

* `MemoryTable.write_eq_ok`: a row after a change.
* `Table.matchingRows_values`: the rows that are changed are those for which WHERE is TRUE.
* `Update.rowChange_values`: the change of a row has the values of the assignments.
* `Database.Reachable.update_rows`: the database after an UPDATE.
-/

namespace SqlEngine

/-! ### Rows that are written -/

/-- The value that a change has for a column; of several the last one counts. -/
def Change.last? (change : Change) (i : Nat) : Option Value :=
  (change.reverse.find? fun p => p.1 == i).map Prod.snd

/-- The row with the values of a change in their columns. -/
def Row.withChange (row : Row) (change : Change) : Row :=
  row.mapIdx fun i v => (change.last? i).getD v

theorem Change.last?_cons (i : Nat) (v : Value) (change : Change) (j : Nat) :
    Change.last? ((i, v) :: change) j = (change.last? j).or (if i = j then some v else none) := by
  simp only [last?, List.reverse_cons, List.find?_append, Option.map_or, List.find?_singleton,
    beq_iff_eq]
  split <;> rfl

theorem Row.withChange_nil (row : Row) : row.withChange [] = row := by
  refine List.ext_getElem? fun j => ?_
  rw [withChange, List.getElem?_mapIdx]
  cases row[j]? <;> rfl

theorem Row.withChange_cons {row : Row} {i : Nat} (hi : i < row.length) (v : Value)
    (change : Change) :
    row.withChange ((i, v) :: change) = Row.withChange (row.set i v) change := by
  refine List.ext_getElem? fun j => ?_
  simp only [withChange, List.getElem?_mapIdx, List.getElem?_set, Change.last?_cons]
  by_cases hij : i = j
  · subst hij
    simp only [if_true, hi, List.getElem?_eq_getElem hi, Option.map_some]
    cases change.last? i <;> rfl
  · simp only [hij, if_false, Option.or_none]

/-- A row after a change has the last value for each column, or the old one where there is none. -/
theorem MemoryTable.write_eq_ok {m : MemoryTable} : ∀ {change : Change} {row new : Row},
    m.write row change = .ok new → new = row.withChange change
  | [], row, new, h => by rw [Row.withChange_nil, Except.ok.inj h]
  | (i, v) :: change, row, new, h => by
    rw [MemoryTable.write] at h
    split at h
    · cases h
    · obtain ⟨row', hrow, h⟩ := bind_eq_ok_iff.1 h
      rw [Row.put] at hrow
      split at hrow
      next hi =>
        obtain rfl := Except.ok.inj hrow
        rw [write_eq_ok h, Row.withChange_cons hi]
      next => cases hrow

/-! ### Rows that WHERE keeps -/

theorem mem_keptFor {cs : List Combination} {values : List Value} {row : Combination} :
    row ∈ keptFor cs values ↔
      ∃ (k : Nat) (v : Value), cs[k]? = some row ∧ values[k]? = some v ∧ v.isTrue = true := by
  rw [keptFor, List.mem_map]
  constructor
  · rintro ⟨⟨row', v⟩, hmem, rfl⟩
    obtain ⟨hmem, htrue⟩ := List.mem_filter.1 hmem
    obtain ⟨k, hk⟩ := List.mem_iff_getElem?.1 hmem
    obtain ⟨hrow, hv⟩ := List.getElem?_zip_eq_some.1 hk
    exact ⟨k, v, hrow, hv, htrue⟩
  · rintro ⟨k, v, hrow, hv, htrue⟩
    have hk : (cs.zip values)[k]? = some (row, v) := List.getElem?_zip_eq_some.2 ⟨hrow, hv⟩
    exact ⟨(row, v), List.mem_filter.2 ⟨List.mem_of_getElem? hk, htrue⟩, rfl⟩

theorem length_keptFor : ∀ {cs : List Combination} {values : List Value},
    values.length = cs.length → (keptFor cs values).length = values.countP Value.isTrue
  | [], [], _ => rfl
  | row :: cs, v :: values, h => by
    have hrest := length_keptFor (Nat.succ.inj h)
    rw [keptFor_cons, List.countP_cons]
    split
    · rw [List.length_cons, hrest]
    · exact hrest

theorem keptFor_true (cs : List Combination) :
    keptFor cs (cs.map fun _ => .boolean true) = cs := by
  induction cs with
  | nil => rfl
  | cons row cs ih => rw [List.map_cons, keptFor_cons, ih]; rfl

variable {c : Catalog} {now : Date.Instant} {t : Table} {id : Nat} {m : MemoryTable}
  {types : List DataType}

/-- A visit comes to all rows of a table. -/
theorem MemoryTable.Sound.rowIds_eq (h : m.Sound types) : (Provider.memory m).rowIds = m.ids :=
  Entries.idsAfter_append [] h.ascending (List.forall_mem_nil _) fun e he => (h.ids e he).1

theorem MemoryTable.Sound.at?_eq (h : m.Sound types) {k : Nat} {e : RowId × Row}
    (he : m.rows[k]? = some e) : m.rows.at? e.1 = some e.2 :=
  (Entries.at?_eq_some_iff h.ascending).2 (List.mem_of_getElem? he)

/-- The environment on a row of a table. -/
theorem Table.locateAll_here (h : m.Sound types) {k : Nat} {e : RowId × Row}
    (he : m.rows[k]? = some e) :
    locateAll (Table.here c now m).providers [some e.1] = .ok [some e] := by
  simp only [Table.here, locateAll, Provider.locate, Provider.seek, h.at?_eq he, ok_bind]

/-- The value of WHERE for a row with its number; without WHERE it is TRUE. -/
def Expr.Tests (filter : Option Expr) (here : Setting) (e : RowId × Row) (number : Nat)
    (v : Value) : Prop :=
  match filter with
  | none   => v = .boolean true
  | some f => f.value here.catalog (here.env [some e] number e.1) = .ok v

/-- **The rows that are changed** are those for which WHERE is TRUE. -/
theorem Table.matchingRows_values (hid : c.tables[id]? = some t)
    (hm : t.provider = some (.memory m)) (hsound : m.Sound types) {filter : Option Expr}
    {here : Setting} {kept : List Combination}
    (h : t.matchingRows c now id filter = .ok (here, kept)) :
    here = Table.here c now m ∧ ∃ values : List Value, values.length = m.rows.length ∧
      kept = keptFor (m.ids.map fun i => [some i]) values ∧
      ∀ (k : Nat) (e : RowId × Row) (v : Value), m.rows[k]? = some e → values[k]? = some v →
        Expr.Tests filter here e (k + 1) v := by
  rw [Table.matchingRows_eq hid hm, hsound.rowIds_eq] at h
  obtain ⟨program, hprogram, h⟩ := bind_eq_ok_iff.1 h
  obtain ⟨kept', hkept, h⟩ := bind_eq_ok_iff.1 h
  obtain ⟨rfl, rfl⟩ := Prod.mk.inj (Except.ok.inj h)
  refine ⟨rfl, ?_⟩
  cases filter with
  | none =>
    obtain rfl := Except.ok.inj hprogram
    obtain rfl := Except.ok.inj hkept
    refine ⟨(m.ids.map fun i => [some i]).map fun _ => .boolean true, ?_,
      (keptFor_true _).symm, fun k e v _ hv => ?_⟩
    · rw [List.length_map, List.length_map, MemoryTable.ids, List.length_map]
    · obtain ⟨_, -, rfl⟩ := List.mem_map.1 (List.mem_of_getElem? hv)
      rfl
  | some f =>
    obtain ⟨code, hcode, hprogram⟩ := bind_eq_ok_iff.1 hprogram
    obtain rfl := Except.ok.inj hprogram
    obtain ⟨values, hvalues, rfl⟩ := filterRows_eq_ok hkept
    refine ⟨values, ?_, rfl, fun k e v he hv => ?_⟩
    · rw [← hvalues.length_eq, List.length_zipIdx, List.length_map, MemoryTable.ids,
        List.length_map]
    · obtain ⟨r, hr, env, henv, hvalue⟩ := forall₂_getElem? hvalues hv
      have hrow : r = ([some e.1], k + 1) := by
        rw [List.getElem?_zipIdx, List.getElem?_map, MemoryTable.ids, List.getElem?_map, he,
          Nat.add_comm] at hr
        exact (Option.some.inj hr).symm
      rw [hrow, Setting.envFor, Table.locateAll_here hsound he] at henv
      obtain rfl := Except.ok.inj henv
      exact (Expr.value_of_emit hcode _).symm.trans hvalue

/-! ### Rows that are changed -/

/-- The row with the values of the assignments in it, which have their values for the old row. -/
def Assignment.Gives (assignments : List Assignment) (here : Setting) (e : RowId × Row)
    (new : Row) : Prop :=
  ∃ values : List Value,
    List.Forall₂ (fun a v =>
      a.value.value here.catalog (here.env [some e] 0 beforeFirst) = .ok v) assignments values ∧
    new = e.2.withChange ((assignments.map Assignment.position).zip values)

/-- The change of a row has the values of the assignments for the row. -/
theorem Update.rowChange_values (hsound : m.Sound types) {assignments : List Assignment}
    {programs : List (Nat × Column × Program Query)}
    (hprograms : assignments.mapM (Update.assignment c now t) = .ok programs) {k : Nat}
    {e : RowId × Row} (he : m.rows[k]? = some e) {r : RowId × Change}
    (h : Update.rowChange (Table.here c now m) programs [some e.1] = .ok r) :
    r.1 = e.1 ∧ ∃ values : List Value,
      List.Forall₂ (fun a v => a.value.value c ((Table.here c now m).env [some e] 0 beforeFirst) =
        .ok v) assignments values ∧
      r.2 = (assignments.map Assignment.position).zip values := by
  rw [Update.rowChange, Setting.envAt, Table.locateAll_here hsound he] at h
  simp only [ok_bind, bind_eq_ok_iff] at h
  obtain ⟨change, hchange, h⟩ := h
  obtain rfl := Except.ok.inj h
  refine ⟨rfl, ?_⟩
  have hall := mapM_eq_ok_iff.1 hprograms
  clear hprograms h
  induction hall generalizing change with
  | nil =>
    obtain rfl := Except.ok.inj hchange
    exact ⟨[], .nil, rfl⟩
  | @cons a p assignments programs hp _ ih =>
    rw [List.mapM_cons] at hchange
    obtain ⟨b, hb, hchange⟩ := bind_eq_ok_iff.1 hchange
    obtain ⟨rest, hrest, hchange⟩ := bind_eq_ok_iff.1 hchange
    obtain rfl := Except.ok.inj hchange
    obtain ⟨values, hvalues, hzip⟩ := ih rest hrest
    simp only [Update.assignment, bind_eq_ok_iff] at hp
    obtain ⟨column, -, program, hprogram, hp⟩ := hp
    obtain rfl := Except.ok.inj hp
    simp only [Column.evaluate, bind_eq_ok_iff] at hb
    obtain ⟨v, ⟨v', hv, fits, -, hv'⟩, hb⟩ := hb
    obtain rfl := Except.ok.inj hv'
    obtain rfl := Except.ok.inj hb
    obtain ⟨code, hcode, rfl⟩ := map_eq_ok_iff.1 hprogram
    have hvalue := Expr.value_of_emit hcode ((Table.here c now m).env [some e] 0 beforeFirst)
    refine ⟨v' :: values, .cons (hvalue.symm.trans hv) hvalues, ?_⟩
    rw [List.map_cons, List.zip_cons_cons]
    exact congrArg (_ :: ·) hzip

/-! ### The table after an UPDATE -/

/-- What an UPDATE makes of the rows of a table, when `values` are those of WHERE for the rows. -/
structure Update.Does (u : Update) (c : Catalog) (now : Date.Instant) (m : MemoryTable)
    (values : List Value) (rows : Entries) : Prop where
  ids : rows.map Prod.fst = m.rows.map Prod.fst
  length : values.length = m.rows.length
  tests : ∀ (k : Nat) (e : RowId × Row) (v : Value), m.rows[k]? = some e → values[k]? = some v →
    Expr.Tests u.filter (Table.here c now m) e (k + 1) v
  changed : ∀ (k : Nat) (e e' : RowId × Row) (v : Value), m.rows[k]? = some e →
    rows[k]? = some e' → values[k]? = some v → v.isTrue = true →
    Assignment.Gives u.assignments (Table.here c now m) e e'.2
  unchanged : ∀ (k : Nat) (e e' : RowId × Row) (v : Value), m.rows[k]? = some e →
    rows[k]? = some e' → values[k]? = some v → v.isTrue = false → e' = e

section

variable {changes : List (RowId × Change)} {rows : Entries} {ids : List RowId}
  {values : List Value} {programs : List (Nat × Column × Program Query)} {u : Update}
  {out : Output}

/-- The row at a place after changes has the id of the one before. -/
theorem MemoryTable.Written.entry (hw : m.Written changes rows) (hsound : m.Sound types) {k : Nat}
    {e e' : RowId × Row} (he : m.rows[k]? = some e) (he' : rows[k]? = some e') :
    e'.1 = e.1 ∧ rows.at? e.1 = some e'.2 := by
  have hid : e'.1 = e.1 := by
    have hids := congrArg (fun l => l[k]?) hw.ids
    simp only [MemoryTable.ids, List.getElem?_map, he, he', Option.map_some] at hids
    exact Option.some.inj hids
  have hascending : rows.Ascending := by
    refine List.pairwise_map.1 ?_
    rw [hw.ids]
    exact List.pairwise_map.2 hsound.ascending
  exact ⟨hid, (Entries.at?_eq_some_iff hascending).2 (hid ▸ List.mem_of_getElem? he')⟩

/-- The row at a place is among those that are kept when its value is TRUE, and only then. -/
theorem MemoryTable.Sound.mem_kept_iff (hsound : m.Sound types)
    (hkept : (ids.map fun i => [some i]) = keptFor (m.ids.map fun i => [some i]) values) {k : Nat}
    {e : RowId × Row} {v : Value} (he : m.rows[k]? = some e) (hv : values[k]? = some v) :
    e.1 ∈ ids ↔ v.isTrue = true := by
  have hk : m.ids[k]? = some e.1 := by rw [MemoryTable.ids, List.getElem?_map, he, Option.map_some]
  have hmem : e.1 ∈ ids ↔ [some e.1] ∈ keptFor (m.ids.map fun i => [some i]) values := by
    rw [← hkept, List.mem_map]
    constructor
    · intro hmem
      exact ⟨_, hmem, rfl⟩
    · rintro ⟨i, hi, heq⟩
      exact Option.some.inj (List.cons.inj heq).1 ▸ hi
  rw [hmem, mem_keptFor]
  constructor
  · rintro ⟨j, w, hj, hw, htrue⟩
    obtain ⟨i, hi, heq⟩ := Option.map_eq_some_iff.1 ((List.getElem?_map ..).symm.trans hj)
    obtain rfl := Option.some.inj (List.cons.inj heq).1
    -- no two rows have the same id, so the two places are one
    have hnodup : m.ids.Nodup :=
      (List.pairwise_map.2 hsound.ascending : m.ids.Pairwise (· < ·)).imp Int.ne_of_lt
    obtain ⟨hlt, -⟩ := List.getElem?_eq_some_iff.1 hi
    obtain rfl := (List.getElem?_inj hlt hnodup).1 (hi.trans hk.symm)
    exact Option.some.inj (hw.symm.trans hv) ▸ htrue
  · intro htrue
    exact ⟨k, v, by rw [List.getElem?_map, hk, Option.map_some], hv, htrue⟩

/-- What the writes make of the rows is what the UPDATE says. -/
theorem Update.does_of_written (hsound : m.Sound types) (hlength : values.length = m.rows.length)
    (htests : ∀ (k : Nat) (e : RowId × Row) (v : Value), m.rows[k]? = some e →
      values[k]? = some v → Expr.Tests u.filter (Table.here c now m) e (k + 1) v)
    (hkept : (ids.map fun i => [some i]) = keptFor (m.ids.map fun i => [some i]) values)
    (hprograms : u.assignments.mapM (Update.assignment c now t) = .ok programs)
    (hall : List.Forall₂
      (fun i r => Update.rowChange (Table.here c now m) programs [some i] = .ok r) ids changes)
    (hfst : changes.map Prod.fst = ids) (hw : m.Written changes rows) :
    u.Does c now m values rows where
  ids := hw.ids
  length := hlength
  tests := htests
  changed k e e' v he he' hv htrue := by
    obtain ⟨r, hr, hrow⟩ :=
      exists_mem_of_forall₂ hall.flip ((hsound.mem_kept_iff hkept he hv).2 htrue)
    obtain ⟨hid, values', hvalues, hchange⟩ := Update.rowChange_values hsound hprograms he hrow
    obtain ⟨old, new, hold, hnew, hafter⟩ := hw.changed r hr
    rw [hid] at hold hafter
    -- the write finds the row as it was, since no other change is for the same id
    obtain rfl := Option.some.inj (hold.symm.trans (hsound.at?_eq he))
    obtain rfl := Option.some.inj (hafter.symm.trans (hw.entry hsound he he').2)
    exact ⟨values', hvalues, hchange ▸ MemoryTable.write_eq_ok hnew⟩
  unchanged k e e' v he he' hv hfalse := by
    have hnot : e.1 ∉ changes.map Prod.fst := fun hmem =>
      Bool.false_ne_true (hfalse.symm.trans ((hsound.mem_kept_iff hkept he hv).1 (hfst ▸ hmem)))
    obtain ⟨hid, hafter⟩ := hw.entry hsound he he'
    rw [hw.others _ hnot, hsound.at?_eq he] at hafter
    exact Prod.ext hid (Option.some.inj hafter).symm

/-- An UPDATE that succeeds changes the rows of its table, and nothing else. -/
theorem Update.execute_does (hc : c.Sound) (h : (u.execute c now).1 = .ok out) :
    ∃ id t m values rows, u.id = some id ∧ c.tables[id]? = some t ∧
      t.provider = some (.memory m) ∧ m.Sound t.types ∧ u.Does c now m values rows ∧
      u.execute c now = (.ok (.ofAffected (values.countP Value.isTrue)),
        c.setProvider id (.memory { m with rows })) := by
  rw [Update.execute] at h
  cases hprepared : u.prepareRows c now with
  | error e =>
    rw [hprepared] at h
    cases h
  | ok prepared =>
    have hrun := hprepared
    simp only [Update.prepareRows, bind_eq_ok_iff] at hprepared
    obtain ⟨⟨id, t⟩, htarget, programs, hprograms, ⟨here, kept⟩, hmatching, changes, hchanges, p,
      hp, hprepared⟩ := hprepared
    obtain rfl := Except.ok.inj hprepared
    obtain ⟨hid, m, rfl, hm, hsound⟩ := hc.target htarget hp
    obtain ⟨rfl, values, hlength, hkept, htests⟩ :=
      Table.matchingRows_values hid hm hsound hmatching
    -- the rows that are kept are rows of the table, each of them once
    obtain ⟨e, herror, -⟩ | ⟨ids, hids, hok, -⟩ := Table.pickedBy_cases hid hm now u.filter
    · rw [hmatching] at herror
      cases herror
    obtain rfl := congrArg Prod.snd (Except.ok.inj (hmatching.symm.trans hok))
    rw [List.mapM_map] at hchanges
    have hall := mapM_eq_ok_iff.1 hchanges
    have hfst := Update.map_fst_of_rowChange (Table.mem_ids_of_sublist hids) hchanges
    have hfits : ∀ r ∈ changes, r.1 ∈ m.ids ∧ r.2.Fits t.types := by
      intro r hr
      obtain ⟨i, hi, hrow⟩ := exists_mem_of_forall₂ hall hr
      exact Update.rowChange_eq_ok (hc.table hid) rfl (expectColumnAt_of_assignment hprograms)
        (List.mem_map_of_mem (hids.subset hi)) hrow
    obtain ⟨rows, hrows, hwritten⟩ :=
      hsound.changeAll_update (hfst ▸ Table.nodup_of_sublist hids) hfits
    have hcount : changes.length = values.countP Value.isTrue := by
      have hids : values.length = (m.ids.map fun i => [some i]).length := by
        rw [hlength, List.length_map, MemoryTable.ids, List.length_map]
      rw [← length_keptFor hids, ← hkept, List.length_map, ← hfst, List.length_map]
    refine ⟨id, t, m, values, rows, (Catalog.expectTarget_eq_ok htarget).1, hid, hm, hsound,
      Update.does_of_written hsound hlength htests hkept hprograms hall hfst hwritten, ?_⟩
    simp only [Update.execute, hrun, Catalog.outcome, Catalog.changeRows, hrows, ← hcount]
    rfl

/-- What a resolved UPDATE names: its table and the columns that it assigns to. -/
theorem Update.names_of_resolve {s : Update} (h : s.resolve c = .ok u) :
    ∃ id t, c.findTable? u.table = some (id, t) ∧ u.id = some id ∧
      ∀ a ∈ u.assignments, t.Names a.column a.position := by
  simp only [Update.resolve, bind_eq_ok_iff] at h
  obtain ⟨⟨id, t⟩, hnamed, assignments, hassignments, filter, -, h⟩ := h
  obtain rfl := Except.ok.inj h
  refine ⟨id, t, Catalog.expectNamed_eq_ok hnamed, rfl, fun a ha => ?_⟩
  obtain ⟨a', -, hresolve⟩ := exists_mem_of_forall₂ (mapM_eq_ok_iff.1 hassignments) ha
  simp only [Assignment.resolve, bind_eq_ok_iff] at hresolve
  obtain ⟨position, hposition, _, -, _, -, hresolve⟩ := hresolve
  obtain rfl := Except.ok.inj hresolve
  exact Table.names_of_expectColumn hposition

end

theorem Catalog.setProvider_eq (hid : c.tables[id]? = some t) (p : Provider) :
    c.setProvider id p = { c with tables := c.tables.set id { t with provider := some p } } := by
  rw [setProvider, modify, List.modify_eq_set_getElem?, hid]
  rfl

namespace Database

variable {db : Database} {text : String} {u : Update} {out : Output}

/-- A text that can be prepared does what its statement does. -/
theorem execute_eq_of_prepare {s : Statement} (h : db.prepare text = .ok s) (now : Date.Instant) :
    db.execute now text = ((s.execute db.catalog now).1,
      { db with catalog := (s.execute db.catalog now).2 }) := by
  simp only [prepare] at h
  simp only [execute, Catalog.run, Catalog.outcome, h]

/-- **UPDATE is simultaneous and local.**  After an UPDATE that succeeds the table has the ids it
had, in the same order.  A row for which WHERE was TRUE has in each column that is assigned to the
value of the last assignment to it, for the row as it was and in the catalog as it was, and is as
it was in all other columns; all other rows are as they were, and so is the rest of the database.
What comes out is how many rows WHERE was TRUE for. -/
theorem Reachable.update_rows (h : Reachable db) (hu : db.prepare text = .ok (.update u))
    (hout : (db.execute now text).1 = .ok out) :
    ∃ id t m values rows, db.catalog.findTable? u.table = some (id, t) ∧
      t.provider = some (.memory m) ∧ (∀ a ∈ u.assignments, t.Names a.column a.position) ∧
      (∀ e ∈ m.rows, e.2.length = t.columns.length) ∧
      u.Does db.catalog now m values rows ∧
      (db.execute now text).2 =
        { db with catalog := { db.catalog with
            tables := db.catalog.tables.set id
              { t with provider := some (.memory { m with rows }) } } } ∧
      out = .ofAffected (values.countP Value.isTrue) := by
  obtain ⟨read, -, hresolve⟩ := exists_of_prepare hu
  obtain ⟨s, rfl, hs⟩ : ∃ s : Update, read = .update s ∧ s.resolve db.catalog = .ok u := by
    cases read with
    | update s =>
      obtain ⟨u', hu', heq⟩ := bind_eq_ok_iff.1 hresolve
      exact ⟨s, rfl, Statement.update.inj (Except.ok.inj heq) ▸ hu'⟩
    | select | insert | delete | create =>
      obtain ⟨_, -, heq⟩ := bind_eq_ok_iff.1 hresolve
      cases heq
  obtain ⟨id, t, hfound, hid, hnames⟩ := Update.names_of_resolve hs
  have hexecute := execute_eq_of_prepare hu now
  rw [hexecute] at hout
  obtain ⟨id', t', m, values, rows, hid', ht', hm, hsound, hdoes, hrun⟩ :=
    Update.execute_does h.sound hout
  obtain rfl := Option.some.inj (hid.symm.trans hid')
  obtain rfl := Option.some.inj ((Catalog.getElem?_of_findTable? hfound).symm.trans ht')
  rw [Statement.execute, hrun] at hout hexecute
  refine ⟨id, t, m, values, rows, hfound, hm, hnames, fun e he => ?_, hdoes, ?_,
    (Except.ok.inj hout).symm⟩
  · rw [(hsound.typed e he).length_eq, Table.types, List.length_map]
  · rw [hexecute, Catalog.setProvider_eq ht']

/-- A table of pairs with the given rows. -/
def pairsWith (rows : Entries) : Database :=
  let columns : Columns := [⟨"a", .boolean⟩, ⟨"b", .boolean⟩]
  ⟨⟨"wooby", [⟨"pairs", columns, some (.memory ⟨rows, 2, 2⟩)⟩], Function.builtins⟩, {}⟩

def pairs : Database :=
  pairsWith [(0, [.boolean true, .boolean false]), (1, [.null, .null])]

theorem reachable_pairs : Reachable pairs := by
  let created := ((ofConfig {}).execute ⟨0, 0⟩ "CREATE TABLE pairs (a BOOLEAN, b BOOLEAN)").2
  have hinserted : (created.execute ⟨0, 0⟩
      "INSERT INTO pairs VALUES (TRUE, FALSE), (NULL, NULL)").2 = pairs := by
    cbv
  exact hinserted ▸ .execute (.execute (.new {}) _ _) _ _

def swap : Update :=
  let column (name : String) (i offset : Nat) : Expr :=
    ⟨[.column ⟨some "pairs", name, .boolean, 0, some ⟨0, i⟩, offset⟩], .boolean, true, false, name,
      none, offset⟩
  ⟨"UPDATE pairs SET a = b, b = a WHERE a", "pairs", some 0,
    [⟨"a", 0, column "b" 1 21, 17⟩, ⟨"b", 1, column "a" 0 28, 24⟩], some (column "a" 0 36), 0⟩

/-- The parts of the first pair are exchanged: neither assignment sees what the other one does.  For
the second pair WHERE is NULL. -/
theorem pairs_swapped :
    pairs.prepare swap.text = .ok (.update swap) ∧ ∃ m values rows,
      swap.Does pairs.catalog ⟨0, 0⟩ m values rows ∧ values.countP Value.isTrue = 1 ∧
      rows = [(0, [.boolean false, .boolean true]), (1, [.null, .null])] := by
  have hprepare : pairs.prepare swap.text = .ok (.update swap) := by
    cbv
  have hrun : (Statement.update swap).execute pairs.catalog ⟨0, 0⟩ = (.ok (.ofAffected 1),
      (pairsWith [(0, [.boolean false, .boolean true]), (1, [.null, .null])]).catalog) := by
    cbv
  have hexecute := execute_eq_of_prepare hprepare ⟨0, 0⟩
  rw [hrun] at hexecute
  obtain ⟨id, t, m, values, rows, hfound, -, -, -, hdoes, hafter, hout⟩ :=
    reachable_pairs.update_rows hprepare (congrArg Prod.fst hexecute)
  have hid : (pairs.catalog.findTable? swap.table).map Prod.fst = some 0 := by
    cbv
  rw [hfound] at hid
  obtain rfl : id = 0 := Option.some.inj hid
  have hprovider := congrArg (fun db => db.catalog.provider? 0)
    (hafter.symm.trans (congrArg Prod.snd hexecute))
  exact ⟨hprepare, m, values, rows, hdoes, (congrArg Output.affected hout).symm,
    congrArg MemoryTable.rows (Provider.memory.inj (Option.some.inj hprovider))⟩

end Database

end SqlEngine
