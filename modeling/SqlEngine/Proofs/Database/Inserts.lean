import SqlEngine.Proofs.Database.WholeTables

/-!
# Databases — what an INSERT adds to its table

The rows of an INSERT are all evaluated before the first one is added, in the catalog as it was.  A
value finds its column in three steps: the resolver turns the i-th name into a position, the
evaluation pairs the i-th value with the i-th position, and the table writes each pair into a row of
NULLs.  As no position is there twice, each pair can be read back (`Row.blank_withChange`).

Ids are given out from a counter of the table that no statement turns back: a table keeps its place,
and its counter only moves forward (`Table.Since`), by one statement and so by any number of them
(`Runs.since`).

* `MemoryTable.Sound.insertAll`: the table after several rows have been added.
* `Insert.rowChange_values`: the change for a row pairs the positions with the values.
* `Statement.execute_since`: what every statement leaves of the tables.
* `Database.Reachable.insert_rows`: the database after an INSERT, and what is read back.
-/

namespace SqlEngine

variable {c : Catalog} {now : Date.Instant} {t : Table} {id : Nat} {m : MemoryTable}
  {types : List DataType}

/-! ### Rows that are added -/

theorem Entries.put_of_forall_lt {id : RowId} {row : Row} : ∀ {es : Entries},
    (∀ e ∈ es, e.1 < id) → es.put id row = es ++ [(id, row)]
  | [], _ => rfl
  | e :: es, h => by
    obtain ⟨he, hes⟩ := List.forall_mem_cons.1 h
    rw [put, if_neg (Int.not_lt.2 (Int.le_of_lt he)),
      if_neg (by simpa using (Int.ne_of_lt he).symm), put_of_forall_lt hes, List.cons_append]

/-- The rows that changes make, under the ids from the given one on. -/
def Entries.fresh (width : Nat) : RowId → List Change → Entries
  | _,  []                => []
  | id, change :: changes => (id, (Row.blank width).withChange change) :: fresh width (id + 1) changes

theorem Entries.map_snd_fresh (width : Nat) (id : RowId) (changes : List Change) :
    (fresh width id changes).map Prod.snd =
      changes.map fun change => (Row.blank width).withChange change := by
  induction changes generalizing id with
  | nil => rfl
  | cons change changes ih => rw [fresh, List.map_cons, ih, List.map_cons]

theorem Entries.id_of_fresh {width : Nat} {changes : List Change} {id : RowId} {k : Nat}
    {e : RowId × Row} (he : (fresh width id changes)[k]? = some e) : e.1 = id + k := by
  induction changes generalizing id k with
  | nil => cases he
  | cons change changes ih =>
    cases k with
    | zero =>
      obtain rfl := Option.some.inj he
      exact (Int.add_zero id).symm
    | succ k => rw [ih he, Nat.cast_succ, Int.add_assoc, Int.add_comm 1]

/-- The table with the rows that changes make behind its own. -/
def MemoryTable.extend (m : MemoryTable) (changes : List Change) : MemoryTable :=
  { m with
    rows := m.rows ++ Entries.fresh m.width m.nextId changes,
    nextId := m.nextId + changes.length }

/-- A row that is added stands behind the others, under the next id. -/
theorem MemoryTable.Sound.insert_eq (h : m.Sound types) {change : Change} {r : RowId × MemoryTable}
    (hr : m.insert change = .ok r) : r.2 = m.extend [change] := by
  obtain ⟨row, hrow, hr⟩ := bind_eq_ok_iff.1 hr
  obtain rfl := Except.ok.inj hr
  rw [MemoryTable.write_eq_ok hrow, Entries.put_of_forall_lt fun e he => (h.ids e he).2]
  rfl

theorem MemoryTable.extend_cons (m : MemoryTable) (change : Change) (changes : List Change) :
    (m.extend [change]).extend changes = m.extend (change :: changes) := by
  simp only [extend, Entries.fresh, List.append_assoc, List.singleton_append, List.length_cons,
    List.length_nil, Nat.cast_succ, Nat.cast_zero, Int.zero_add, Int.add_assoc, Int.add_comm 1]

/-- The change of a provider that an INSERT makes for each of its rows. -/
abbrev Provider.insertRow (p : Provider) (change : Change) : Except Error Provider :=
  (p.insert change).map Prod.snd

/-- **Rows that are added** stand behind the others in their order, under consecutive new ids. -/
theorem MemoryTable.Sound.insertAll : ∀ {changes : List Change} {m : MemoryTable},
    m.Sound types → (∀ change ∈ changes, change.Fits types) →
    (Provider.memory m).changeAll Provider.insertRow changes =
      (.ok (), .memory (m.extend changes)) ∧ (m.extend changes).Sound types
  | [], m, h, _ => by
    have hextend : m.extend [] = m := by
      simp only [extend, Entries.fresh, List.append_nil, List.length_nil, Nat.cast_zero,
        Int.add_zero]
    rw [hextend]
    exact ⟨rfl, h⟩
  | change :: changes, m, h, hfits => by
    obtain ⟨hchange, hchanges⟩ := List.forall_mem_cons.1 hfits
    obtain ⟨m', hm', hsound'⟩ := h.insert hchange
    have hstep : Provider.insertRow (.memory m) change = .ok (.memory m') := by
      simp only [Provider.insertRow, Provider.insert, hm']
      rfl
    obtain rfl := h.insert_eq hm'
    rw [← extend_cons, Provider.changeAll, hstep]
    exact hsound'.insertAll hchanges

/-! ### Values in their columns -/

theorem Change.last?_zip_of_not_mem {positions : List Nat} {values : List Value} {i : Nat}
    (h : i ∉ positions) : Change.last? (positions.zip values) i = none := by
  rw [last?, Option.map_eq_none_iff, List.find?_eq_none]
  intro p hp heq
  rw [beq_iff_eq] at heq
  exact h (heq ▸ (List.of_mem_zip (List.mem_reverse.1 hp)).1)

/-- The last pair for a position is the only one, if no position is there twice. -/
theorem Change.last?_zip : ∀ {positions : List Nat} {values : List Value} {k i : Nat} {v : Value},
    positions.Nodup → positions[k]? = some i → values[k]? = some v →
    Change.last? (positions.zip values) i = some v
  | [], _, _, _, _, _, hi, _ => by cases hi
  | _ :: _, [], _, _, _, _, _, hv => by cases hv
  | j :: positions, w :: values, k, i, v, h, hi, hv => by
    obtain ⟨hj, h⟩ := List.nodup_cons.1 h
    rw [List.zip_cons_cons, last?_cons]
    cases k with
    | zero =>
      obtain rfl := Option.some.inj hi
      obtain rfl := Option.some.inj hv
      rw [last?_zip_of_not_mem hj, Option.none_or, if_pos rfl]
    | succ k => rw [last?_zip h hi hv, Option.some_or]

/-- The row has the values at the positions, and NULL at all others. -/
structure Row.Places (row : Row) (width : Nat) (positions : List Nat) (values : List Value) :
    Prop where
  length : row.length = width
  values : ∀ (k i : Nat) (v : Value), positions[k]? = some i → values[k]? = some v →
    row[i]? = some v
  others : ∀ i, i < width → i ∉ positions → row[i]? = some .null

/-- **Each value can be read back** at its position. -/
theorem Row.blank_withChange {width : Nat} {positions : List Nat} {values : List Value}
    (hnodup : positions.Nodup) (hwidth : ∀ i ∈ positions, i < width) :
    ((Row.blank width).withChange (positions.zip values)).Places width positions values where
  length := by rw [withChange, List.length_mapIdx, blank, List.length_replicate]
  values k i v hi hv := by
    rw [withChange, List.getElem?_mapIdx, blank,
      List.getElem?_replicate_of_lt (hwidth i (List.mem_of_getElem? hi)), Option.map_some,
      Change.last?_zip hnodup hi hv, Option.getD_some]
  others i hi hnot := by
    rw [withChange, List.getElem?_mapIdx, blank, List.getElem?_replicate_of_lt hi, Option.map_some,
      Change.last?_zip_of_not_mem hnot, Option.getD_none]

/-! ### The rows of an INSERT -/

namespace Insert

/-- What the values of an INSERT see: the catalog as it is, and no row. -/
def env (c : Catalog) (now : Date.Instant) : Env :=
  (Setting.mk c [] [] now).env [] 0 beforeFirst

/-- The change for a row pairs the positions with the values of the expressions. -/
theorem rowChange_values : ∀ {es : List Expr} {positions : List Nat} {change : Change},
    rowChange c now t es positions = .ok change → es.length = positions.length →
    ∃ values, List.Forall₂ (fun e v => e.value c (env c now) = .ok v) es values ∧
      change = positions.zip values
  | [], [], change, h, _ => ⟨[], .nil, (Except.ok.inj h).symm⟩
  | e :: es, i :: positions, change, h, hlength => by
    simp only [rowChange, bind_eq_ok_iff] at h
    obtain ⟨p, hp, v, hv, column, -, _, -, rest, hrest, h⟩ := h
    obtain rfl := Except.ok.inj h
    obtain ⟨values, hvalues, rfl⟩ := rowChange_values hrest (Nat.succ.inj hlength)
    obtain ⟨code, hcode, rfl⟩ := map_eq_ok_iff.1 hp
    have hvalue := Expr.value_of_emit hcode (env c now)
    exact ⟨v :: values, .cons (hvalue.symm.trans hv) hvalues, rfl⟩

/-- The row that an INSERT makes of expressions: the value of each is in the column of its place,
and all other columns are NULL. -/
def Makes (c : Catalog) (now : Date.Instant) (t : Table) (positions : List Nat) (es : List Expr)
    (row : Row) : Prop :=
  ∃ values, List.Forall₂ (fun e v => e.value c (env c now) = .ok v) es values ∧
    row.Places t.columns.length positions values

/-- An INSERT as it is written, and with the meaning of its names in the catalog. -/
structure Resolves (c : Catalog) (t : Table) (written s : Insert) : Prop where
  columns : if written.columns = [] then s.positions = List.range t.columns.length else
    List.Forall₂ t.Names written.columns s.positions
  nodup : s.positions.Nodup
  bounded : ∀ i ∈ s.positions, i < t.columns.length
  rows : List.Forall₂ (fun es es' => es.length = s.positions.length ∧
    List.Forall₂ (fun e e' => Expr.resolve c [[]] false e = .ok e') es es') written.rows s.rows

theorem positionsOf_eq_ok {offset : Nat} : ∀ {names : List String} {seen positions : List Nat},
    positionsOf t offset seen names = .ok positions → seen.Nodup →
    positions.Nodup ∧ ∃ found, positions = seen ++ found ∧ List.Forall₂ t.Names names found
  | [], seen, positions, h, hseen => by
    obtain rfl := Except.ok.inj h
    exact ⟨hseen, [], (List.append_nil _).symm, .nil⟩
  | name :: names, seen, positions, h, hseen => by
    simp only [positionsOf, bind_eq_ok_iff] at h
    obtain ⟨i, hi, h⟩ := h
    split at h
    next => cases h
    next hnew =>
      rw [List.contains_iff_mem] at hnew
      have hnodup : (seen ++ [i]).Nodup :=
        hseen.append (List.nodup_singleton i) (by simpa using hnew)
      obtain ⟨hpositions, found, hfound, hnames⟩ := positionsOf_eq_ok h hnodup
      refine ⟨hpositions, i :: found, ?_, .cons (Table.names_of_expectColumn hi) hnames⟩
      rw [hfound, List.append_assoc, List.singleton_append]

theorem resolveRow_eq_ok : ∀ {positions : List Nat} {es es' : List Expr},
    resolveRow c t positions es = .ok es' → es.length = positions.length →
    List.Forall₂ (fun e e' => Expr.resolve c [[]] false e = .ok e') es es'
  | [], [], es', h, _ => Except.ok.inj h ▸ .nil
  | i :: positions, e :: es, es', h, hlength => by
    simp only [resolveRow, bind_eq_ok_iff] at h
    obtain ⟨e', he, _, -, rest, hrest, h⟩ := h
    exact Except.ok.inj h ▸ .cons he (resolveRow_eq_ok hrest (Nat.succ.inj hlength))

/-- What a resolved INSERT names, and what its values are. -/
theorem resolves_of_resolve {written s : Insert} (h : written.resolve c = .ok s) :
    ∃ id t, c.findTable? written.table = some (id, t) ∧ s.id = some id ∧
      written.Resolves c t s := by
  obtain ⟨id, t, ht, hid, hbounded, hrows⟩ := resolve_eq_ok h
  refine ⟨id, t, ht, hid, ?_⟩
  have hpositions : s.positions.Nodup ∧
      if written.columns = [] then s.positions = List.range t.columns.length else
        List.Forall₂ t.Names written.columns s.positions := by
    simp only [resolve, bind_eq_ok_iff] at h
    obtain ⟨⟨id', t'⟩, hnamed, h⟩ := h
    obtain ⟨-, rfl⟩ :=
      Prod.mk.inj (Option.some.inj (ht.symm.trans (Catalog.expectNamed_eq_ok hnamed)))
    split at h
    next hempty =>
      simp only [ok_bind, bind_eq_ok_iff] at h
      obtain ⟨rows, -, h⟩ := h
      obtain rfl := Except.ok.inj h
      rw [if_pos (List.isEmpty_iff.1 hempty)]
      exact ⟨List.nodup_range, rfl⟩
    next hne =>
      simp only [bind_eq_ok_iff] at h
      obtain ⟨positions, hpositions, rows, -, h⟩ := h
      obtain rfl := Except.ok.inj h
      obtain ⟨hnodup, found, rfl, hnames⟩ := positionsOf_eq_ok hpositions List.nodup_nil
      rw [if_neg (fun hnil => hne (List.isEmpty_iff.2 hnil))]
      exact ⟨hnodup, hnames⟩
  exact {
    columns := hpositions.2
    nodup := hpositions.1
    bounded := fun i hi => by
      obtain ⟨column, hcolumn⟩ := hbounded i hi
      exact (List.getElem?_eq_some_iff.1 hcolumn).1
    rows := hrows.imp fun es es' h => ⟨h.1, resolveRow_eq_ok h.2 h.1⟩ }

/-- An INSERT that succeeds adds a row for each of its rows. -/
theorem execute_adds {written s : Insert} {out : Output} (hc : c.Sound)
    (hs : written.Resolves c t s) (hid : s.id = some id) (ht : c.tables[id]? = some t)
    (h : (s.execute c now).1 = .ok out) :
    ∃ m changes, t.provider = some (.memory m) ∧ m.Sound t.types ∧ (m.extend changes).Sound t.types ∧
      List.Forall₂ (fun es change => Makes c now t s.positions es
        ((Row.blank m.width).withChange change)) s.rows changes ∧
      s.execute c now = (.ok (.ofAffected written.rows.length),
        c.setProvider id (.memory (m.extend changes))) := by
  rw [execute] at h
  cases hprepared : s.prepareRows c now with
  | error e =>
    rw [hprepared] at h
    cases h
  | ok prepared =>
    have hrun := hprepared
    simp only [prepareRows, bind_eq_ok_iff] at hprepared
    obtain ⟨⟨id', t'⟩, htarget, changes, hchanges, p, hp, hprepared⟩ := hprepared
    obtain rfl := Except.ok.inj hprepared
    obtain ⟨ht', m, rfl, hm, hsound⟩ := hc.target htarget hp
    obtain rfl := Option.some.inj (hid.symm.trans (Catalog.expectTarget_eq_ok htarget).1)
    obtain rfl := Option.some.inj (ht.symm.trans ht')
    have hall := mapM_eq_ok_iff.1 hchanges
    have hfits : ∀ change ∈ changes, Change.Fits change t.types := by
      intro change hchange
      obtain ⟨es, -, hes⟩ := exists_mem_of_forall₂ hall hchange
      exact rowChange_fits (hc.table ht) hes
    have hlength : changes.length = written.rows.length :=
      hall.length_eq.symm.trans hs.rows.length_eq.symm
    have hwidth : m.width = t.columns.length := by rw [hsound.width, Table.types, List.length_map]
    obtain ⟨hadded, hsound'⟩ := hsound.insertAll hfits
    refine ⟨m, changes, hm, hsound, hsound', ?_, ?_⟩
    · -- every row that is written has a value for each position
      have hlengths : ∀ es ∈ s.rows, es.length = s.positions.length := by
        intro es hes
        obtain ⟨es', -, hes', hresolved⟩ := exists_mem_of_forall₂ hs.rows hes
        exact hresolved.length_eq.symm.trans hes'
      refine List.forall₂_iff_get.2 ⟨hall.length_eq, fun k hk hk' => ?_⟩
      obtain ⟨values, hvalues, hchange⟩ :=
        rowChange_values ((List.forall₂_iff_get.1 hall).2 k hk hk') (hlengths _ (List.get_mem _ _))
      refine ⟨values, hvalues, ?_⟩
      rw [hchange, hwidth]
      exact Row.blank_withChange hs.nodup hs.bounded
    · simp only [execute, hrun, Catalog.outcome, Catalog.changeRows, ← hlength]
      rw [hadded]
      rfl

end Insert

/-! ### What statements leave of the tables -/

/-- A table later on: it has its name and its columns, and its next id is not a smaller one. -/
structure Table.Since (t t' : Table) : Prop where
  name : t'.name = t.name
  columns : t'.columns = t.columns
  memory : ∀ m, t.provider = some (.memory m) →
    ∃ m', t'.provider = some (.memory m') ∧ m.nextId ≤ m'.nextId

/-- A catalog later on: its tables are at their places. -/
def Catalog.Since (c c' : Catalog) : Prop :=
  ∀ (id : Nat) (t : Table), c.tables[id]? = some t → ∃ t', c'.tables[id]? = some t' ∧ t.Since t'

theorem Table.Since.refl (t : Table) : t.Since t :=
  ⟨rfl, rfl, fun m hm => ⟨m, hm, Int.le_refl _⟩⟩

theorem Table.Since.trans {t₁ t₂ t₃ : Table} (h : t₁.Since t₂) (h' : t₂.Since t₃) :
    t₁.Since t₃ where
  name := h'.name.trans h.name
  columns := h'.columns.trans h.columns
  memory m hm := by
    obtain ⟨m', hm', hle⟩ := h.memory m hm
    obtain ⟨m'', hm'', hle'⟩ := h'.memory m' hm'
    exact ⟨m'', hm'', Int.le_trans hle hle'⟩

theorem Catalog.Since.refl (c : Catalog) : c.Since c :=
  fun _ t ht => ⟨t, ht, .refl t⟩

theorem Catalog.Since.trans {c₁ c₂ c₃ : Catalog} (h : c₁.Since c₂) (h' : c₂.Since c₃) :
    c₁.Since c₃ := by
  intro id t ht
  obtain ⟨t', ht', hsince⟩ := h id t ht
  obtain ⟨t'', ht'', hsince'⟩ := h' id t' ht'
  exact ⟨t'', ht'', hsince.trans hsince'⟩

/-- What changes of rows leave of a provider. -/
def Provider.Since (p p' : Provider) : Prop :=
  ∀ m, p = .memory m → ∃ m', p' = .memory m' ∧ m.nextId ≤ m'.nextId

theorem Provider.Since.refl (p : Provider) : p.Since p :=
  fun m hm => ⟨m, hm, Int.le_refl _⟩

theorem Provider.changeAll_since {α : Type} {change : Provider → α → Except Error Provider}
    (hstep : ∀ p a p', change p a = .ok p' → p.Since p') (p : Provider) (as : List α) :
    p.Since (p.changeAll change as).2 := by
  induction as generalizing p with
  | nil => exact .refl p
  | cons a as ih =>
    rw [changeAll]
    cases hchange : change p a with
    | error e => exact .refl p
    | ok next =>
      intro m hm
      obtain ⟨m', rfl, hle⟩ := hstep p a next hchange m hm
      obtain ⟨m'', hm'', hle'⟩ := ih (.memory m') m' rfl
      exact ⟨m'', hm'', Int.le_trans hle hle'⟩

theorem Provider.insert_since {p p' : Provider} {change : Change}
    (h : p.insertRow change = .ok p') : p.Since p' := by
  rintro m rfl
  obtain ⟨r, hr, rfl⟩ := map_eq_ok_iff.1 h
  obtain ⟨r', hr', rfl⟩ := map_eq_ok_iff.1 hr
  obtain ⟨row, -, hr'⟩ := bind_eq_ok_iff.1 hr'
  obtain rfl := Except.ok.inj hr'
  exact ⟨_, rfl, Int.le_of_lt (Int.lt_succ _)⟩

theorem Provider.update_since {p p' : Provider} {id : RowId} {change : Change}
    (h : p.update id change = .ok p') : p.Since p' := by
  rintro m rfl
  obtain ⟨m', hm', rfl⟩ := map_eq_ok_iff.1 h
  rw [MemoryTable.update] at hm'
  split at hm'
  · cases hm'
  · obtain ⟨row, -, hm'⟩ := bind_eq_ok_iff.1 hm'
    obtain rfl := Except.ok.inj hm'
    exact ⟨_, rfl, Int.le_refl _⟩

theorem Provider.delete_since {p p' : Provider} {id : RowId}
    (h : (p.delete id).map Prod.snd = .ok p') : p.Since p' := by
  rintro m rfl
  obtain ⟨r, hr, rfl⟩ := map_eq_ok_iff.1 h
  obtain ⟨r', hr', rfl⟩ := map_eq_ok_iff.1 hr
  rw [MemoryTable.delete] at hr'
  split at hr'
  · cases hr'
  · obtain rfl := Except.ok.inj hr'
    exact ⟨_, rfl, Int.le_refl _⟩

theorem Catalog.setProvider_since {p p' : Provider} (hp : c.provider? id = some p)
    (h : p.Since p') : c.Since (c.setProvider id p') := by
  intro j t ht
  simp only [setProvider, modify, List.getElem?_modify, ht]
  refine ⟨_, rfl, ?_⟩
  split
  next hid =>
    subst hid
    refine ⟨rfl, rfl, fun m hm => ?_⟩
    have hmemory : p = .memory m := by
      rw [provider?, ht, Option.bind_some, hm] at hp
      exact (Option.some.inj hp).symm
    obtain ⟨m', rfl, hle⟩ := h m hmemory
    exact ⟨m', rfl, hle⟩
  next => exact .refl t

theorem Catalog.provider?_of_expectProvider {name : String} {p : Provider}
    (h : c.expectProvider id name = .ok p) : c.provider? id = some p := by
  simp only [expectProvider] at h
  split at h
  next p' hp => exact Except.ok.inj h ▸ hp
  next => cases h

/-- A statement that prepares changes and makes them leaves the tables at their places. -/
theorem Catalog.outcome_since {α β : Type} {prepared : Except Error β} {run : β → Outcome}
    {change : Provider → α → Except Error Provider}
    (hstep : ∀ p a p', change p a = .ok p' → p.Since p')
    (hrun : ∀ b, prepared = .ok b → ∃ id p changes, c.provider? id = some p ∧
      run b = c.changeRows id p change changes) :
    c.Since (c.outcome prepared run).2 := by
  cases prepared with
  | error e => exact .refl c
  | ok b =>
    obtain ⟨id, p, changes, hp, hchanges⟩ := hrun b rfl
    rw [outcome, hchanges, changeRows]
    exact setProvider_since hp (Provider.changeAll_since hstep p changes)

/-- **What every statement leaves of the tables**: no table moves, and no id is given out again. -/
theorem Statement.execute_since (c : Catalog) (now : Date.Instant) (S : Statement) :
    c.Since (S.execute c now).2 := by
  cases S with
  | select s => exact .refl c
  | insert s =>
    refine Catalog.outcome_since (fun p change p' => @Provider.insert_since p p' change) ?_
    rintro ⟨id, p, rows⟩ hprepared
    simp only [Insert.prepareRows, bind_eq_ok_iff] at hprepared
    obtain ⟨⟨id', t⟩, -, rows', -, p', hp, hprepared⟩ := hprepared
    obtain ⟨rfl, rfl, rfl⟩ := Except.ok.inj hprepared
    exact ⟨_, _, _, Catalog.provider?_of_expectProvider hp, rfl⟩
  | update s =>
    refine Catalog.outcome_since (fun p (r : RowId × Change) p' => @Provider.update_since p p' r.1 r.2) ?_
    rintro ⟨id, p, changes⟩ hprepared
    simp only [Update.prepareRows, bind_eq_ok_iff] at hprepared
    obtain ⟨⟨id', t⟩, -, _, -, ⟨_, _⟩, -, changes', -, p', hp, hprepared⟩ := hprepared
    obtain ⟨rfl, rfl, rfl⟩ := Except.ok.inj hprepared
    exact ⟨_, _, _, Catalog.provider?_of_expectProvider hp, rfl⟩
  | delete s =>
    refine Catalog.outcome_since (fun p id p' => @Provider.delete_since p p' id) ?_
    rintro ⟨id, p, ids⟩ hprepared
    simp only [Delete.prepareRows, bind_eq_ok_iff] at hprepared
    obtain ⟨⟨id', t⟩, -, ⟨_, _⟩, -, p', hp, hprepared⟩ := hprepared
    obtain ⟨rfl, rfl, rfl⟩ := Except.ok.inj hprepared
    exact ⟨_, _, _, Catalog.provider?_of_expectProvider hp, rfl⟩
  | create s =>
    simp only [execute, Create.execute]
    cases hcreated : c.createTable s.table
      (s.columns.map fun column => ⟨column.name, column.type⟩) (.memory .empty) with
    | error e => exact .refl c
    | ok created =>
      simp only [Catalog.createTable, bind_eq_ok_iff] at hcreated
      obtain ⟨_, -, bound, -, hcreated⟩ := hcreated
      obtain rfl := Except.ok.inj hcreated
      intro j t ht
      have hj := (List.getElem?_eq_some_iff.1 ht).1
      exact ⟨t, (List.getElem?_append_left hj).trans ht, .refl t⟩

namespace Database

variable {db old : Database} {text : String} {out : Output} {written : Insert}

/-- The second database comes from the first by running texts. -/
inductive Runs : Database → Database → Prop
  | refl (db : Database) : Runs db db
  | execute {old db : Database} (h : Runs old db) (now : Date.Instant) (text : String) :
      Runs old (db.execute now text).2

theorem execute_since (db : Database) (now : Date.Instant) (text : String) :
    db.catalog.Since (db.execute now text).2.catalog := by
  simp only [execute, Catalog.run, Catalog.outcome]
  cases Statement.prepare db.config.parser db.catalog text with
  | error e => exact .refl _
  | ok S => exact S.execute_since db.catalog now

theorem Runs.since (h : Runs old db) : old.catalog.Since db.catalog := by
  induction h with
  | refl => exact .refl _
  | execute h now text ih => exact ih.trans (execute_since _ now text)

/-- Every id that a table has ever used is below its next one. -/
theorem Runs.lt_nextId (h : Runs old db) (hold : Reachable old) {t₀ : Table} {m₀ : MemoryTable}
    (ht₀ : old.catalog.tables[id]? = some t₀) (hm₀ : t₀.provider = some (.memory m₀))
    (ht : db.catalog.tables[id]? = some t) (hm : t.provider = some (.memory m))
    {e : RowId × Row} (he : e ∈ m₀.rows) : e.1 < m.nextId := by
  obtain ⟨t', ht', hsince⟩ := h.since id t₀ ht₀
  obtain rfl := Option.some.inj (ht.symm.trans ht')
  obtain ⟨m', hm', hle⟩ := hsince.memory m₀ hm₀
  obtain rfl := Provider.memory.inj (Option.some.inj (hm.symm.trans hm'))
  obtain ⟨m₁, hm₁, hsound⟩ := (hold.sound.table ht₀).memory
  obtain rfl := Provider.memory.inj (Option.some.inj (hm₀.symm.trans hm₁))
  exact Int.lt_of_lt_of_le (hsound.ids e he).2 hle

/-- After a text has changed the rows of a table, a text that reads the whole table gives the rows
that it has now. -/
theorem Reachable.reads_all (h : Reachable db) {name : String} {after : MemoryTable}
    (hfound : db.catalog.findTable? name = some (id, t))
    (hafter : (db.execute now text).2 = { db with catalog := { db.catalog with
      tables := db.catalog.tables.set id { t with provider := some (.memory after) } } })
    (hnames : ∀ column ∈ t.columns, column.name ≠ "*") {q : Select} {reading : String}
    (hreading : Statement.parse db.config.parser reading = .ok (.select q))
    (hq : q.ReadsAll name) (later : Date.Instant) :
    ((db.execute now text).2.execute later reading).1 =
      .ok ⟨t.columns, after.rows.map fun e => ⟨e.1, e.2⟩, 0⟩ := by
  have hreachable : Reachable (db.execute now text).2 := .execute h now text
  have hlt := (List.getElem?_eq_some_iff.1 (Catalog.getElem?_of_findTable? hfound)).1
  have ht : (db.execute now text).2.catalog.tables[id]? =
      some { t with provider := some (.memory after) } := by
    rw [hafter]
    exact List.getElem?_set_self hlt
  -- the name in the texts may be in other case than that of the table
  have hfound' := hreachable.findTable?_name ht
  have hname : Text.lower t.name = Text.lower name := Catalog.lower_of_findTable? hfound
  rw [Catalog.findTable?, hname] at hfound'
  have hconfig : (db.execute now text).2.config = db.config := by rw [hafter]
  rw [← hconfig] at hreading
  rw [execute_select hreading]
  exact hq.answer_eq hreachable.sound hfound' rfl hnames []

/-- **INSERT adds its rows and nothing else.**  After an INSERT that succeeds the table has the rows
it had, and behind them a row for each written row, in their order.  Their ids follow one another
from an id on that is above every id that the table has had in the run of texts up to here.  The
i-th value of a row is in the column that is named i-th, or in the i-th column where none is named;
it is that of the i-th expression in the catalog as it was.  All other columns of the row are NULL.
The rest of the database is as it was, and what comes out is how many rows were written.  A text
that reads the whole table then gives these rows, unless a column has the name of a wildcard. -/
theorem Reachable.insert_rows (h : Reachable db)
    (hparse : Statement.parse db.config.parser text = .ok (.insert written))
    (hout : (db.execute now text).1 = .ok out) :
    ∃ (s : Insert) (id : Nat) (t : Table) (m after : MemoryTable) (added : Entries),
      db.catalog.findTable? written.table = some (id, t) ∧ t.provider = some (.memory m) ∧
      written.Resolves db.catalog t s ∧
      after.rows = m.rows ++ added ∧
      (Provider.memory after).rowIds = (Provider.memory m).rowIds ++ added.map Prod.fst ∧
      List.Forall₂ (Insert.Makes db.catalog now t s.positions) s.rows (added.map Prod.snd) ∧
      (∀ (k : Nat) (e : RowId × Row), added[k]? = some e → e.1 = m.nextId + k) ∧
      (∀ (old : Database) (t₀ : Table) (m₀ : MemoryTable), Reachable old → Runs old db →
        old.catalog.tables[id]? = some t₀ → t₀.provider = some (.memory m₀) →
        ∀ e₀ ∈ m₀.rows, e₀.1 < m.nextId) ∧
      (db.execute now text).2 =
        { db with catalog := { db.catalog with
            tables := db.catalog.tables.set id { t with provider := some (.memory after) } } } ∧
      out = .ofAffected written.rows.length ∧
      ((∀ column ∈ t.columns, column.name ≠ "*") → ∀ (q : Select) (reading : String)
        (later : Date.Instant), Statement.parse db.config.parser reading = .ok (.select q) →
        q.ReadsAll written.table → ((db.execute now text).2.execute later reading).1 =
          .ok ⟨t.columns, (m.rows ++ added).map fun e => ⟨e.1, e.2⟩, 0⟩) := by
  cases hresolve : written.resolve db.catalog with
  | error e =>
    simp only [Database.execute, Catalog.run, Catalog.outcome, Statement.prepare, hparse,
      Statement.resolve, hresolve, ok_bind, error_bind] at hout
    cases hout
  | ok s =>
    have hprepare : db.prepare text = .ok (.insert s) := by
      simp only [prepare, Statement.prepare, hparse, ok_bind, Statement.resolve, hresolve]
    have hexecute := execute_eq_of_prepare hprepare now
    obtain ⟨id, t, hfound, hid, hs⟩ := Insert.resolves_of_resolve hresolve
    have ht := Catalog.getElem?_of_findTable? hfound
    rw [hexecute] at hout
    obtain ⟨m, changes, hm, hsound, hsound', hmakes, hrun⟩ :=
      Insert.execute_adds h.sound hs hid ht hout
    rw [Statement.execute, hrun] at hout hexecute
    have hafter : (db.execute now text).2 = { db with catalog := { db.catalog with
        tables := db.catalog.tables.set id
          { t with provider := some (.memory (m.extend changes)) } } } := by
      rw [hexecute, Catalog.setProvider_eq ht]
    refine ⟨s, id, t, m, m.extend changes, Entries.fresh m.width m.nextId changes, hfound, hm, hs,
      rfl, ?_, ?_, fun k e => Entries.id_of_fresh, ?_, hafter, (Except.ok.inj hout).symm, ?_⟩
    · rw [hsound'.rowIds_eq, hsound.rowIds_eq, MemoryTable.ids, MemoryTable.ids,
        MemoryTable.extend, List.map_append]
    · rw [Entries.map_snd_fresh, List.forall₂_map_right_iff]
      exact hmakes
    · intro old t₀ m₀ hold hruns ht₀ hm₀ e₀ he₀
      exact hruns.lt_nextId hold ht₀ hm₀ ht hm he₀
    · intro hnames q reading later hreading hq
      exact h.reads_all hfound hafter hnames hreading hq later

/-- Two pairs more of which only the second part is given. -/
def halves : Insert :=
  let half (n : Node) (source : String) (offset : Nat) : Expr :=
    ⟨[n], .null, false, false, source, none, offset⟩
  ⟨"INSERT INTO pairs (b) VALUES (TRUE), (NULL)", "pairs", none, ["b"], [],
    [[half (.boolean true) "TRUE" 30], [half .null "NULL" 38]], 0⟩

/-- All pairs, as the text is read. -/
def allPairs : Select :=
  ⟨"SELECT * FROM pairs", false, [.ofColumn { qualifier := none, column := "*", offset := 7 }],
    some (.table "pairs" none none 14), [], none, [], [], none, 0⟩

/-- The new pairs have the next two ids, and NULL as their first part. -/
theorem pairs_extended :
    Statement.parse pairs.config.parser halves.text = .ok (.insert halves) ∧
    ∃ added : Entries, (∀ (k : Nat) (e : RowId × Row), added[k]? = some e → e.1 = 2 + k) ∧
      added.map Prod.snd = [[.null, .boolean true], [.null, .null]] ∧
      ((pairs.execute ⟨0, 0⟩ halves.text).2.execute ⟨0, 0⟩ allPairs.text).1 =
        .ok ⟨[⟨"a", .boolean⟩, ⟨"b", .boolean⟩], [⟨0, [.boolean true, .boolean false]⟩,
          ⟨1, [.null, .null]⟩] ++ added.map fun e => ⟨e.1, e.2⟩, 0⟩ := by
  let table (m : MemoryTable) : Table :=
    ⟨"pairs", [⟨"a", .boolean⟩, ⟨"b", .boolean⟩], some (.memory m)⟩
  let m : MemoryTable := ⟨[(0, [.boolean true, .boolean false]), (1, [.null, .null])], 2, 2⟩
  have hparse : Statement.parse pairs.config.parser halves.text = .ok (.insert halves) := by
    cbv
  have hreading : Statement.parse pairs.config.parser allPairs.text = .ok (.select allPairs) := by
    cbv
  have hreads : allPairs.ReadsAll halves.table :=
    ⟨⟨_, rfl, rfl, rfl⟩, ⟨none, none, 14, rfl⟩, rfl, rfl, rfl, rfl, rfl, rfl⟩
  have hrun : pairs.execute ⟨0, 0⟩ halves.text = (.ok (.ofAffected 2),
      ⟨⟨"wooby", [table ⟨m.rows ++ [(2, [.null, .boolean true]), (3, [.null, .null])], 2, 4⟩],
        Function.builtins⟩, {}⟩) := by
    cbv
  have htable : pairs.catalog.findTable? halves.table = some (0, table m) := by
    cbv
  obtain ⟨s, id, t, m', after, added, hfound, hm, -, hrows, -, -, hids, -, hafter, -, hall⟩ :=
    reachable_pairs.insert_rows hparse (congrArg Prod.fst hrun)
  obtain ⟨rfl, rfl⟩ := Prod.mk.inj (Option.some.inj (htable.symm.trans hfound))
  obtain rfl := Provider.memory.inj (Option.some.inj hm)
  have hprovider := congrArg (fun db => db.catalog.provider? 0)
    (hafter.symm.trans (congrArg Prod.snd hrun))
  have hentries := congrArg (Option.map Provider.entries) hprovider
  have hadded : added = [(2, [.null, .boolean true]), (3, [.null, .null])] :=
    List.append_cancel_left (hrows.symm.trans (Option.some.inj hentries))
  refine ⟨hparse, added, hids, by rw [hadded]; rfl, ?_⟩
  rw [hall (by decide) allPairs allPairs.text ⟨0, 0⟩ hreading hreads, List.map_append]
  rfl

end Database

end SqlEngine
