import SqlEngine.Proofs.Database.State
import SqlEngine.Proofs.Plan.Soundness
import SqlEngine.Proofs.Resolution.Statement

/-!
# Database — statements keep to the types

A prepared statement is typed (`Statement.resolve_typed`), and typed statements that compile end
well or with one of the expected errors.  What a SELECT gives has the types that its columns
declare.  The one condition is that what reads a group key has the type of the key
(`Statement.keysAgree`); rows that are stored have the types of their columns without it.

* `Database.Reachable.rows_typed`: stored rows and rows of results have their types.
* `Database.Reachable.ok_or_expected`: a text that compiles ends well or with an expected error.
-/

namespace SqlEngine

open Value (HaveTypes)

variable {c : Catalog} {t : Table} {id : Nat} {now : Date.Instant}

/-! ### Typed statements -/

/-- The value sees the scopes and may be stored in the column at the position. -/
def Table.Takes (c : Catalog) (scopes : List (List (List DataType))) (t : Table) (e : Expr)
    (position : Nat) : Prop :=
  e.Typed c scopes ∧ ∃ column, t.columns[position]? = some column ∧
    column.type.compatible e.type = true

def Statement.Typed (c : Catalog) : Statement → Prop
  | .select s => s.Typed c []
  | .insert s => ∃ id t, s.id = some id ∧ c.tables[id]? = some t ∧
      ∀ row ∈ s.rows, List.Forall₂ (t.Takes c [[]]) row s.positions
  | .update s => ∃ id t, s.id = some id ∧ c.tables[id]? = some t ∧
      (∀ a ∈ s.assignments, t.Takes c [[t.types]] a.value a.position) ∧
      Expr.TypedOption c [[t.types]] s.filter
  | .delete s => ∃ id t, s.id = some id ∧ c.tables[id]? = some t ∧
      Expr.TypedOption c [[t.types]] s.filter
  | .create s => c.checkNew s.table (s.columns.map ColumnClause.name) = .ok ()

/-- A resolved value whose type was checked goes into the column. -/
theorem Table.takes_of_requireType {scopes : List (List (List DataType))} {e : Expr} {i : Nat}
    {u : Unit} (he : e.Typed c scopes) (hcolumn : ∃ column, t.columns[i]? = some column)
    (htype : e.requireType (t.typeAt i) = .ok u) : t.Takes c scopes e i := by
  obtain ⟨column, hcolumn⟩ := hcolumn
  refine ⟨he, column, hcolumn, ?_⟩
  simp only [Expr.requireType, Table.typeAt, hcolumn, Option.map_some, Option.getD_some] at htype
  split at htype
  next hcompatible => exact hcompatible
  next => cases htype

theorem Insert.resolveRow_typed : ∀ {positions : List Nat} {es es' : List Expr},
    Expr.FormedAll es → es.length = positions.length →
    (∀ i ∈ positions, ∃ column, t.columns[i]? = some column) →
    Insert.resolveRow c t positions es = .ok es' → List.Forall₂ (t.Takes c [[]]) es' positions
  | [], [], es', _, _, _, h => by
    obtain rfl := Except.ok.inj h
    exact .nil
  | i :: positions, e :: es, es', hformed, hlen, hpositions, h => by
    simp only [Insert.resolveRow, bind_eq_ok_iff] at h
    obtain ⟨e', he, u, htype, rest, hrest, h⟩ := h
    obtain rfl := Except.ok.inj h
    obtain ⟨hi, hpositions⟩ := List.forall_mem_cons.1 hpositions
    exact .cons (Table.takes_of_requireType (Expr.resolve_typed hformed.1 he) hi htype)
      (resolveRow_typed hformed.2 (Nat.succ.inj hlen) hpositions hrest)

theorem Insert.resolve_typed {s s' : Insert} (hformed : (Statement.insert s).Formed)
    (h : s.resolve c = .ok s') : (Statement.insert s').Typed c := by
  obtain ⟨id, t, htable, hid, hpositions, hrows⟩ := Insert.resolve_eq_ok h
  refine ⟨id, t, hid, Catalog.getElem?_of_findTable? htable, fun row hrow => ?_⟩
  obtain ⟨read, hread, hlen, hresolve⟩ := exists_mem_of_forall₂ hrows hrow
  exact Insert.resolveRow_typed (hformed read hread) hlen hpositions hresolve

theorem Update.resolve_typed {s s' : Update} (hformed : (Statement.update s).Formed)
    (h : s.resolve c = .ok s') : (Statement.update s').Typed c := by
  obtain ⟨id, t, htable, hid, hassignments, hfilter⟩ := Update.resolve_eq_ok h
  refine ⟨id, t, hid, Catalog.getElem?_of_findTable? htable, fun a ha => ?_,
    Expr.resolveFilter_typed hformed.2 hfilter⟩
  obtain ⟨read, hread, hresolve⟩ := exists_mem_of_forall₂ hassignments ha
  obtain ⟨hcolumn, hvalue, htype⟩ := Assignment.resolve_eq_ok hresolve
  exact Table.takes_of_requireType (Expr.resolve_typed (hformed.1 read hread) hvalue) hcolumn htype

/-- **A resolved statement is typed.** -/
theorem Statement.resolve_typed {s s' : Statement} (hformed : s.Formed)
    (h : s.resolve c = .ok s') : s'.Typed c := by
  cases s with
  | select s =>
    simp only [Statement.resolve, bind_eq_ok_iff] at h
    obtain ⟨q, hq, h⟩ := h
    obtain rfl := Except.ok.inj h
    exact Select.resolve_typed hformed hq
  | insert s =>
    simp only [Statement.resolve, bind_eq_ok_iff] at h
    obtain ⟨q, hq, h⟩ := h
    obtain rfl := Except.ok.inj h
    exact Insert.resolve_typed hformed hq
  | update s =>
    simp only [Statement.resolve, bind_eq_ok_iff] at h
    obtain ⟨q, hq, h⟩ := h
    obtain rfl := Except.ok.inj h
    exact Update.resolve_typed hformed hq
  | delete s =>
    simp only [Statement.resolve, bind_eq_ok_iff] at h
    obtain ⟨q, hq, h⟩ := h
    obtain rfl := Except.ok.inj h
    obtain ⟨id, t, htable, hid, hfilter⟩ := Delete.resolve_eq_ok hq
    exact ⟨id, t, hid, Catalog.getElem?_of_findTable? htable,
      Expr.resolveFilter_typed hformed hfilter⟩
  | create s =>
    simp only [Statement.resolve, Create.resolve, bind_eq_ok_iff] at h
    obtain ⟨q, ⟨u, hnew, hq⟩, h⟩ := h
    obtain rfl := Except.ok.inj hq
    obtain rfl := Except.ok.inj h
    exact hnew

/-! ### Conditions on a statement -/

/-- Every expression and every SELECT of the statement has code. -/
def Statement.Compiles (c : Catalog) : Statement → Prop
  | .select s => ∃ plan, s.compile c = .ok plan
  | .insert s => ∀ row ∈ s.rows, ∀ e ∈ row, ∃ p, e.program c = .ok p
  | .update s => (∀ a ∈ s.assignments, ∃ p, a.value.program c = .ok p) ∧
      ∃ p, Expr.programOption c s.filter = .ok p
  | .delete s => ∃ p, Expr.programOption c s.filter = .ok p
  | .create _ => True

/-- What reads a group key has the type of the key, everywhere in the statement. -/
def Statement.keysAgree : Statement → Bool
  | .select s => s.keysAgree
  | .insert s => s.rows.all fun row => row.all (Expr.keysAgree none)
  | .update s => (s.assignments.all fun a => a.value.keysAgree none) &&
      Expr.keysAgreeOption s.filter
  | .delete s => Expr.keysAgreeOption s.filter
  | .create _ => true

/-! ### Values for a table -/

theorem Catalog.Sound.serves (h : c.Sound) : c.Serves where
  functions := h.functions
  tables t ht := by
    obtain ⟨m, hm, hsound⟩ := (h.tables t ht).memory
    exact ⟨_, hm, Provider.holds_memory hsound.typed⟩

/-- The program of an expression is sound. -/
theorem Expr.program_sound (hc : c.Serves) {scope : List (List DataType)}
    {outer : List (List (List DataType))} {e : Expr} {p : Program Plan}
    (h : e.program c = .ok p) (htyped : e.Typed c (scope :: outer))
    (hagree : e.keysAgree none = true) : p.Sound c now scope outer e.type := by
  obtain ⟨code, hcode, rfl⟩ := map_eq_ok_iff.1 h
  exact (Expr.emit_sound hc hcode htyped hagree Parts.sound_empty).1.program

/-- A value of the type of the expression may be stored in the column. -/
theorem Table.Takes.exists_column {scopes : List (List (List DataType))} {e : Expr} {i : Nat}
    (h : t.Takes c scopes e i) (ht : t.Sound) :
    ∃ column, t.expectColumnAt i = .ok column ∧
      ∀ v : Value, v.HasType e.type → column.requireFit v = .ok () := by
  obtain ⟨-, column, hcolumn, hcompatible⟩ := h
  refine ⟨column, by simp only [Table.expectColumnAt, hcolumn], fun v hv => ?_⟩
  have hknown := ht.known column.type (List.mem_of_getElem? (Table.types_getElem? hcolumn))
  rw [Column.requireFit, if_pos (hv.of_compatible hcompatible hknown).fits]

theorem Catalog.expectTarget_of_getElem? {name : String} (h : c.tables[id]? = some t) :
    c.expectTarget (some id) name = .ok (id, t) := by
  simp only [expectTarget, expectTable, h, ok_bind]

theorem Catalog.exists_expectProvider (hc : c.Sound) (h : c.tables[id]? = some t) (name : String) :
    ∃ p, c.expectProvider id name = .ok p ∧ p.Holds t.types := by
  obtain ⟨p, hp, hholds⟩ := hc.serves.provider h
  exact ⟨p, by simp only [expectProvider, hp], hholds⟩

/-! ### INSERT -/

theorem Insert.rowChange_safe (hc : c.Sound) (ht : t.Sound) {es : List Expr}
    {positions : List Nat} (h : List.Forall₂ (t.Takes c [[]]) es positions)
    (hcompiles : ∀ e ∈ es, ∃ p, e.program c = .ok p)
    (hagree : ∀ e ∈ es, e.keysAgree none = true) :
    Safe (fun _ => True) (Insert.rowChange c now t es positions) := by
  have henv : ((Setting.mk c [] [] now).env [] 0 beforeFirst).Fits c now [] [] :=
    ⟨rfl, rfl, nofun, .nil⟩
  induction h with
  | nil => trivial
  | @cons e i es positions he _ ih =>
    obtain ⟨⟨p, hp⟩, hcompiles⟩ := List.forall_mem_cons.1 hcompiles
    obtain ⟨hkeys, hagree⟩ := List.forall_mem_cons.1 hagree
    obtain ⟨column, hcolumn, hfits⟩ := he.exists_column ht
    simp only [Insert.rowChange, hp, hcolumn, ok_bind]
    refine (Expr.program_sound hc.serves hp he.1 hkeys _ henv).bind fun v hv => ?_
    rw [hfits v hv, ok_bind]
    exact (ih hcompiles hagree).bind fun _ _ => trivial

theorem Insert.prepareRows_safe (hc : c.Sound) {s : Insert}
    (htyped : (Statement.insert s).Typed c) (hcompiles : (Statement.insert s).Compiles c)
    (hagree : (Statement.insert s).keysAgree = true) :
    Safe (fun _ => True) (s.prepareRows c now) := by
  obtain ⟨id, t, hid, ht, hrows⟩ := htyped
  simp only [Statement.keysAgree, List.all_eq_true] at hagree
  simp only [Insert.prepareRows, hid, Catalog.expectTarget_of_getElem? ht, ok_bind]
  refine (Safe.mapM_mem (Q := fun _ => True) fun row hrow => Insert.rowChange_safe hc
    (hc.table ht) (hrows row hrow) (hcompiles row hrow) (hagree row hrow)).bind fun _ _ => ?_
  obtain ⟨p, hp, -⟩ := Catalog.exists_expectProvider hc ht s.table
  rw [hp]
  trivial

/-! ### UPDATE and DELETE -/

theorem Table.matchingRows_safe (hc : c.Sound) (ht : c.tables[id]? = some t)
    {filter : Option Expr} (htyped : Expr.TypedOption c [[t.types]] filter)
    (hcompiles : ∃ p, Expr.programOption c filter = .ok p)
    (hagree : Expr.keysAgreeOption filter = true) :
    Safe (fun r : Setting × List Combination => r.1.Of c now [] [t.types] ∧
      ∀ row ∈ r.2, row.Known r.1.providers) (t.matchingRows c now id filter) := by
  obtain ⟨p, hp, hholds⟩ := Catalog.exists_expectProvider hc ht t.name
  obtain ⟨program, hprogram⟩ := hcompiles
  have hhere : (Setting.mk c [] [p] now).Of c now [] [t.types] := ⟨rfl, rfl, rfl, .cons hholds .nil⟩
  have hcondition := (Expr.programOption_sound hc.serves hprogram htyped hagree).safeCondition
    hhere .nil
  simp only [Table.matchingRows, hp, hprogram, ok_bind, Program.queriesOption_eq_map]
  refine (combine_safe hhere.announced (.inr rfl) fun _ hj => absurd hj List.not_mem_nil).bind
    fun cs hcs => ?_
  exact (keep_safe hcondition hcs).bind fun kept hkept => ⟨hhere, hkept⟩

/-- The program of an assignment gives values for its column. -/
def Update.Assigns (c : Catalog) (now : Date.Instant) (t : Table)
    (a : Nat × Column × Program Query) : Prop :=
  ∃ τ, (∀ env, env.Fits c now [t.types] [] → Safe (·.HasType τ) (a.2.2.value env)) ∧
    ∀ v : Value, v.HasType τ → a.2.1.requireFit v = .ok ()

theorem Update.assignment_safe (hc : c.Sound) (ht : c.tables[id]? = some t) {a : Assignment}
    (htakes : t.Takes c [[t.types]] a.value a.position)
    (hcompiles : ∃ p, a.value.program c = .ok p) (hagree : a.value.keysAgree none = true) :
    Safe (Update.Assigns c now t) (Update.assignment c now t a) := by
  obtain ⟨p, hp⟩ := hcompiles
  obtain ⟨column, hcolumn, hfits⟩ := htakes.exists_column (hc.table ht)
  simp only [Update.assignment, hcolumn, hp, ok_bind]
  exact ⟨a.value.type, Expr.program_sound hc.serves hp htakes.1 hagree, hfits⟩

theorem Update.rowChange_safe {here : Setting} (hhere : here.Of c now [] [t.types])
    {assignments : List (Nat × Column × Program Query)}
    (h : ∀ a ∈ assignments, Update.Assigns c now t a) {row : Combination}
    (hrow : row.Known here.providers) :
    Safe (fun _ => True) (Update.rowChange here assignments row) := by
  obtain ⟨env, henv, hreads⟩ := Setting.exists_envAt hrow
  simp only [Update.rowChange, henv, ok_bind]
  refine (Safe.mapM_mem (Q := fun _ => True) fun a ha => ?_).bind fun _ _ => trivial
  obtain ⟨τ, hvalue, hfits⟩ := h a ha
  refine Safe.bind (P := fun _ => True) ?_ fun _ _ => trivial
  refine (hvalue env (hreads.fits hhere .nil)).bind fun v hv => ?_
  rw [hfits v hv]
  trivial

theorem Update.prepareRows_safe (hc : c.Sound) {s : Update}
    (htyped : (Statement.update s).Typed c) (hcompiles : (Statement.update s).Compiles c)
    (hagree : (Statement.update s).keysAgree = true) :
    Safe (fun _ => True) (s.prepareRows c now) := by
  obtain ⟨id, t, hid, ht, hassignments, hfilter⟩ := htyped
  simp only [Statement.keysAgree, Bool.and_eq_true, List.all_eq_true] at hagree
  simp only [Update.prepareRows, hid, Catalog.expectTarget_of_getElem? ht, ok_bind]
  refine (Safe.mapM_mem fun a ha => Update.assignment_safe hc ht (hassignments a ha)
    (hcompiles.1 a ha) (hagree.1 a ha)).bind fun assignments hassigns => ?_
  refine (Table.matchingRows_safe hc ht hfilter hcompiles.2 hagree.2).bind fun r hr => ?_
  obtain ⟨hhere, hkept⟩ := hr
  refine (Safe.mapM_mem (Q := fun _ => True) fun row hrow =>
    Update.rowChange_safe hhere hassigns.2 (hkept row hrow)).bind fun _ _ => ?_
  obtain ⟨p, hp, -⟩ := Catalog.exists_expectProvider hc ht s.table
  rw [hp]
  trivial

theorem Delete.prepareRows_safe (hc : c.Sound) {s : Delete}
    (htyped : (Statement.delete s).Typed c) (hcompiles : (Statement.delete s).Compiles c)
    (hagree : (Statement.delete s).keysAgree = true) :
    Safe (fun _ => True) (s.prepareRows c now) := by
  obtain ⟨id, t, hid, ht, hfilter⟩ := htyped
  simp only [Delete.prepareRows, hid, Catalog.expectTarget_of_getElem? ht, ok_bind]
  refine (Table.matchingRows_safe hc ht hfilter hcompiles hagree).bind fun r hr => ?_
  obtain ⟨p, hp, -⟩ := Catalog.exists_expectProvider hc ht s.table
  rw [hp]
  trivial

/-! ### All statements -/

/-- What a typed SELECT gives has the types that its columns declare. -/
theorem Select.execute_safe (hc : c.Serves) {s : Select} {plan : Plan}
    (hplan : s.compile c = .ok plan) (htyped : s.Typed c []) (hagree : s.keysAgree = true) :
    Safe (fun out => ∀ row ∈ out.rows, HaveTypes row.values (out.columns.map Column.type))
      (s.execute c now) := by
  have hsound : plan.Sound c now [] (s.output.map Expr.type) :=
    Select.compile_sound hc hplan htyped hagree
  obtain ⟨stages, rfl, hstages⟩ := Select.compile_eq_ok hplan
  have hcolumns : (Plan.of stages).stages.columns.map Column.type = s.output.map Expr.type := by
    rw [Plan.stages, hstages.columns, List.map_map]
    rfl
  simp only [Select.execute, hplan, ok_bind, Plan.execute]
  refine (hsound [] .nil).bind fun rows hrows => ?_
  exact fun row hrow => hcolumns ▸ hrows row hrow

/-- A statement that is sure to succeed once it is prepared ends as its preparation does. -/
theorem Catalog.outcome_safe {α : Type} {prepared : Except Error α} {run : α → Outcome}
    (hprepared : Safe (fun _ => True) prepared)
    (h : ∀ a, prepared = .ok a → (c.outcome prepared run).Done) :
    Safe (fun _ => True) (c.outcome prepared run).1 := by
  cases prepared with
  | error e => exact hprepared
  | ok a =>
    obtain ⟨out, c', hout, -⟩ := h a rfl
    rw [hout]
    trivial

/-- **A typed statement that compiles** ends well or with an expected error. -/
theorem Statement.execute_safe (hc : c.Sound) {s : Statement} (hknown : s.KnownColumns)
    (htyped : s.Typed c) (hcompiles : s.Compiles c) (hagree : s.keysAgree = true) :
    Safe (fun _ => True) (s.execute c now).1 := by
  cases s with
  | select s =>
    obtain ⟨plan, hplan⟩ := hcompiles
    exact (Select.execute_safe hc.serves hplan htyped hagree).mono fun _ _ => trivial
  | insert s =>
    exact Catalog.outcome_safe (Insert.prepareRows_safe hc htyped hcompiles hagree)
      fun _ hprepared => Insert.execute_done hc hprepared
  | update s =>
    exact Catalog.outcome_safe (Update.prepareRows_safe hc htyped hcompiles hagree)
      fun _ hprepared => Update.execute_done hc hprepared
  | delete s =>
    exact Catalog.outcome_safe (Delete.prepareRows_safe hc htyped hcompiles hagree)
      fun _ hprepared => Delete.execute_done hc hprepared
  | create s =>
    obtain ⟨out, c', hout, -⟩ := Create.execute_done hc hknown htyped
    simp only [Statement.execute, hout]
    trivial

namespace Database

variable {db : Database} {text : String}

theorem typed_of_prepare {s : Statement} (h : db.prepare text = .ok s) : s.Typed db.catalog := by
  obtain ⟨read, hread, hresolve⟩ := exists_of_prepare h
  exact Statement.resolve_typed hread hresolve

/-- A text that can be prepared is run as its statement. -/
theorem execute_of_prepare {s : Statement} (h : db.prepare text = .ok s) (now : Date.Instant) :
    (db.execute now text).1 = (s.execute db.catalog now).1 := by
  simp only [prepare] at h
  simp only [execute, Catalog.run, Catalog.outcome, h]

/-- A database with one table, which has one row. -/
def greetings : Database :=
  let columns : Columns := [⟨"a", .text⟩, ⟨"b", .boolean⟩]
  let rows : Entries := [(0, [.text "hello", .boolean true])]
  ⟨⟨"wooby", [⟨"t", columns, some (.memory ⟨rows, 2, 1⟩)⟩], Function.builtins⟩, {}⟩

theorem reachable_greetings : Reachable greetings := by
  let created := ((ofConfig {}).execute ⟨0, 0⟩ "CREATE TABLE t (a TEXT, b BOOLEAN)").2
  have hinserted : (created.execute ⟨0, 0⟩ "INSERT INTO t VALUES ('hello', TRUE)").2 =
      greetings := by
    cbv
  exact hinserted ▸ .execute (.execute (.new {}) _ _) _ _

/-- The text is a SELECT with the property. -/
def isSelect (db : Database) (text : String) (p : Select → Bool) : Bool :=
  match db.prepare text with
  | .ok (.select s) => p s
  | _               => false

theorem exists_of_isSelect {p : Select → Bool} (h : db.isSelect text p = true) :
    ∃ s, db.prepare text = .ok (.select s) ∧ p s = true := by
  simp only [isSelect] at h
  split at h
  next s hs => exact ⟨s, hs, h⟩
  next => cases h

/-- **Rows keep to their types** in a reachable database: a stored row has one value of the right
type for each column of its table, and a row of a result one for each column of the result, when
what reads a group key has the type of the key. -/
theorem Reachable.rows_typed (h : Reachable db) :
    (∀ t ∈ db.catalog.tables, ∃ m, t.provider = some (.memory m) ∧
      ∀ e ∈ m.rows, HaveTypes e.2 (t.columns.map Column.type)) ∧
    ∀ (now : Date.Instant) (text : String) (s : Select) (out : Output),
      db.prepare text = .ok (.select s) → s.keysAgree = true →
      (db.execute now text).1 = .ok out →
      ∀ row ∈ out.rows, HaveTypes row.values (out.columns.map Column.type) := by
  constructor
  · intro t ht
    obtain ⟨m, hm, hsound⟩ := (h.sound.tables t ht).memory
    exact ⟨m, hm, hsound.typed⟩
  · intro now text s out hprepare hagree hout
    rw [execute_of_prepare hprepare] at hout
    obtain ⟨plan, hplan, -⟩ : ∃ plan, s.compile db.catalog = .ok plan ∧
        plan.execute db.catalog now = .ok out := bind_eq_ok_iff.1 hout
    have hsafe : Safe _ (s.execute db.catalog now) :=
      Select.execute_safe h.sound.serves hplan (typed_of_prepare hprepare) hagree
    rw [show s.execute db.catalog now = .ok out from hout] at hsafe
    exact hsafe

/-- A column of the outer statement is read where rows are grouped by a column of the same name. -/
def outerColumn : String :=
  "SELECT (SELECT t.a FROM (SELECT b AS a FROM t) AS y GROUP BY y.a) AS v, b FROM t AS x"

theorem outerColumn_typed :
    ∃ s out, greetings.prepare outerColumn = .ok (.select s) ∧ s.keysAgree = true ∧
      (greetings.execute ⟨0, 0⟩ outerColumn).1 = .ok out ∧
      out.rows.map OutputRow.values = [[.text "hello", .boolean true]] ∧
      ∀ row ∈ out.rows, HaveTypes row.values (out.columns.map Column.type) := by
  have hselect : greetings.isSelect outerColumn Select.keysAgree = true := by cbv
  obtain ⟨s, hs, hagree⟩ := exists_of_isSelect hselect
  have hout : (greetings.execute ⟨0, 0⟩ outerColumn).1 =
      .ok ⟨[⟨"v", .text⟩, ⟨"b", .boolean⟩], [⟨0, [.text "hello", .boolean true]⟩], 0⟩ := by cbv
  exact ⟨s, _, hs, hagree, hout, rfl,
    reachable_greetings.rows_typed.2 ⟨0, 0⟩ outerColumn s _ hs hagree hout⟩

/-- Both sources go by one name here, and the key is read in place of the column. -/
def shadowedColumn : String :=
  "SELECT (SELECT t.a FROM (SELECT b AS a FROM t) AS x GROUP BY x.a) AS v FROM t AS x"

theorem shadowedColumn_untyped :
    ∃ s out, Reachable greetings ∧ greetings.prepare shadowedColumn = .ok (.select s) ∧
      s.keysAgree = false ∧ (greetings.execute ⟨0, 0⟩ shadowedColumn).1 = .ok out ∧
      ¬ ∀ row ∈ out.rows, HaveTypes row.values (out.columns.map Column.type) := by
  have hselect : greetings.isSelect shadowedColumn (fun s => !s.keysAgree) = true := by cbv
  obtain ⟨s, hs, hagree⟩ := exists_of_isSelect hselect
  have hout : (greetings.execute ⟨0, 0⟩ shadowedColumn).1 =
      .ok ⟨[⟨"v", .text⟩], [⟨0, [.boolean true]⟩], 0⟩ := by cbv
  refine ⟨s, _, reachable_greetings, hs, by simpa using hagree, hout, fun htyped => ?_⟩
  cases htyped _ List.mem_cons_self with
  | cons hvalue _ => rcases hvalue with hnull | hkind <;> contradiction

/-- **A text that compiles ends well or with an expected error** in a reachable database, when what
reads a group key has the type of the key. -/
theorem Reachable.ok_or_expected (h : Reachable db) {s : Statement}
    (hprepare : db.prepare text = .ok s) (hcompiles : s.Compiles db.catalog)
    (hagree : s.keysAgree = true) (now : Date.Instant) :
    (∃ out, (db.execute now text).1 = .ok out) ∨
      ∃ e, (db.execute now text).1 = .error e ∧ e.Expected := by
  have hsafe : Safe (fun _ => True) (s.execute db.catalog now).1 :=
    Statement.execute_safe h.sound (knownColumns_of_prepare hprepare) (typed_of_prepare hprepare)
      hcompiles hagree
  rw [execute_of_prepare hprepare]
  cases hresult : (s.execute db.catalog now).1 with
  | ok out => exact .inl ⟨out, rfl⟩
  | error e =>
    rw [hresult] at hsafe
    exact .inr ⟨e, rfl, hsafe⟩

/-- An expression on a column of the outer statement, under another key of its name. -/
def outerValue : String :=
  "SELECT (SELECT t.a || '!' FROM (SELECT b AS a FROM t) AS y GROUP BY y.a) AS v FROM t AS x"

theorem outerValue_ok_or_expected :
    ∃ s, greetings.prepare outerValue = .ok (.select s) ∧
      (Statement.select s).Compiles greetings.catalog ∧ s.keysAgree = true ∧
      ((∃ out, (greetings.execute ⟨0, 0⟩ outerValue).1 = .ok out) ∨
        ∃ e, (greetings.execute ⟨0, 0⟩ outerValue).1 = .error e ∧ e.Expected) := by
  have hselect : greetings.isSelect outerValue
      (fun s => s.keysAgree && (s.compile greetings.catalog).isOk) = true := by cbv
  obtain ⟨s, hs, hagree⟩ := exists_of_isSelect hselect
  obtain ⟨hagree, hok⟩ := Bool.and_eq_true_iff.1 hagree
  have hcompiles : (Statement.select s).Compiles greetings.catalog := exists_of_isOk hok
  exact ⟨s, hs, hcompiles, hagree, reachable_greetings.ok_or_expected hs hcompiles hagree ⟨0, 0⟩⟩

/-- The same where both sources go by one name: the operator gets a value of the key's type. -/
def shadowedValue : String :=
  "SELECT (SELECT t.a || '!' FROM (SELECT b AS a FROM t) AS x GROUP BY x.a) AS v FROM t AS x"

theorem shadowedValue_unexpected :
    ∃ s e, Reachable greetings ∧ greetings.prepare shadowedValue = .ok (.select s) ∧
      (Statement.select s).Compiles greetings.catalog ∧ s.keysAgree = false ∧
      (greetings.execute ⟨0, 0⟩ shadowedValue).1 = .error e ∧ ¬ e.Expected := by
  have hselect : greetings.isSelect shadowedValue
      (fun s => !s.keysAgree && (s.compile greetings.catalog).isOk) = true := by cbv
  obtain ⟨s, hs, hagree⟩ := exists_of_isSelect hselect
  obtain ⟨hagree, hok⟩ := Bool.and_eq_true_iff.1 hagree
  have herror : (greetings.execute ⟨0, 0⟩ shadowedValue).1 =
      .error (.typeMismatch .concat .boolean .text) := by cbv
  refine ⟨s, _, reachable_greetings, hs, exists_of_isOk hok, by simpa using hagree, herror, ?_⟩
  rintro (_ | hnull)
  rcases hnull with hnull | hnull <;> cases hnull

end Database

end SqlEngine
