import SqlEngine.Proofs.Database.State
import SqlEngine.Proofs.Plan.Environments
import SqlEngine.Proofs.Program.Run

/-!
# Databases — what ROWID() stands for

`ROWID()` gives the id that the environment has (`Program.value_rowId`).  Where a row has been
reached that is counted, in WHERE and in what is projected, this is the id of the primary source's
current row.  Join conditions, group keys and the new values of an UPDATE are evaluated before there
is such a row, and the arguments of aggregates while the row before the group's is the last one, so
that `ROWID()` does not follow the combination there (`rowId_by_clause`).  So an UPDATE cannot write
the ids of its rows (`Database.writtenRowId_beforeFirst`).
-/

namespace SqlEngine

variable {here : Setting}

/-- The id that `ROWID()` stands for in an environment of the clause: that of the primary source's
current row, which is `beforeFirst` on the row of NULLs; `beforeFirst` on every row; or that of the
row that stands for the group before. -/
def Clause.RowId (here : Setting) (env : Env) : Clause → RowId → Prop
  | .filter, id | .output, id => id = primaryId env.positions
  | .on, id | .groupBy, id | .assignment, id => id = beforeFirst
  | .argument, id => ∃ groups, here.LastId groups env.rowNumber id

namespace Setting

theorem rowId_of_envAt {c : Combination} {env : Env} (h : here.envAt c = .ok env) :
    env.rowId = beforeFirst := by
  simp only [envAt, bind_eq_ok_iff] at h
  obtain ⟨positions, -, h⟩ := h
  rw [← Except.ok.inj h]
  rfl

theorem rowId_of_envFor {c : Combination} {number : Nat} {env : Env}
    (h : here.envFor c number = .ok env) : env.rowId = primaryId env.positions := by
  simp only [envFor, bind_eq_ok_iff] at h
  obtain ⟨positions, -, h⟩ := h
  rw [← Except.ok.inj h]
  rfl

theorem Runs.rowId {clause : Clause} {env : Env} (h : here.Runs clause env) :
    clause.RowId here env env.rowId := by
  cases h with
  | on h | groupBy h | assignment h => exact rowId_of_envAt h
  | filter h | row h => exact rowId_of_envFor h
  | group h keys results =>
    have hid := rowId_of_envFor h
    exact hid
  | @argument groups k g id c positions hg hid hc hpositions => exact ⟨groups, hid⟩

end Setting

/-- A call of `ROWID()` gives the id of the environment. -/
theorem Program.value_rowId {env : Env} {o : Overload} {queries : List Query}
    (ho : (env.catalog.variant? o).map Variant.implementation = some (.scalar .rowId)) :
    Program.value ⟨[.call o 0], queries⟩ env = .ok (.number (Float.ofInt env.rowId)) := by
  have hcall : o.call env [] = .ok (.number (Float.ofInt env.rowId)) := by
    simp only [Overload.call, ho]
    rfl
  have hyields : Yields env queries ([] ++ [.call o 0]) (.ok [] >>= o.call env) :=
    YieldsAll.nil.call o fun vs hvs => by rw [← Except.ok.inj hvs]; rfl
  rw [← hcall]
  exact hyields.evaluates.value

/-! ### Changes -/

/-- The assignment with its program replaced by one that does the same. -/
structure Update.Alike (here : Setting) (a b : Nat × Column × Program Query) : Prop where
  position : b.1 = a.1
  column : b.2.1 = a.2.1
  program : a.2.2.Alike (here.Runs .assignment) here.outer b.2.2

theorem Update.rowChange_congr {as bs : List (Nat × Column × Program Query)} {row : Combination}
    (h : List.Forall₂ (Update.Alike here) as bs) :
    rowChange here bs row = rowChange here as row := by
  refine bind_congr_ok fun env henv => ?_
  have houter : env.under here.outer = env := by
    rw [← (Setting.reads_of_envAt henv).outer]
    rfl
  have hevaluate : ∀ a b, Update.Alike here a b →
      b.2.1.evaluate b.2.2 env = a.2.1.evaluate a.2.2 env := by
    intro a b hab
    have hvalue := hab.program.value env (.assignment henv)
    rw [houter] at hvalue
    simp only [hab.column, Column.evaluate, hvalue]
  simp only
  rw [mapM_congr_forall₂ (h.imp fun a b hab => by rw [hab.position, hevaluate a b hab])]

/-! ### All clauses -/

/-- **ROWID() clause by clause.**  A SELECT runs its programs in the environments of their clauses
only, and so do the WHERE clause and the new values of an UPDATE or DELETE: whatever programs do
elsewhere may be replaced.  In the environments of WHERE and of what is projected `ROWID()` is the
id of the primary source's current row; in those of join conditions, group keys and new values it is
`beforeFirst`, and in those of the arguments of aggregates the id of the row before. -/
theorem rowId_by_clause (c : Catalog) (now : Date.Instant) :
    (∀ (s t : Stages Query) (outer : List Frame), t.sources = s.sources →
      (∀ here, s.setting c now outer = .ok here → s.Alike here outer t) →
      t.rows c now outer = s.rows c now outer) ∧
    (∀ (here : Setting) (p q : Option (Program Query)) (cs : List Combination),
      Option.Rel (Program.Alike (here.Runs .filter) here.outer) p q →
      keep here q cs = keep here p cs) ∧
    (∀ (here : Setting) (as bs : List (Nat × Column × Program Query)) (row : Combination),
      List.Forall₂ (Update.Alike here) as bs →
      Update.rowChange here bs row = Update.rowChange here as row) ∧
    ∀ (here : Setting) (clause : Clause) (env : Env), here.Runs clause env →
      ∃ id, clause.RowId here env id ∧ ∀ (o : Overload) (queries : List Query),
        (env.catalog.variant? o).map Variant.implementation = some (.scalar .rowId) →
        Program.value ⟨[.call o 0], queries⟩ env = .ok (.number (Float.ofInt id)) := by
  refine ⟨fun s t outer hsources h => ?_, fun here p q cs h => keep_congr h,
    fun here as bs row h => Update.rowChange_congr h, fun here clause env henv => ?_⟩
  · refine Stages.rows_congr ?_ h
    rw [hsources]
    refine List.forall₂_same.2 fun supply _ => ?_
    cases supply with
    | table id width => exact .table id width
    | query q width => exact .query rfl width
  · exact ⟨env.rowId, henv.rowId, fun o queries ho => Program.value_rowId ho⟩

namespace Database

/-- Two rows of NULL. -/
def blankRows : Provider :=
  .memory ⟨[(0, [.null]), (1, [.null])], 1, 2⟩

/-- A database with one table, which has two rows. -/
def blanks : Database :=
  ⟨⟨"wooby", [⟨"t", [⟨"a", .number⟩], some blankRows⟩], Function.builtins⟩, {}⟩

theorem reachable_blanks : Reachable blanks := by
  let created := ((ofConfig {}).execute ⟨0, 0⟩ "CREATE TABLE t (a NUMBER)").2
  have hinserted : (created.execute ⟨0, 0⟩ "INSERT INTO t VALUES (NULL), (NULL)").2 = blanks := by
    cbv
  exact hinserted ▸ .execute (.execute (.new {}) _ _) _ _

/-- Where the table is the one source. -/
def onBlanks : Setting :=
  ⟨blanks.catalog, [], [blankRows], ⟨0, 0⟩⟩

theorem rowId_of_second_row :
    ∃ filtered assigned, onBlanks.envFor [some 1] 2 = .ok filtered ∧
      onBlanks.envAt [some 1] = .ok assigned ∧
      Program.value ⟨[.call ⟨1, 0⟩ 0], []⟩ filtered = .ok (.number (Float.ofInt 1)) ∧
      Program.value ⟨[.call ⟨1, 0⟩ 0], []⟩ assigned = .ok (.number (Float.ofInt beforeFirst)) := by
  obtain ⟨-, -, -, hclauses⟩ := rowId_by_clause blanks.catalog ⟨0, 0⟩
  have hfilter : onBlanks.envFor [some 1] 2 = .ok _ := rfl
  have hassign : onBlanks.envAt [some 1] = .ok _ := rfl
  obtain ⟨id, hid, hfiltered⟩ := hclauses onBlanks .filter _ (.filter hfilter)
  obtain ⟨id', hid', hassigned⟩ := hclauses onBlanks .assignment _ (.assignment hassign)
  obtain rfl : id = 1 := hid
  obtain rfl : id' = beforeFirst := hid'
  exact ⟨_, _, hfilter, hassign, hfiltered ⟨1, 0⟩ [] rfl, hassigned ⟨1, 0⟩ [] rfl⟩

/-- Every row is to get its own id. -/
def writtenRowId : String :=
  "UPDATE t SET a = ROWID()"

/-- Both rows get the id before every row, and neither its own. -/
theorem writtenRowId_beforeFirst :
    Reachable blanks ∧
      (blanks.execute ⟨0, 0⟩ writtenRowId).2.catalog.provider? 0 =
        some (.memory ⟨[(0, [.number (Float.ofInt beforeFirst)]),
          (1, [.number (Float.ofInt beforeFirst)])], 1, 2⟩) ∧
      (Float.ofInt beforeFirst == Float.ofInt 0) = false ∧
      (Float.ofInt beforeFirst == Float.ofInt 1) = false := by
  refine ⟨reachable_blanks, ?_, by decide, by decide⟩
  let t : Table := ⟨"t", [⟨"a", .number⟩], some blankRows⟩
  obtain ⟨value, hprepare, hprogram⟩ : ∃ value : Expr,
      Statement.prepare blanks.config.parser blanks.catalog writtenRowId =
        .ok (.update ⟨writtenRowId, "t", some 0, [⟨"a", 0, value, 13⟩], none, 0⟩) ∧
      value.program blanks.catalog = .ok ⟨[.call ⟨1, 0⟩ 0], []⟩ := ⟨_, by cbv, by rfl⟩
  have htarget : blanks.catalog.expectTarget (some 0) "t" = .ok (0, t) := rfl
  have hassignment : Update.assignment blanks.catalog ⟨0, 0⟩ t ⟨"a", 0, value, 13⟩ =
      .ok (0, ⟨"a", .number⟩, ⟨[.call ⟨1, 0⟩ 0], []⟩) := by
    simp only [Update.assignment, hprogram]
    rfl
  have hrows : t.matchingRows blanks.catalog ⟨0, 0⟩ 0 none =
      .ok (onBlanks, [[some 0], [some 1]]) := by
    cbv
  have hchanges : Update.prepareRows blanks.catalog ⟨0, 0⟩
      ⟨writtenRowId, "t", some 0, [⟨"a", 0, value, 13⟩], none, 0⟩ =
      .ok (0, blankRows, [(0, [(0, .number (Float.ofInt beforeFirst))]),
        (1, [(0, .number (Float.ofInt beforeFirst))])]) := by
    simp only [Update.prepareRows, htarget, ok_bind, List.mapM_cons, hassignment, hrows]
    rfl
  simp only [execute, Catalog.run, Catalog.outcome, hprepare, Statement.execute, Update.execute,
    hchanges]
  rfl

end Database
end SqlEngine
