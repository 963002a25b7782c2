import SqlEngine.Proofs.Database.Typing
import SqlEngine.Proofs.Resolution.Expansion

/-!
# Databases — wildcards

A SELECT that was prepared has wildcards nowhere but in its outputs, and there only as columns that
have the name of a wildcard, which a quoted identifier can give them.  Without such columns no
wildcard is left at any depth, and then the SELECT compiles; with one of them among its own outputs
it does not.

* `Statement.prepare_expands`: what is left of wildcards in a prepared SELECT, and when it compiles.
* `Database.starredColumn_not_expanded`: a wildcard for a column of its own name is left.
-/

namespace SqlEngine

/-! ### What is left of wildcards -/

/-- Wildcards are left only in outputs that are columns of that name. -/
def Local.expanded (c : Catalog) : Local :=
  ⟨fun _ => True, fun f => ∀ a ∈ f.arguments, a.containsWildcard = false,
    fun s => (∀ e ∈ s.rowExprs ++ s.orderBy.map OrderKey.expr, e.containsWildcard = false) ∧
      ∀ e ∈ s.output, e.containsWildcard = true → s.Starred c e⟩

/-- No wildcards are left: not in outputs, ON, WHERE, GROUP BY and ORDER BY, nor in arguments. -/
def Local.wildcardFree : Local :=
  ⟨fun _ => True, fun f => ∀ a ∈ f.arguments, a.containsWildcard = false,
    fun s => ∀ e ∈ s.clauses, e.containsWildcard = false⟩

/-- No column of a source has the name of a wildcard. -/
def Local.unstarred (c : Catalog) : Local :=
  ⟨fun _ => True, fun _ => True, fun s => ∀ source ∈ s.sources,
    ∀ column ∈ (source.scopeSource c).columns, column.name ≠ "*"⟩

variable {c : Catalog}

theorem Local.resolved_expanded : (Local.resolved c).Give (.resolved c) (.expanded c) where
  expr := fun _ _ => trivial
  call := fun h _ => h.2
  select := fun h _ => ⟨List.forall_mem_append.2 ⟨fun e he => (h.rowExprs e he).1,
    List.forall_mem_map.2 h.orderBy⟩, h.output⟩

/-- A column that has the name of a wildcard is a column of a source. -/
theorem Select.Starred.not_unstarred {s : Select} {e : Expr} (h : s.Starred c e)
    (hs : ∀ source ∈ s.sources, ∀ column ∈ (source.scopeSource c).columns, column.name ≠ "*") :
    False := by
  obtain ⟨_, i, j, scopeSource, column, -, -, -, hsource, hcolumn, hname⟩ := h
  obtain ⟨source, hmem, rfl⟩ := List.mem_map.1 (List.mem_of_getElem? hsource)
  exact hs source hmem column (List.mem_of_getElem? hcolumn) hname

theorem Local.unstarred_wildcardFree :
    (Local.expanded c).Give (.unstarred c) .wildcardFree where
  expr := fun _ _ => trivial
  call := fun h _ => h
  select := by
    rintro s ⟨hclauses, houtput⟩ hunstarred
    refine List.forall_mem_append.2 ⟨List.forall_mem_append.2 ⟨fun e he => ?_, ?_⟩, ?_⟩
    · refine Bool.eq_false_iff.2 fun hwildcard => ?_
      exact (houtput e he hwildcard).not_unstarred hunstarred
    · exact (List.forall_mem_append.1 hclauses).1
    · exact (List.forall_mem_append.1 hclauses).2

theorem Local.wildcardFree_compilable :
    (Local.resolved c).Give .wildcardFree (.compilable c) where
  expr := fun h _ => h
  call := fun h _ => h.1
  select := fun h hfree => ⟨h.sources, fun e he => (h.rowExprs e he).2, fun e he =>
    hfree e (List.mem_append_left _ (List.mem_append_left _ he))⟩

/-- The compiler takes no wildcard among the outputs. -/
theorem Expr.plain_of_outputPrograms {keys : Option (List Expr)} : ∀ {es : List Expr}
    {slots : List (Slot Plan)} {result : List (Program Plan) × List (Slot Plan)},
    Expr.outputPrograms c keys slots es = .ok result → ∀ e ∈ es, e.containsWildcard = false
  | [], slots, result, _ => List.forall_mem_nil _
  | e :: es, slots, ⟨programs, last⟩, h => by
    obtain ⟨code, rest, -, hrest, -⟩ := Expr.outputPrograms_cons h
    refine List.forall_mem_cons.2 ⟨?_, Expr.plain_of_outputPrograms hrest⟩
    rw [Expr.outputPrograms] at h
    split at h
    · cases h
    next hplain => exact Bool.eq_false_iff.2 hplain

/-- **Wildcards are expanded, except into columns of their own name.**  In a prepared SELECT, at any
depth, no ON, WHERE, GROUP BY or ORDER BY and no argument has a wildcard in it, and an output has
one only as a column of that name.  If no source has such a column, no wildcards are left; if none
are left, the SELECT has a plan; and it has none with a wildcard among its outputs. -/
theorem Statement.prepare_expands {o : ParserOptions} {text : String} {s : Select}
    (h : Statement.prepare o c text = .ok (.select s)) :
    s.Everywhere (.expanded c) ∧ (s.Everywhere (.unstarred c) → s.Everywhere .wildcardFree) ∧
      (s.Everywhere .wildcardFree → ∃ plan, s.compile c = .ok plan) ∧
      ∀ plan, s.compile c = .ok plan → ∀ e ∈ s.output, e.containsWildcard = false := by
  have hresolved := Statement.prepare_everywhere c.ensures_resolved h
  have hexpanded := Select.Everywhere.give Local.resolved_expanded hresolved hresolved
  refine ⟨hexpanded, fun hunstarred => ?_, fun hfree => ?_, fun plan hplan => ?_⟩
  · exact Select.Everywhere.give Local.unstarred_wildcardFree hexpanded hunstarred
  · exact Select.exists_compile
      (Select.Everywhere.give Local.wildcardFree_compilable hresolved hfree)
  · obtain ⟨stages, -, hstages⟩ := Select.compile_eq_ok hplan
    obtain ⟨slots, houtputs, -⟩ := hstages.projection
    exact Expr.plain_of_outputPrograms houtputs

namespace Database

/-- The text is prepared into a SELECT that has the property. -/
def Prepares (db : Database) (text : String) (p : Select → Prop) : Prop :=
  match db.prepare text with
  | .ok (.select s) => p s
  | _               => False

theorem Prepares.exists_select {db : Database} {text : String} {p : Select → Prop}
    (h : db.Prepares text p) : ∃ s, db.prepare text = .ok (.select s) ∧ p s := by
  simp only [Prepares] at h
  split at h
  next s hs => exact ⟨s, hs, h⟩
  next => exact h.elim

/-- Wildcards of a source and of a sub-select, beside a join and a sub-select as a value. -/
def nestedWildcards : String :=
  "SELECT x.*, (SELECT b FROM t) FROM (SELECT * FROM t) AS x JOIN t AS y ON x.a = y.a"

theorem nestedWildcards_expanded :
    ∃ s, greetings.prepare nestedWildcards = .ok (.select s) ∧ s.Everywhere .wildcardFree ∧
      ∃ plan, s.compile greetings.catalog = .ok plan := by
  have hprepares : greetings.Prepares nestedWildcards fun s =>
      s.Everywhere (.unstarred greetings.catalog) := by
    cbv
    decide
  obtain ⟨s, hs, hunstarred⟩ := hprepares.exists_select
  obtain ⟨-, hfree, hcompiles, -⟩ := Statement.prepare_expands hs
  exact ⟨s, hs, hfree hunstarred, hcompiles (hfree hunstarred)⟩

/-- A table whose column has the name of a wildcard. -/
def starred : Database :=
  ⟨⟨"wooby", [⟨"t", [⟨"*", .text⟩], some (.memory ⟨[], 1, 0⟩)⟩], Function.builtins⟩, {}⟩

theorem reachable_starred : Reachable starred := by
  have hcreated : ((ofConfig {}).execute ⟨0, 0⟩ "CREATE TABLE t (\"*\" TEXT)").2 = starred := by
    cbv
  exact hcreated ▸ .execute (.new {}) _ _

/-- The wildcard is expanded into the column, which is taken for a wildcard again. -/
theorem starredColumn_not_expanded :
    ∃ s, Reachable starred ∧ starred.prepare "SELECT * FROM t" = .ok (.select s) ∧
      (∃ e ∈ s.output, e.containsWildcard = true) ∧
      s.compile starred.catalog = .error (.internal .strayWildcard) := by
  have hprepares : starred.Prepares "SELECT * FROM t" fun s =>
      s.output.any Expr.containsWildcard = true ∧
        s.compile starred.catalog = .error (.internal .strayWildcard) := by
    cbv
  obtain ⟨s, hs, hwildcard, hcompile⟩ := hprepares.exists_select
  exact ⟨s, reachable_starred, hs, List.any_eq_true.1 hwildcard, hcompile⟩

end Database

end SqlEngine
