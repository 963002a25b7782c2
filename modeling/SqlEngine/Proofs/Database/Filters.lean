import SqlEngine.Proofs.Database.Answers
import SqlEngine.Proofs.Database.Selection

/-!
# Database — WHERE TRUE

A query without WHERE goes on with all combinations of its sources; a query with WHERE first moves
to each of them.  Moving cannot fail in a reachable database, so that a condition that is always TRUE
changes nothing.

* `Database.Reachable.whereTrue_standsFor`: a SELECT with `WHERE TRUE` stands for the one without.
-/

namespace SqlEngine

variable {c : Catalog} {now : Date.Instant} {s : Select} {e : Expr}

/-! ### The condition -/

/-- The condition TRUE with its type. -/
def Expr.asTrue (e : Expr) : Expr :=
  { e with type := .boolean, isBoolean := true, hasAggregate := false }

theorem Expr.resolveFilter_true (he : e.nodes = [.boolean true]) (scopes : List Scope) :
    Expr.resolveFilter c scopes (some e) = .ok (some e.asTrue) := by
  obtain ⟨nodes, _, _, _, _, _, _⟩ := e
  obtain rfl := he
  rfl

theorem Expr.programOption_true (he : e.nodes = [.boolean true]) :
    Expr.programOption c (some e.asTrue) = .ok (some ⟨[.boolean true], []⟩) := by
  obtain ⟨nodes, _, _, _, _, _, _⟩ := e
  obtain rfl := he
  rfl

/-! ### A SELECT with another condition -/

theorem Select.placed_filter_none (φ : Placing) (hs : s.filter = none) :
    (s.placed φ).filter = none := by
  obtain ⟨_, _, _, _, _, _, _, _, _, _⟩ := s
  obtain rfl := hs
  rfl

theorem Select.resolve_filter (hs : s.filter = none) {f f' : Option Expr}
    (hf : ∀ scopes, Expr.resolveFilter c scopes f = .ok f') (text : String) (outer : List Scope) :
    Select.resolve c outer { s with text, filter := f } =
      (s.resolve c outer).map fun q => { q with text, filter := f' } := by
  rw [Select.resolve_eq, Select.resolve_eq, bind_map]
  refine bind_congr_ok fun sources _ => ?_
  simp only [Select.resolveClauses, hs, hf, Expr.resolveFilter, ok_bind, bind_map]
  refine bind_congr_ok fun output _ => bind_congr_ok fun groupBy _ =>
    bind_congr_ok fun orderBy _ => ?_
  rfl

theorem Select.filter_of_resolve (hs : s.filter = none) {q : Select} {outer : List Scope}
    (h : s.resolve c outer = .ok q) : q.filter = none := by
  obtain ⟨scope, joined, conditions, listed, hresolves⟩ := Select.resolve_eq_ok h
  have hfilter := hresolves.filter
  rw [hs] at hfilter
  exact (Except.ok.inj hfilter).symm

theorem Select.compile_filter {q : Select} (hq : q.filter = none) {f : Option Expr}
    {p : Option (Program Plan)} (hf : Expr.programOption c f = .ok p) (text : String) :
    Select.compile c { q with text, filter := f } =
      (q.compile c).map fun plan => .of { plan.stages with filter := p } := by
  obtain ⟨_, distinct, output, origin, joins, filter, groupBy, orderBy, limit, offset⟩ := q
  obtain rfl := hq
  simp only [Select.compile, hf, Expr.programOption, ok_bind, bind_map]
  rfl

/-! ### Plans -/

/-- A condition that is TRUE changes no rows. -/
theorem Plan.same_of_true (hc : c.InMemory) {stages : Stages Plan} (hs : stages.filter = none) :
    Plan.Same c (.of stages) (.of { stages with filter := some ⟨[.boolean true], []⟩ }) where
  columns := rfl
  query now frames := by
    have hstages : (Stages.queries c now stages).filter = none := by
      rw [Stages.queries_eq, hs]
      rfl
    have hqueries : Stages.queries c now { stages with filter := some ⟨[.boolean true], []⟩ } =
        { Stages.queries c now stages with filter := some ⟨[.boolean true], []⟩ } := by
      rw [Stages.queries_eq, Stages.queries_eq]
      rfl
    rw [Plan.query, Plan.query, hqueries]
    exact Stages.rows_of_true hc hstages fun env => rfl

/-- **WHERE TRUE changes nothing.** -/
theorem Database.Reachable.whereTrue_standsFor {db : Database} (h : db.Reachable)
    (hs : s.filter = none) (φ : Placing) (text : String) (he : e.nodes = [.boolean true]) :
    let s' : Select := { s.placed φ with text, filter := some e }
    s'.StandsFor db.catalog s ∧
      ∀ now t t', Statement.parse db.config.parser t = .ok (.select s) →
        Statement.parse db.config.parser t' = .ok (.select s') →
        UpToPlaces Eq (db.execute now t).1 (db.execute now t').1 := by
  intro s'
  have hstands : s'.StandsFor db.catalog s := by
    intro outer
    have hplaced := Select.resolve_placed (c := db.catalog) φ outer s
    rw [Select.resolve_filter (Select.placed_filter_none φ hs) (Expr.resolveFilter_true he) text outer]
    generalize hx : s.resolve db.catalog outer = x at hplaced
    generalize Select.resolve db.catalog outer (s.placed φ) = y at hplaced
    cases hplaced with
    | error e => exact .error (e.unplaced_placed φ)
    | @ok q q' hq =>
      subst hq
      have hnone := Select.filter_of_resolve hs hx
      refine .ok ⟨Select.columns_placed φ q, ?_⟩
      rw [Select.compile_filter (Select.placed_filter_none φ hnone) (Expr.programOption_true he),
        Select.compile_placed]
      cases hplan : q.compile db.catalog with
      | error e => exact .error rfl
      | ok plan =>
        obtain ⟨stages, rfl, hcompiles⟩ := Select.compile_eq_ok hplan
        refine .ok (Plan.same_of_true h.sound.inMemory ?_)
        have hfilter := hcompiles.filter
        rw [hnone] at hfilter
        exact (Except.ok.inj hfilter).symm
  refine ⟨hstands, fun now t t' ht ht' => ?_⟩
  rw [Database.execute_select ht, Database.execute_select ht']
  exact hstands.answer [] now []

namespace Database

/-- The written `SELECT lit FROM lamps ORDER BY lit`. -/
def litInOrder : Select :=
  let lit (offset : Nat) : Expr := .ofNodes [.column { qualifier := none, column := "lit", offset }]
    "lit" offset
  ⟨"SELECT lit FROM lamps ORDER BY lit", false, [lit 7], some (.table "lamps" none none 16), [], none,
    [], [⟨lit 31, true⟩], none, 0⟩

theorem litInOrder_whereTrue :
    let text := "SELECT lit FROM lamps WHERE TRUE ORDER BY lit"
    let s' : Select := { litInOrder.placed (.gap 22 11) with
      text, filter := some (.ofNodes [.boolean true] "TRUE" 28) }
    Statement.parse {} litInOrder.text = .ok (.select litInOrder) ∧
      Statement.parse {} text = .ok (.select s') ∧
      s'.StandsFor lamps.catalog litInOrder ∧
      UpToPlaces Eq (lamps.execute ⟨0, 0⟩ litInOrder.text).1 (lamps.execute ⟨0, 0⟩ text).1 ∧
      (lamps.execute ⟨0, 0⟩ text).1 = .ok ⟨[⟨"lit", .boolean⟩],
        [⟨1, [.boolean false]⟩, ⟨0, [.boolean true]⟩, ⟨2, [.boolean true]⟩], 0⟩ := by
  intro text s'
  have hs : Statement.parse {} litInOrder.text = .ok (.select litInOrder) := by cbv
  have hs' : Statement.parse {} text = .ok (.select s') := by cbv
  obtain ⟨hstands, hsame⟩ := reachable_lamps.whereTrue_standsFor (s := litInOrder) rfl (.gap 22 11)
    text (e := .ofNodes [.boolean true] "TRUE" 28) rfl
  exact ⟨hs, hs', hstands, hsame _ _ _ hs hs', by cbv⟩

end Database

end SqlEngine
