import SqlEngine.Proofs.Database.Names
import SqlEngine.Proofs.Database.Typing
import SqlEngine.Proofs.Resolution.Ambiguity

/-!
# Databases — references have one meaning

The columns of a table go by different names, and CREATE TABLE is what sees to it; nothing does for
the outputs of a sub-select in FROM.  So a reference of a statement that is accepted matches one
column, or several outputs of one sub-select, of which it is bound to the first.

* `Statement.Sees.tables_distinct`: what the scopes of a statement know of names.
* `Database.Reachable.references_unambiguous`: what references and target columns can mean.
-/

namespace SqlEngine

variable {c : Catalog}

/-- No two columns of a table among the sources go by one name. -/
def Scope.TablesDistinct (scope : Scope) : Prop :=
  ∀ source ∈ scope, source.table ≠ none → source.columns.Distinct

theorem Source.scopeSource_distinct (h : c.ColumnsDistinct) (s : Source) :
    (s.scopeSource c).table ≠ none → (s.scopeSource c).columns.Distinct := by
  cases s with
  | table name aliasName id offset =>
    simp only [scopeSource]
    split
    next t ht =>
      obtain ⟨i, -, ht⟩ := Option.bind_eq_some_iff.1 ht
      exact fun _ => h t (List.mem_of_getElem? ht)
    next => exact fun hnone => absurd rfl hnone
  | select q aliasName offset => exact fun hnone => absurd rfl hnone

theorem Select.HasScope.tables_distinct (h : c.ColumnsDistinct) {outer : List Scope} {s : Select}
    {scope : Scope} (hscope : s.HasScope c outer scope) : scope.TablesDistinct := by
  obtain ⟨s', -, rfl⟩ := hscope
  intro source hsource
  obtain ⟨written, -, rfl⟩ := List.mem_map.1 hsource
  exact written.scopeSource_distinct h

theorem Table.scope_distinct (h : c.ColumnsDistinct) {name : String} {id : Nat} {t : Table}
    (ht : c.findTable? name = some (id, t)) : Scope.TablesDistinct t.scope := by
  intro source hsource _
  obtain rfl := List.mem_singleton.1 hsource
  exact h t (List.mem_of_getElem? (Catalog.getElem?_of_findTable? ht))

/-- In all scopes that a statement sees, the columns of tables go by different names. -/
theorem Statement.Sees.tables_distinct (h : c.ColumnsDistinct) {S : Statement} {part : Part}
    {scopes : List Scope} (hsees : S.Sees c part scopes) :
    ∀ scope ∈ scopes, scope.TablesDistinct := by
  induction hsees with
  | statement => exact List.forall_mem_nil _
  | source _ _ ih | argument _ _ _ ih | value _ _ ih => exact ih
  | condition _ hscope _ _ ih =>
    refine List.forall_mem_cons.2 ⟨fun source hsource => ?_, ih⟩
    exact hscope.tables_distinct h source (List.mem_of_mem_take hsource)
  | clause _ hscope _ ih => exact List.forall_mem_cons.2 ⟨hscope.tables_distinct h, ih⟩
  | inserted => exact List.forall_mem_singleton.2 (List.forall_mem_nil _)
  | updated _ ht _ | deleted _ ht _ =>
    exact List.forall_mem_singleton.2 (Table.scope_distinct h ht)

/-- A match beside the first one is a later output of the same sub-select. -/
theorem Scope.First.eq_or_later {scope : Scope} (h : scope.TablesDistinct) {r : ColumnRef}
    {b : Binding} {column : Column} (hfirst : scope.First r b column) {b' : Binding}
    {column' : Column} (hmatch : scope.Match r b' column') :
    b' = b ∨ b'.source = b.source ∧ b.column < b'.column ∧
      ∃ source, scope[b.source]? = some source ∧ source.table = none := by
  obtain ⟨hsource, hle⟩ := hfirst.least b' column' hmatch
  rcases Nat.eq_or_lt_of_le hle with heq | hlt
  · obtain ⟨i, j⟩ := b'
    obtain rfl : i = b.source := hsource
    obtain rfl : b.column = j := heq
    exact .inl rfl
  · refine .inr ⟨hsource, hlt, ?_⟩
    obtain ⟨⟨⟨source, hoffers, hcolumn⟩, hname⟩, -⟩ := hfirst
    obtain ⟨⟨source', hoffers', hcolumn'⟩, hname'⟩ := hmatch
    have hat := hoffers.getElem?
    obtain rfl := Option.some.inj (hat.symm.trans (hsource ▸ hoffers'.getElem?))
    refine ⟨source, hat, Classical.not_not.1 fun htable => ?_⟩
    have hdistinct := h source (List.mem_of_getElem? hat) htable
    exact absurd (hdistinct.eq_of_sameName hcolumn hcolumn' hname hname') (Nat.ne_of_lt hlt)

/-! ### Target columns -/

/-- The column at the position goes by the name. -/
def Table.Names (t : Table) (name : String) (i : Nat) : Prop :=
  ∃ column : Column, t.columns[i]? = some column ∧ Text.sameName column.name name = true

/-- The statement writes into a column that it names, of the table. -/
inductive Statement.Targets (c : Catalog) (S : Statement) (t : Table) : String → Prop
  | inserted {s : Insert} {id : Nat} {name : String} (hS : S = .insert s)
      (ht : c.findTable? s.table = some (id, t)) (hname : name ∈ s.columns) : Targets c S t name
  | assigned {s : Update} {id : Nat} {a : Assignment} (hS : S = .update s)
      (ht : c.findTable? s.table = some (id, t)) (ha : a ∈ s.assignments) : Targets c S t a.column

theorem Table.names_of_expectColumn {t : Table} {name : String} {offset i : Nat}
    (h : t.expectColumn name offset = .ok i) : t.Names name i := by
  simp only [expectColumn] at h
  split at h
  next j hj =>
    obtain ⟨hlt, hname, -⟩ := List.findIdx?_eq_some_iff_getElem.1 hj
    exact ⟨_, Except.ok.inj h ▸ List.getElem?_eq_getElem hlt, hname⟩
  next => cases h

theorem Insert.exists_of_positionsOf {t : Table} {offset : Nat} {name : String} :
    ∀ {names : List String} {seen positions : List Nat},
    Insert.positionsOf t offset seen names = .ok positions → name ∈ names →
    ∃ i, t.expectColumn name offset = .ok i
  | [], _, _, _, hmem => by cases hmem
  | first :: names, seen, positions, h, hmem => by
    simp only [Insert.positionsOf, bind_eq_ok_iff] at h
    obtain ⟨i, hi, h⟩ := h
    split at h
    · cases h
    · rcases List.mem_cons.1 hmem with rfl | hmem
      · exact ⟨i, hi⟩
      · exact exists_of_positionsOf h hmem

/-- A column that a statement writes into is a column of the table. -/
theorem Statement.Targets.exists_column {S S' : Statement} {t : Table} {name : String}
    (h : S.Targets c t name) (hS : S.resolve c = .ok S') : ∃ i, t.Names name i := by
  cases h with
  | @inserted s id _ hinsert ht hname =>
    rw [hinsert] at hS
    simp only [Statement.resolve, bind_eq_ok_iff, Insert.resolve] at hS
    obtain ⟨s', ⟨⟨id', t'⟩, hnamed, hrest⟩, -⟩ := hS
    obtain ⟨-, rfl⟩ :=
      Prod.mk.inj (Option.some.inj (ht.symm.trans (Catalog.expectNamed_eq_ok hnamed)))
    split at hrest
    next hempty =>
      rw [List.isEmpty_iff.1 hempty] at hname
      cases hname
    next =>
      obtain ⟨positions, hpositions, -⟩ := bind_eq_ok_iff.1 hrest
      obtain ⟨i, hi⟩ := Insert.exists_of_positionsOf hpositions hname
      exact ⟨i, Table.names_of_expectColumn hi⟩
  | @assigned s id a hupdate ht ha =>
    rw [hupdate] at hS
    simp only [Statement.resolve, bind_eq_ok_iff] at hS
    obtain ⟨s', hs, -⟩ := hS
    obtain ⟨_, t', ht', -, hassignments, -⟩ := Update.resolve_eq_ok hs
    obtain ⟨-, rfl⟩ := Prod.mk.inj (Option.some.inj (ht.symm.trans ht'))
    obtain ⟨a', -, hassignment⟩ := exists_mem_of_forall₂ hassignments.flip ha
    simp only [Assignment.resolve, bind_eq_ok_iff] at hassignment
    obtain ⟨i, hi, -⟩ := hassignment
    exact ⟨i, Table.names_of_expectColumn hi⟩

/-! ### Databases -/

namespace Database

variable {db : Database}

/-- **References have one meaning**, but for outputs of one name.  A reference that is written in an
accepted statement, at any depth, matches a column in none of the scopes that it sees and is a call,
or it is bound to a match in the innermost scope that has one; every other match there is a later
output of the same sub-select in FROM.  When columns of two sources match there, the reference is
reported as ambiguous.  A column that a statement writes into is the only one of its name. -/
theorem Reachable.references_unambiguous (h : Reachable db) :
    (∀ (S S' : Statement) (e : Expr) (scopes : List Scope) (r : ColumnRef),
      S.resolve db.catalog = .ok S' → S.Sees db.catalog (.expr e) scopes → .column r ∈ e.nodes →
      ∃ aggregates n, r.resolve db.catalog scopes aggregates = .ok n ∧
        ((∃ f, n = .call f) ∧ (∀ scope ∈ scopes, scope.Lacks r) ∨
          ∃ bound b scope column, n = .column bound ∧ bound.binding = some b ∧
            scopes[bound.level]? = some scope ∧
            (∀ inner ∈ scopes.take bound.level, inner.Lacks r) ∧ scope.Match r b column ∧
            ∀ b' column', scope.Match r b' column' → b' = b ∨
              b'.source = b.source ∧ b.column < b'.column ∧
                ∃ source, scope[b.source]? = some source ∧ source.table = none)) ∧
    (∀ (r : ColumnRef) (scopes : List Scope) (aggregates : Bool), r.isWildcard = false →
      r.Ambiguous scopes →
      r.resolve db.catalog scopes aggregates = .error (.ambiguous r.text r.offset)) ∧
    ∀ (S S' : Statement) (t : Table) (name : String), S.resolve db.catalog = .ok S' →
      S.Targets db.catalog t name → ∃! i, t.Names name i := by
  have hdistinct := h.columns_distinct
  refine ⟨?_, fun r scopes aggregates => ColumnRef.resolve_ambiguous, ?_⟩
  · intro S S' e scopes r hS hsees hr
    obtain ⟨aggregates, n, hn, hcases⟩ := hsees.column hS hr
    refine ⟨aggregates, n, hn, ?_⟩
    rcases hcases with ⟨bound, rfl, b, scope, column, hb, hscope, hfirst, hinner⟩ | hcall
    · have htables := hsees.tables_distinct hdistinct scope (List.mem_of_getElem? hscope)
      exact .inr ⟨bound, b, scope, column, rfl, hb, hscope, hinner, hfirst.matched,
        fun b' column' => hfirst.eq_or_later htables⟩
    · exact .inl hcall
  · intro S S' t name hS htarget
    obtain ⟨i, hi⟩ := htarget.exists_column hS
    obtain ⟨column, hcolumn, hname⟩ := hi
    refine ⟨i, ⟨column, hcolumn, hname⟩, ?_⟩
    rintro j ⟨column', hcolumn', hname'⟩
    have ht : t ∈ db.catalog.tables := by
      cases htarget with
      | inserted _ ht _ | assigned _ ht _ =>
        exact List.mem_of_getElem? (Catalog.getElem?_of_findTable? ht)
    exact (hdistinct t ht).eq_of_sameName hcolumn' hcolumn hname' hname

/-- An expression that is one name. -/
def ofName (column : String) (aliasName : Option String) (offset : Nat) : Expr :=
  { Expr.ofNodes [.column { qualifier := none, column, offset }] column offset with aliasName }

/-- The written SELECT of outputs from one source or none. -/
def selecting (text : String) (output : List Expr) (origin : Option Source) (offset : Nat) :
    Select :=
  ⟨text, false, output, origin, [], none, [], [], none, offset⟩

/-- A sub-select without sources reads a column of the statement around it. -/
def outerName : Select :=
  let inner := selecting "SELECT a" [ofName "a" none 15] none 8
  selecting "SELECT (SELECT a) AS v FROM t AS x"
    [{ Expr.ofNodes [.select inner] "(SELECT a)" 7 with aliasName := some "v" }]
    (some (.table "t" (some "x") none 28)) 0

/-- The written UPDATE of a column by a name in the other case. -/
def otherCase : Update :=
  let value := Expr.ofNodes [.boolean false] "FALSE" 17
  ⟨"UPDATE t SET B = FALSE", "t", none, [⟨"B", 0, value, 13⟩], none, 0⟩

theorem outerName_unambiguous :
    let x : ScopeSource := ⟨"x", some "t", [⟨"a", .text⟩, ⟨"b", .boolean⟩]⟩
    let r : ColumnRef := { qualifier := none, column := "a", offset := 15 }
    Statement.parse {} "SELECT (SELECT a) AS v FROM t AS x" = .ok (.select outerName) ∧
      (Statement.select outerName).Sees greetings.catalog (.expr (ofName "a" none 15)) [[], [x]] ∧
      (∃! b, ∃ column, Scope.Match [x] r b column) ∧
      r.resolve greetings.catalog [[], [x, x]] true = .error (.ambiguous "a" 15) ∧
      Statement.parse {} "UPDATE t SET B = FALSE" = .ok (.update otherCase) ∧
      ∃ t, (Statement.update otherCase).Targets greetings.catalog t "B" ∧ ∃! i, t.Names "B" i := by
  intro x r
  obtain ⟨hreference, hambiguous, htarget⟩ := reachable_greetings.references_unambiguous
  have hsees : (Statement.select outerName).Sees greetings.catalog
      (.expr (ofName "a" none 15)) [[], [x]] := by
    have houter : (outerName.resolve greetings.catalog []).map
        (fun s => s.sources.map (Source.scopeSource greetings.catalog)) = .ok [x] := by cbv
    have hinner : ((selecting "SELECT a" [ofName "a" none 15] none 8).resolve greetings.catalog
        [[x]]).map (fun s => s.sources.map (Source.scopeSource greetings.catalog)) = .ok [] := by cbv
    obtain ⟨s, hs, hscope⟩ := map_eq_ok_iff.1 houter
    obtain ⟨q, hq, hnone⟩ := map_eq_ok_iff.1 hinner
    exact .clause (.value (.clause (.statement rfl) ⟨s, hs, hscope.symm⟩
      (.output List.mem_cons_self rfl)) List.mem_cons_self) ⟨q, hq, hnone.symm⟩
      (.output List.mem_cons_self rfl)
  have hlacks : Scope.Lacks [] r := by
    rintro b column ⟨⟨source, hoffers, -⟩, -⟩
    cases hoffers.getElem?
  have hmatch : Scope.Match [x] r ⟨0, 0⟩ ⟨"a", .text⟩ := ⟨⟨x, .all rfl rfl, rfl⟩, by decide⟩
  refine ⟨by cbv, hsees, ?_, ?_, by cbv, ?_⟩
  · obtain ⟨S, hS⟩ := exists_of_isOk (x := (Statement.select outerName).resolve greetings.catalog)
      (by cbv)
    obtain ⟨aggregates, n, -, hcases⟩ := hreference _ S _ _ r hS hsees List.mem_cons_self
    rcases hcases with ⟨-, hnone⟩ | ⟨bound, b, scope, column, -, -, hscope, -, hb, honly⟩
    · exact absurd hmatch (hnone [x] (by simp) _ _)
    · -- the inner SELECT has no sources, so the scope is that of the outer one
      obtain rfl : scope = [x] := by
        generalize bound.level = level at hscope
        rcases level with _ | _ | n
        · obtain rfl := Option.some.inj hscope
          exact absurd hb (hlacks _ _)
        · exact (Option.some.inj hscope).symm
        · cases hscope
      refine ⟨b, ⟨column, hb⟩, ?_⟩
      rintro b' ⟨column', hb'⟩
      rcases honly b' column' hb' with heq | ⟨-, -, source, hsource, htable⟩
      · exact heq
      · obtain rfl := List.mem_singleton.1 (List.mem_of_getElem? hsource)
        cases htable
  · refine hambiguous r _ true (by decide) ⟨[[]], [x, x], [], rfl, by simpa using hlacks, ?_⟩
    exact ⟨⟨0, 0⟩, ⟨"a", .text⟩, ⟨1, 0⟩, ⟨"a", .text⟩, ⟨⟨x, .all rfl rfl, rfl⟩, by decide⟩,
      ⟨⟨x, .all rfl rfl, rfl⟩, by decide⟩, by decide⟩
  · obtain ⟨S, hS⟩ := exists_of_isOk (x := (Statement.update otherCase).resolve greetings.catalog)
      (by cbv)
    obtain ⟨⟨id, t⟩, ht⟩ : ∃ found, greetings.catalog.findTable? otherCase.table = some found :=
      Option.isSome_iff_exists.1 (by cbv)
    have htargets : (Statement.update otherCase).Targets greetings.catalog t "B" :=
      .assigned rfl ht List.mem_cons_self
    exact ⟨t, htargets, htarget _ S _ _ hS htargets⟩

/-- The written SELECT from a sub-select with two outputs of one name. -/
def twiceNamed : Select :=
  let inner := selecting "SELECT a AS c, b AS c FROM t"
    [ofName "a" (some "c") 22, ofName "b" (some "c") 30] (some (.table "t" none none 42)) 15
  selecting "SELECT c FROM (SELECT a AS c, b AS c FROM t) AS x" [ofName "c" none 7]
    (some (.select inner (some "x") 14)) 0

/-- Both outputs match the reference, which is taken for the first of them. -/
theorem twiceNamed_not_reported :
    let r : ColumnRef := { qualifier := none, column := "c", offset := 7 }
    let scope : Scope := [⟨"x", none, [⟨"c", .text⟩, ⟨"c", .boolean⟩]⟩]
    Reachable greetings ∧
      Statement.parse {} "SELECT c FROM (SELECT a AS c, b AS c FROM t) AS x" =
        .ok (.select twiceNamed) ∧
      (Statement.select twiceNamed).Sees greetings.catalog (.expr (ofName "c" none 7)) [scope] ∧
      scope.Match r ⟨0, 0⟩ ⟨"c", .text⟩ ∧ scope.Match r ⟨0, 1⟩ ⟨"c", .boolean⟩ ∧
      (∃ bound, r.resolve greetings.catalog [scope] true = .ok (.column bound) ∧
        bound.binding = some ⟨0, 0⟩) ∧
      (greetings.execute ⟨0, 0⟩ "SELECT c FROM (SELECT a AS c, b AS c FROM t) AS x").1 =
        .ok ⟨[⟨"c", .text⟩], [⟨0, [.text "hello"]⟩], 0⟩ := by
  intro r scope
  refine ⟨reachable_greetings, by cbv, ?_, ?_, ?_, ?_, by cbv⟩
  · have hscope : (twiceNamed.resolve greetings.catalog []).map
        (fun s => s.sources.map (Source.scopeSource greetings.catalog)) = .ok scope := by cbv
    obtain ⟨s, hs, heq⟩ := map_eq_ok_iff.1 hscope
    exact .clause (.statement rfl) ⟨s, hs, heq.symm⟩ (.output List.mem_cons_self rfl)
  · exact ⟨⟨_, .all rfl rfl, rfl⟩, by decide⟩
  · exact ⟨⟨_, .all rfl rfl, rfl⟩, by decide⟩
  · exact ⟨{ r with qualifier := some "x", type := .text, binding := some ⟨0, 0⟩ }, by cbv, rfl⟩

end Database

end SqlEngine
