import SqlEngine.Proofs.Resolution.Binding

/-!
# Resolution — what a reference could be about

A reference is resolved in the scopes that its part of the statement sees (`Statement.Sees`).  In
the innermost one with a match for it, all matches have to be in one source: columns of two sources
are reported as ambiguous.  Within one source the first column of the name is taken, so the match is
the only one as far as no two columns there go by one name.

* `Scope.bind?_first`: what a reference is bound to, among its matches.
* `ColumnRef.resolve_ambiguous`: matches in two sources are an error.
* `Statement.Sees.resolves`: all that is written in a statement is resolved in the scopes it sees.
* `Statement.Sees.column`: a reference, at any depth of the statement, is bound to the first column
  of its name in the only source that has one, or is a call.
-/

namespace SqlEngine

/-! ### One scope -/

/-- Columns of two sources match the reference. -/
def Scope.Ambiguous (scope : Scope) (r : ColumnRef) : Prop :=
  ∃ b column b' column', scope.Match r b column ∧ scope.Match r b' column' ∧ b.source ≠ b'.source

/-- All matches of the reference are in one source, and this is the first of them. -/
structure Scope.First (scope : Scope) (r : ColumnRef) (b : Binding) (column : Column) : Prop where
  matched : scope.Match r b column
  least : ∀ b' column', scope.Match r b' column' → b'.source = b.source ∧ b.column ≤ b'.column

variable {scope : Scope} {r bound : ColumnRef}

/-- A reference that is bound in a scope is bound to the first of its matches there. -/
theorem Scope.bind?_first (h : scope.bind? r = .ok (some bound)) :
    ∃ b column, bound.binding = some b ∧ scope.First r b column := by
  obtain ⟨b, column, hb, hmatch, -⟩ := Scope.bind?_match h
  refine ⟨b, column, hb, hmatch, fun b' column' hmatch' => ?_⟩
  simp only [Scope.bind?, bind_eq_ok_iff] at h
  obtain ⟨sources, hsources, h⟩ := h
  split at h
  · cases h
  next found honly =>
    obtain rfl := Option.some.inj (Except.ok.inj h)
    obtain ⟨bound', j, hbound', hbinding, hj⟩ := hmatch'.bindAt?
    -- the source of the other match binds the reference as well, so it is the same
    have hmem : bound' ∈ sources.filterMap (scope.bindAt? r) :=
      List.mem_filterMap.2 ⟨_, hmatch'.mem_candidates hsources, hbound'⟩
    rw [honly, List.mem_singleton] at hmem
    rw [hmem, hb] at hbinding
    obtain rfl := Option.some.inj hbinding
    exact ⟨rfl, hj⟩
  · cases h

theorem Scope.candidates_error {e : Error} (h : scope.candidates r = .error e) :
    e = .ambiguous r.text r.offset := by
  simp only [Scope.candidates] at h
  split at h
  · cases h
  · split at h
    · exact (Except.error.inj h).symm
    · cases h

/-- A scope reports no error on a reference but that it is ambiguous. -/
theorem Scope.bind?_error {e : Error} (h : scope.bind? r = .error e) :
    e = .ambiguous r.text r.offset := by
  simp only [Scope.bind?] at h
  cases hsources : scope.candidates r with
  | error e' =>
    rw [hsources, error_bind] at h
    rw [← Except.error.inj h, Scope.candidates_error hsources]
  | ok sources =>
    rw [hsources, ok_bind] at h
    split at h
    · cases h
    · cases h
    · exact (Except.error.inj h).symm

/-- A scope without a match binds the reference to nothing, unless its qualifier is ambiguous. -/
theorem Scope.Lacks.bind? (h : scope.Lacks r) :
    scope.bind? r = .ok none ∨ scope.bind? r = .error (.ambiguous r.text r.offset) := by
  cases hbind : scope.bind? r with
  | ok found =>
    cases found with
    | none => exact .inl rfl
    | some bound =>
      obtain ⟨b, column, -, hmatch, -⟩ := Scope.bind?_match hbind
      exact absurd hmatch (h b column)
  | error e => exact .inr (congrArg _ (Scope.bind?_error hbind))

/-- Matches in two sources are reported. -/
theorem Scope.Ambiguous.bind? (h : scope.Ambiguous r) :
    scope.bind? r = .error (.ambiguous r.text r.offset) := by
  obtain ⟨b, column, b', column', hmatch, hmatch', hne⟩ := h
  cases hbind : scope.bind? r with
  | ok found =>
    cases found with
    | none => exact absurd hmatch (Scope.bind?_lacks hbind b column)
    | some bound =>
      obtain ⟨first, _, -, hfirst⟩ := Scope.bind?_first hbind
      exact absurd ((hfirst.least _ _ hmatch).1.trans (hfirst.least _ _ hmatch').1.symm) hne
  | error e => exact congrArg _ (Scope.bind?_error hbind)

/-! ### All scopes -/

variable {c : Catalog} {scopes : List Scope} {aggregates : Bool}

/-- The reference was bound to the first of its matches in the innermost scope that has one, all of
them in one source. -/
def ColumnRef.BindsFirst (scopes : List Scope) (r bound : ColumnRef) : Prop :=
  ∃ b scope column, bound.binding = some b ∧ scopes[bound.level]? = some scope ∧
    scope.First r b column ∧ ∀ inner ∈ scopes.take bound.level, inner.Lacks r

/-- The innermost of the scopes with a match for the reference has matches in two sources. -/
def ColumnRef.Ambiguous (scopes : List Scope) (r : ColumnRef) : Prop :=
  ∃ inner scope outer, scopes = inner ++ scope :: outer ∧ (∀ s ∈ inner, s.Lacks r) ∧
    scope.Ambiguous r

theorem Scope.bindIn?_first (h : Scope.bindIn? r 0 scopes = .ok (some bound)) :
    r.BindsFirst scopes bound := by
  obtain ⟨inner, scope, outer, found, rfl, hinner, hfound, rfl⟩ := Scope.bindIn?_cases h
  obtain ⟨b, column, hb, hfirst⟩ := Scope.bind?_first hfound
  refine ⟨b, scope, column, hb, by simp, hfirst, fun s hs => ?_⟩
  rw [Nat.zero_add, List.take_left] at hs
  exact Scope.bind?_lacks (hinner s hs)

theorem Scope.bindIn?_ambiguous {scope : Scope} {outer : List Scope} (h : scope.Ambiguous r) :
    ∀ {inner : List Scope} {level : Nat}, (∀ s ∈ inner, s.Lacks r) →
    Scope.bindIn? r level (inner ++ scope :: outer) = .error (.ambiguous r.text r.offset)
  | [], level, _ => by
    rw [List.nil_append, Scope.bindIn?, h.bind?, error_bind]
  | s :: inner, level, hinner => by
    obtain ⟨hs, hinner⟩ := List.forall_mem_cons.1 hinner
    rw [List.cons_append, Scope.bindIn?]
    rcases hs.bind? with hnone | herror
    · rw [hnone, ok_bind]
      exact bindIn?_ambiguous h hinner
    · rw [herror, error_bind]

/-- **An ambiguous reference is reported.** -/
theorem ColumnRef.resolve_ambiguous (hr : r.isWildcard = false) (h : r.Ambiguous scopes) :
    r.resolve c scopes aggregates = .error (.ambiguous r.text r.offset) := by
  obtain ⟨inner, scope, outer, rfl, hinner, hambiguous⟩ := h
  simp only [ColumnRef.resolve, hr]
  rw [Scope.bindIn?_ambiguous hambiguous hinner]
  rfl

/-- What a reference becomes: the first column of its name, or a call when no scope has one. -/
theorem ColumnRef.resolve_cases {n : Node} (h : r.resolve c scopes aggregates = .ok n) :
    (∃ bound, n = .column bound ∧ r.BindsFirst scopes bound) ∨
      (∃ f, n = .call f) ∧ ∀ scope ∈ scopes, scope.Lacks r := by
  simp only [ColumnRef.resolve] at h
  split at h
  · cases h
  simp only [bind_eq_ok_iff] at h
  obtain ⟨found, hfound, h⟩ := h
  cases found with
  | some bound => exact .inl ⟨bound, (Except.ok.inj h).symm, Scope.bindIn?_first hfound⟩
  | none =>
    obtain ⟨f, -, rfl⟩ := map_eq_ok_iff.1 h
    exact .inr ⟨⟨f, rfl⟩, Scope.bindIn?_lacks hfound⟩

/-! ### What the parts of a statement see -/

/-- A part of a statement as it is written. -/
inductive Part
  | select (s : Select)
  | expr (e : Expr)

/-- The part has a meaning in the scopes. -/
def Part.Resolves (c : Catalog) (scopes : List Scope) : Part → Prop
  | .select s => ∃ s', s.resolve c scopes = .ok s'
  | .expr e   => ∃ aggregates e', e.resolve c scopes aggregates = .ok e'

/-- The sources of the SELECT as references see them. -/
def Select.HasScope (c : Catalog) (outer : List Scope) (s : Select) (scope : Scope) : Prop :=
  ∃ s', s.resolve c outer = .ok s' ∧ scope = s'.sources.map (Source.scopeSource c)

/-- The expression is an output that is no wildcard, the condition of WHERE, a group key, or a sort
key that does not name an output. -/
inductive Select.Writes (s : Select) : Expr → Prop
  | output {e : Expr} (h : e ∈ s.output) (hplain : e.isWildcard = false) : Writes s e
  | filter {e : Expr} (h : s.filter = some e) : Writes s e
  | groupBy {e : Expr} (h : e ∈ s.groupBy) : Writes s e
  | orderBy {key : OrderKey} (h : key ∈ s.orderBy)
      (hown : OrderKey.namedOutput? s.output key.expr = none) : Writes s key.expr

/-- The parts of a statement, at any depth, with the scopes that they see.  The clauses of a SELECT
see its sources, the condition of a join those up to its own, and a sub-select in FROM only what is
around the statement. -/
inductive Statement.Sees (c : Catalog) (S : Statement) : Part → List Scope → Prop
  | statement {s : Select} (hS : S = .select s) : Sees c S (.select s) []
  | source {s q : Select} {aliasName : Option String} {offset : Nat} {outer : List Scope}
      (h : Sees c S (.select s) outer) (hq : .select q aliasName offset ∈ s.sources) :
      Sees c S (.select q) outer
  | condition {s : Select} {scope : Scope} {outer : List Scope} {k : Nat} {j : Join} {e : Expr}
      (h : Sees c S (.select s) outer) (hscope : s.HasScope c outer scope)
      (hj : s.joins[k]? = some j) (he : j.condition = some e) :
      Sees c S (.expr e) (scope.take (k + 2) :: outer)
  | clause {s : Select} {scope : Scope} {outer : List Scope} {e : Expr}
      (h : Sees c S (.select s) outer) (hscope : s.HasScope c outer scope) (he : s.Writes e) :
      Sees c S (.expr e) (scope :: outer)
  | argument {e arg : Expr} {f : Call} {scopes : List Scope} (h : Sees c S (.expr e) scopes)
      (hf : .call f ∈ e.nodes) (harg : arg ∈ f.arguments) : Sees c S (.expr arg) scopes
  | value {e : Expr} {q : Select} {scopes : List Scope} (h : Sees c S (.expr e) scopes)
      (hq : .select q ∈ e.nodes) : Sees c S (.select q) scopes
  | inserted {s : Insert} {row : List Expr} {e : Expr} (hS : S = .insert s) (hrow : row ∈ s.rows)
      (he : e ∈ row) : Sees c S (.expr e) [[]]
  | updated {s : Update} {id : Nat} {t : Table} {e : Expr} (hS : S = .update s)
      (ht : c.findTable? s.table = some (id, t))
      (he : e ∈ s.assignments.map Assignment.value ++ s.filter.toList) : Sees c S (.expr e) [t.scope]
  | deleted {s : Delete} {id : Nat} {t : Table} {e : Expr} (hS : S = .delete s)
      (ht : c.findTable? s.table = some (id, t)) (he : s.filter = some e) :
      Sees c S (.expr e) [t.scope]

/-! ### Parts of what is resolved -/

theorem Node.exists_of_resolveAll {n : Node} : ∀ {ns ns' : List Node},
    Node.resolveAll c scopes aggregates ns = .ok ns' → n ∈ ns →
    ∃ n', n.resolve c scopes aggregates = .ok n'
  | [], _, _, hmem => by cases hmem
  | m :: ns, ns', h, hmem => by
    simp only [Node.resolveAll, bind_eq_ok_iff] at h
    obtain ⟨m', hm, rest, hrest, -⟩ := h
    rcases List.mem_cons.1 hmem with rfl | hmem
    · exact ⟨m', hm⟩
    · exact exists_of_resolveAll hrest hmem

theorem Expr.exists_of_resolve {e e' : Expr} (h : e.resolve c scopes aggregates = .ok e') {n : Node}
    (hn : n ∈ e.nodes) : ∃ n', n.resolve c scopes aggregates = .ok n' := by
  obtain ⟨nodes, type, isBoolean, hasAggregate, source, aliasName, offset⟩ := e
  simp only [Expr.resolve, bind_eq_ok_iff] at h
  obtain ⟨nodes', hnodes, -⟩ := h
  exact Node.exists_of_resolveAll hnodes hn

theorem Expr.exists_of_resolveAll {e : Expr} : ∀ {es es' : List Expr},
    Expr.resolveAll c scopes aggregates es = .ok es' → e ∈ es →
    ∃ e', e.resolve c scopes aggregates = .ok e'
  | [], _, _, hmem => by cases hmem
  | d :: es, es', h, hmem => by
    simp only [Expr.resolveAll, bind_eq_ok_iff] at h
    obtain ⟨d', hd, rest, hrest, -⟩ := h
    rcases List.mem_cons.1 hmem with rfl | hmem
    · exact ⟨d', hd⟩
    · exact exists_of_resolveAll hrest hmem

theorem Call.exists_of_resolve {f f' : Call} (h : f.resolve c scopes aggregates = .ok f') {e : Expr}
    (he : e ∈ f.arguments) : (Part.expr e).Resolves c scopes := by
  obtain ⟨function, arguments, _, _, _, _⟩ := f
  simp only [Call.resolve] at h
  split at h
  · cases h
  simp only [bind_eq_ok_iff] at h
  obtain ⟨arguments', harguments, -⟩ := h
  exact ⟨_, Expr.exists_of_resolveAll harguments he⟩

theorem Expr.exists_of_resolveFilter {e : Expr} {filter : Option Expr}
    (h : Expr.resolveFilter c scopes (some e) = .ok filter) :
    ∃ e', e.resolve c scopes false = .ok e' := by
  simp only [Expr.resolveFilter, bind_eq_ok_iff] at h
  obtain ⟨e', he, -⟩ := h
  exact ⟨e', he⟩

/-- The outputs that are no wildcards are resolved, and all keep their aliases. -/
theorem Expr.resolveOutputs_forall₂ : ∀ {es listed : List Expr},
    Expr.resolveOutputs c scopes es = .ok listed →
    List.Forall₂ (fun e e' => e'.aliasName = e.aliasName ∧
      (e.isWildcard = false → e.resolve c scopes true = .ok e')) es listed
  | [], listed, h => by
    obtain rfl := Except.ok.inj h
    exact .nil
  | e :: es, listed, h => by
    simp only [Expr.resolveOutputs] at h
    split at h
    next hwildcard =>
      simp only [ok_bind, bind_eq_ok_iff] at h
      obtain ⟨rest, hrest, h⟩ := h
      obtain rfl := Except.ok.inj h
      exact .cons ⟨rfl, fun hplain => by rw [hwildcard] at hplain; cases hplain⟩
        (resolveOutputs_forall₂ hrest)
    next =>
      simp only [bind_eq_ok_iff] at h
      obtain ⟨e', he, rest, hrest, h⟩ := h
      obtain rfl := Except.ok.inj h
      exact .cons ⟨Expr.resolve_aliasName he, fun _ => he⟩ (resolveOutputs_forall₂ hrest)

/-- A sort key names a resolved output only when it names the output as it was written. -/
theorem OrderKey.namedOutput?_eq_none {output listed : List Expr} {key : Expr}
    (halias : List.Forall₂ (fun e e' : Expr => e'.aliasName = e.aliasName) output listed)
    (h : OrderKey.namedOutput? output key = none) : OrderKey.namedOutput? listed key = none := by
  cases hlisted : OrderKey.namedOutput? listed key with
  | none => rfl
  | some e =>
    obtain ⟨r, hr, hnone, found, hfound, hname, -⟩ := OrderKey.namedOutput?_cases hlisted
    obtain ⟨written, hwritten, heq⟩ := exists_mem_of_forall₂ halias hfound
    have hsome : (output.find? fun e => e.aliasName.any (Text.sameName · r.column)).isSome :=
      List.find?_isSome.2 ⟨written, hwritten, heq ▸ hname⟩
    obtain ⟨named, hnamed⟩ := Option.isSome_iff_exists.1 hsome
    simp [OrderKey.namedOutput?, hr, hnone, hnamed] at h

theorem OrderKey.exists_of_resolveAll {listed : List Expr} {key : OrderKey}
    (hown : OrderKey.namedOutput? listed key.expr = none) : ∀ {ks ks' : List OrderKey},
    OrderKey.resolveAll c scopes listed ks = .ok ks' → key ∈ ks →
    ∃ e', key.expr.resolve c scopes true = .ok e'
  | [], _, _, hmem => by cases hmem
  | ⟨e, ascending⟩ :: ks, ks', h, hmem => by
    simp only [OrderKey.resolveAll] at h
    split at h
    next named hnamed =>
      simp only [ok_bind, bind_eq_ok_iff] at h
      obtain ⟨rest, hrest, -⟩ := h
      rcases List.mem_cons.1 hmem with rfl | hmem
      · rw [hown] at hnamed
        cases hnamed
      · exact exists_of_resolveAll hown hrest hmem
    next =>
      simp only [bind_eq_ok_iff] at h
      obtain ⟨e', he, rest, hrest, -⟩ := h
      rcases List.mem_cons.1 hmem with rfl | hmem
      · exact ⟨e', he⟩
      · exact exists_of_resolveAll hown hrest hmem

theorem Join.exists_of_resolveConditions {scope : Scope} {outer : List Scope} {j : Join} {e : Expr}
    (he : j.condition = some e) : ∀ {js : List Join} {visible k : Nat} {es : List Expr},
    Join.resolveConditions c scope outer visible js = .ok es → js[k]? = some j →
    ∃ e', e.resolve c (scope.take (k + visible) :: outer) false = .ok e'
  | [], _, _, _, _, hj => by cases hj
  | ⟨_, _, none⟩ :: _, _, _, _, h, _ => by cases h
  | ⟨_, _, some condition⟩ :: js, visible, k, es, h, hj => by
    simp only [Join.resolveConditions, bind_eq_ok_iff] at h
    obtain ⟨e', he', -, -, rest, hrest, -⟩ := h
    cases k with
    | zero =>
      obtain rfl := Option.some.inj hj
      obtain rfl := Option.some.inj he
      rw [Nat.zero_add]
      exact ⟨e', he'⟩
    | succ k =>
      rw [Nat.succ_add_eq_add_succ]
      exact exists_of_resolveConditions he hrest hj

theorem Source.exists_of_resolve {outer : List Scope} {q : Select} {aliasName : Option String}
    {offset : Nat} {s' : Source} (h : (Source.select q aliasName offset).resolve c outer = .ok s') :
    ∃ q', q.resolve c outer = .ok q' := by
  simp only [Source.resolve, bind_eq_ok_iff] at h
  obtain ⟨q', hq, -⟩ := h
  exact ⟨q', hq⟩

theorem Join.exists_of_resolveSources {outer : List Scope} {source : Source} :
    ∀ {js js' : List Join}, Join.resolveSources c outer js = .ok js' →
    source ∈ js.map Join.source → ∃ source', source.resolve c outer = .ok source'
  | [], _, _, hmem => by cases hmem
  | ⟨first, _, _⟩ :: js, js', h, hmem => by
    simp only [Join.resolveSources, bind_eq_ok_iff] at h
    obtain ⟨first', hfirst, rest, hrest, -⟩ := h
    rcases List.mem_cons.1 hmem with rfl | hmem
    · exact ⟨first', hfirst⟩
    · exact exists_of_resolveSources hrest hmem

namespace Select.Resolves

variable {outer : List Scope} {s s' : Select} {scope : Scope} {joined : List Join}
  {conditions listed : List Expr}

theorem exists_source (h : Select.Resolves c outer s s' scope joined conditions listed)
    {source : Source} (hmem : source ∈ s.sources) :
    ∃ source', source.resolve c outer = .ok source' := by
  rcases List.mem_append.1 hmem with hmem | hmem
  · have horigin := h.origin
    rw [Option.mem_toList.1 hmem] at horigin
    simp only [Source.resolveOption, bind_eq_ok_iff] at horigin
    obtain ⟨source', hsource, -⟩ := horigin
    exact ⟨source', hsource⟩
  · exact Join.exists_of_resolveSources h.sources hmem

theorem exists_written (h : Select.Resolves c outer s s' scope joined conditions listed) {e : Expr}
    (he : s.Writes e) : ∃ aggregates e', e.resolve c (scope :: outer) aggregates = .ok e' := by
  have houtputs := Expr.resolveOutputs_forall₂ h.outputs
  cases he with
  | output hmem hplain =>
    obtain ⟨e', -, -, hresolve⟩ := exists_mem_of_forall₂ houtputs.flip hmem
    exact ⟨true, e', hresolve hplain⟩
  | filter hfilter =>
    have hresolve := h.filter
    rw [hfilter] at hresolve
    exact ⟨false, Expr.exists_of_resolveFilter hresolve⟩
  | groupBy hmem => exact ⟨false, Expr.exists_of_resolveAll h.groupBy hmem⟩
  | orderBy hmem hown =>
    have hown' := OrderKey.namedOutput?_eq_none (houtputs.imp fun _ _ h => h.1) hown
    exact ⟨true, OrderKey.exists_of_resolveAll hown' h.orderBy hmem⟩

end Select.Resolves

/-- The scope of a resolved SELECT is the one that its clauses were resolved in. -/
theorem Select.HasScope.resolves {outer : List Scope} {s : Select} {scope : Scope}
    (h : s.HasScope c outer scope) : ∃ s' joined conditions listed,
      Select.Resolves c outer s s' scope joined conditions listed := by
  obtain ⟨s', hs, rfl⟩ := h
  obtain ⟨scope, joined, conditions, listed, hresolves⟩ := Select.resolve_eq_ok hs
  obtain rfl := hresolves.scope_eq
  exact ⟨s', joined, conditions, listed, hresolves⟩

theorem Insert.exists_of_resolveRow {t : Table} {e : Expr} : ∀ {positions : List Nat}
    {es es' : List Expr}, es.length = positions.length →
    Insert.resolveRow c t positions es = .ok es' → e ∈ es →
    ∃ e', e.resolve c [[]] false = .ok e'
  | [], [], _, _, _, hmem => by cases hmem
  | i :: positions, d :: es, es', hlen, h, hmem => by
    simp only [Insert.resolveRow, bind_eq_ok_iff] at h
    obtain ⟨d', hd, -, -, rest, hrest, -⟩ := h
    rcases List.mem_cons.1 hmem with rfl | hmem
    · exact ⟨d', hd⟩
    · exact exists_of_resolveRow (Nat.succ.inj hlen) hrest hmem

/-- **All parts of a statement that is accepted are resolved in the scopes that they see.** -/
theorem Statement.Sees.resolves {S S' : Statement} (hS : S.resolve c = .ok S') {part : Part}
    {scopes : List Scope} (h : S.Sees c part scopes) : part.Resolves c scopes := by
  induction h with
  | statement hselect =>
    subst hselect
    simp only [Statement.resolve, bind_eq_ok_iff] at hS
    obtain ⟨s', hs, -⟩ := hS
    exact ⟨s', hs⟩
  | source _ hq ih =>
    obtain ⟨s', hs⟩ := ih
    obtain ⟨_, _, _, _, hresolves⟩ := Select.resolve_eq_ok hs
    obtain ⟨source', hsource⟩ := hresolves.exists_source hq
    exact Source.exists_of_resolve hsource
  | condition _ hscope hj he _ =>
    obtain ⟨_, _, _, _, hresolves⟩ := hscope.resolves
    exact ⟨false, Join.exists_of_resolveConditions he hresolves.conditions hj⟩
  | clause _ hscope he _ =>
    obtain ⟨_, _, _, _, hresolves⟩ := hscope.resolves
    exact hresolves.exists_written he
  | argument _ hf harg ih =>
    obtain ⟨aggregates, e', he⟩ := ih
    obtain ⟨n', hn⟩ := Expr.exists_of_resolve he hf
    simp only [Node.resolve, bind_eq_ok_iff] at hn
    obtain ⟨f', hf', -⟩ := hn
    exact Call.exists_of_resolve hf' harg
  | value _ hq ih =>
    obtain ⟨aggregates, e', he⟩ := ih
    obtain ⟨n', hn⟩ := Expr.exists_of_resolve he hq
    simp only [Node.resolve, bind_eq_ok_iff] at hn
    obtain ⟨q', hq', -⟩ := hn
    exact ⟨q', hq'⟩
  | inserted hinsert hrow he =>
    subst hinsert
    simp only [Statement.resolve, bind_eq_ok_iff] at hS
    obtain ⟨s', hs, -⟩ := hS
    obtain ⟨_, t, -, -, -, hrows⟩ := Insert.resolve_eq_ok hs
    obtain ⟨row', -, hlen, hresolve⟩ := exists_mem_of_forall₂ hrows.flip hrow
    exact ⟨false, Insert.exists_of_resolveRow hlen hresolve he⟩
  | updated hupdate ht he =>
    subst hupdate
    simp only [Statement.resolve, bind_eq_ok_iff] at hS
    obtain ⟨s', hs, -⟩ := hS
    obtain ⟨_, t', ht', -, hassignments, hfilter⟩ := Update.resolve_eq_ok hs
    obtain ⟨-, rfl⟩ := Prod.mk.inj (Option.some.inj (ht.symm.trans ht'))
    rcases List.mem_append.1 he with he | he
    · obtain ⟨a, ha, rfl⟩ := List.mem_map.1 he
      obtain ⟨a', -, hassignment⟩ := exists_mem_of_forall₂ hassignments.flip ha
      exact ⟨false, a'.value, (Assignment.resolve_eq_ok hassignment).2.1⟩
    · rw [Option.mem_toList.1 he] at hfilter
      exact ⟨false, Expr.exists_of_resolveFilter hfilter⟩
  | deleted hdelete ht he =>
    subst hdelete
    simp only [Statement.resolve, bind_eq_ok_iff] at hS
    obtain ⟨s', hs, -⟩ := hS
    obtain ⟨_, t', ht', -, hfilter⟩ := Delete.resolve_eq_ok hs
    obtain ⟨-, rfl⟩ := Prod.mk.inj (Option.some.inj (ht.symm.trans ht'))
    rw [he] at hfilter
    exact ⟨false, Expr.exists_of_resolveFilter hfilter⟩

/-- What a reference that is written in an accepted statement becomes. -/
theorem Statement.Sees.column {S S' : Statement} (hS : S.resolve c = .ok S') {e : Expr}
    {scopes : List Scope} (h : S.Sees c (.expr e) scopes) (hr : .column r ∈ e.nodes) :
    ∃ aggregates n, r.resolve c scopes aggregates = .ok n ∧
      ((∃ bound, n = .column bound ∧ r.BindsFirst scopes bound) ∨
        (∃ f, n = .call f) ∧ ∀ scope ∈ scopes, scope.Lacks r) := by
  obtain ⟨aggregates, e', he⟩ := h.resolves hS
  obtain ⟨n, hn⟩ := Expr.exists_of_resolve he hr
  exact ⟨aggregates, n, hn, ColumnRef.resolve_cases hn⟩

end SqlEngine
