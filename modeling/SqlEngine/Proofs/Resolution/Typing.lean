import SqlEngine.Proofs.Result
import SqlEngine.Proofs.Statement.Formed
import SqlEngine.Resolution.Statement

/-!
# Resolution — resolved statements are typed

A resolved expression is *typed* when its columns are bound to columns of their types, its calls
have overloads that take their arguments, and the type of its formula is the one that it carries;
for a SELECT this is asked of all its clauses, each under the scopes that it sees
(`Select.Typed`).

* `Select.resolve_typed`: what resolving a SELECT gives is typed.
* `Expr.resolve_typed`: what resolving an expression gives is typed.
-/

namespace SqlEngine

/-- The types of the columns of each source. -/
def Scope.types (scope : Scope) : List (List DataType) :=
  scope.map fun s => s.columns.map Column.type

/-- The types of the columns of a source. -/
def Source.types (c : Catalog) (s : Source) : List DataType :=
  (s.scopeSource c).columns.map Column.type

/-! ### Typed expressions -/

/-- The column is bound to one of its type, in the scope at its level. -/
def ColumnRef.Typed (scopes : List (List (List DataType))) (r : ColumnRef) : Prop :=
  ∃ b scope types, r.binding = some b ∧ scopes[r.level]? = some scope ∧
    scope[b.source]? = some types ∧ types[b.column]? = some r.type

mutual

/-- The nodes are typed, and the expression carries the type of its formula. -/
def Expr.Typed (c : Catalog) (scopes : List (List (List DataType))) : Expr → Prop
  | ⟨nodes, type, _, _, _, _, _⟩ =>
    Node.TypedAll c scopes nodes ∧ Formula.typeOf (nodes.map Node.typed) = .ok type

def Node.Typed (c : Catalog) (scopes : List (List (List DataType))) : Node → Prop
  | .column r => r.Typed scopes
  | .call f   => f.Typed c scopes
  | .select s => s.Typed c scopes ∧ s.output.length = 1
  | _         => True

def Node.TypedAll (c : Catalog) (scopes : List (List (List DataType))) : List Node → Prop
  | []      => True
  | n :: ns => n.Typed c scopes ∧ Node.TypedAll c scopes ns

/-- The call has an overload of its type, which takes the arguments. -/
def Call.Typed (c : Catalog) (scopes : List (List (List DataType))) : Call → Prop
  | ⟨_, arguments, target, type, isAggregate, _⟩ =>
    Expr.TypedAll c scopes arguments ∧ ∃ o v, target = some o ∧ c.variant? o = some v ∧
      v.acceptsLoosely (arguments.map Expr.type) = true ∧ v.result = type ∧
      v.isAggregate = isAggregate

def Expr.TypedAll (c : Catalog) (scopes : List (List (List DataType))) : List Expr → Prop
  | []      => True
  | e :: es => e.Typed c scopes ∧ Expr.TypedAll c scopes es

def Expr.TypedOption (c : Catalog) (scopes : List (List (List DataType))) : Option Expr → Prop
  | none   => True
  | some e => e.Typed c scopes

def Source.Typed (c : Catalog) (scopes : List (List (List DataType))) : Source → Prop
  | .table _ _ id _ => ∃ i t, id = some i ∧ c.tables[i]? = some t
  | .select s _ _   => s.Typed c scopes

def Source.TypedOption (c : Catalog) (scopes : List (List (List DataType))) : Option Source → Prop
  | none   => True
  | some s => s.Typed c scopes

/-- Each condition sees the given number of sources, and the next one more. -/
def Join.TypedAll (c : Catalog) (scope : List (List DataType))
    (outer : List (List (List DataType))) (visible : Nat) : List Join → Prop
  | []                          => True
  | ⟨source, _, condition⟩ :: js =>
    source.Typed c outer ∧ Expr.TypedOption c (scope.take visible :: outer) condition ∧
      Join.TypedAll c scope outer (visible + 1) js

def OrderKey.TypedAll (c : Catalog) (scopes : List (List (List DataType))) : List OrderKey → Prop
  | []           => True
  | ⟨e, _⟩ :: ks => e.Typed c scopes ∧ OrderKey.TypedAll c scopes ks

def Select.Typed (c : Catalog) (outer : List (List (List DataType))) : Select → Prop
  | ⟨_, _, output, origin, joins, filter, groupBy, orderBy, _, _⟩ =>
    let scope := (origin.toList ++ joins.map Join.source).map (Source.types c)
    Source.TypedOption c outer origin ∧ Join.TypedAll c scope outer 2 joins ∧
      (origin = none → joins = []) ∧ Expr.TypedAll c (scope :: outer) output ∧
      Expr.TypedOption c (scope :: outer) filter ∧ Expr.TypedAll c (scope :: outer) groupBy ∧
      OrderKey.TypedAll c (scope :: outer) orderBy

end

variable {c : Catalog} {types : List (List (List DataType))}

theorem Expr.typedAll_iff {es : List Expr} :
    Expr.TypedAll c types es ↔ ∀ e ∈ es, e.Typed c types := by
  induction es with
  | nil => exact ⟨nofun, fun _ => trivial⟩
  | cons e es ih => rw [Expr.TypedAll, ih, List.forall_mem_cons]

/-- The alias of an expression has no part in its typing. -/
theorem Expr.Typed.withAlias {e : Expr} (h : e.Typed c types) (a : Option String) :
    Expr.Typed c types { e with aliasName := a } := by
  obtain ⟨nodes, type, isBoolean, hasAggregate, source, aliasName, offset⟩ := e
  exact h

/-! ### Names -/

variable {scopes : List Scope}

theorem Scope.types_getElem? {scope : Scope} {source : ScopeSource} {i : Nat}
    (h : scope[i]? = some source) : scope.types[i]? = some (source.columns.map Column.type) := by
  rw [Scope.types, List.getElem?_map, h]
  rfl

/-- A column of a scope is typed under all scopes in which this one has the given level. -/
theorem ColumnRef.typed_of_getElem? {scope : Scope} {source : ScopeSource} {column : Column}
    {i j : Nat} {r : ColumnRef} (hscope : scopes[r.level]? = some scope)
    (hsource : scope[i]? = some source) (hcolumn : source.columns[j]? = some column)
    (hbinding : r.binding = some ⟨i, j⟩) (htype : r.type = column.type) :
    r.Typed (scopes.map Scope.types) := by
  refine ⟨⟨i, j⟩, scope.types, source.columns.map Column.type, hbinding, ?_,
    Scope.types_getElem? hsource, ?_⟩
  · rw [List.getElem?_map, hscope]
    rfl
  · rw [List.getElem?_map, hcolumn, htype]
    rfl

/-- A reference that is bound has the place and the type of a column of its name. -/
theorem Scope.bind?_cases {scope : Scope} {r bound : ColumnRef}
    (h : scope.bind? r = .ok (some bound)) :
    ∃ sources i j source column, scope.candidates r = .ok sources ∧ i ∈ sources ∧
      scope[i]? = some source ∧ source.columns.index? r.column = some j ∧
      source.columns[j]? = some column ∧
      bound = { r.qualify source.name with type := column.type, binding := some ⟨i, j⟩ } := by
  simp only [Scope.bind?, bind_eq_ok_iff] at h
  obtain ⟨sources, hsources, h⟩ := h
  split at h
  · cases h
  next found heq =>
    obtain rfl := Option.some.inj (Except.ok.inj h)
    have hmem : found ∈ sources.filterMap (scope.bindAt? r) := by
      rw [heq]
      exact List.mem_singleton_self _
    obtain ⟨i, hi, hfound⟩ := List.mem_filterMap.1 hmem
    simp only [Scope.bindAt?, Option.bind_eq_bind, Option.bind_eq_some_iff] at hfound
    obtain ⟨source, hsource, j, hj, column, hcolumn, hfound⟩ := hfound
    exact ⟨sources, i, j, source, column, hsources, hi, hsource, hj, hcolumn,
      (Option.some.inj hfound).symm⟩
  · cases h

theorem Scope.bind?_eq_ok {scope : Scope} {r bound : ColumnRef}
    (h : scope.bind? r = .ok (some bound)) :
    ∃ i j source column, scope[i]? = some source ∧ source.columns[j]? = some column ∧
      bound.binding = some ⟨i, j⟩ ∧ bound.type = column.type := by
  obtain ⟨_, i, j, source, column, -, -, hsource, -, hcolumn, rfl⟩ := Scope.bind?_cases h
  exact ⟨i, j, source, column, hsource, hcolumn, rfl, rfl⟩

/-- A reference is bound in one of the scopes, and in none before it. -/
theorem Scope.bindIn?_cases {r bound : ColumnRef} : ∀ {scopes : List Scope} {level : Nat},
    Scope.bindIn? r level scopes = .ok (some bound) →
    ∃ inner scope outer found, scopes = inner ++ scope :: outer ∧
      (∀ s ∈ inner, Scope.bind? s r = .ok none) ∧ Scope.bind? scope r = .ok (some found) ∧
      bound = { found with level := level + inner.length }
  | [], level, h => by cases h
  | scope :: outer, level, h => by
    simp only [Scope.bindIn?, bind_eq_ok_iff] at h
    obtain ⟨found, hfound, h⟩ := h
    cases found with
    | none =>
      obtain ⟨inner, scope', outer', found, rfl, hinner, hfound', rfl⟩ := bindIn?_cases h
      refine ⟨scope :: inner, scope', outer', found, rfl, ?_, hfound', ?_⟩
      · exact List.forall_mem_cons.2 ⟨hfound, hinner⟩
      · rw [List.length_cons, Nat.add_assoc, Nat.add_comm 1]
    | some found =>
      obtain rfl := Option.some.inj (Except.ok.inj h)
      exact ⟨[], scope, outer, found, rfl, List.forall_mem_nil _, hfound, rfl⟩

theorem Scope.bindIn?_typed {r bound : ColumnRef} {scopes : List Scope}
    (h : Scope.bindIn? r 0 scopes = .ok (some bound)) : bound.Typed (scopes.map Scope.types) := by
  obtain ⟨inner, scope, outer, found, rfl, -, hfound, rfl⟩ := Scope.bindIn?_cases h
  obtain ⟨i, j, source, column, hsource, hcolumn, hbinding, htype⟩ := Scope.bind?_eq_ok hfound
  exact ColumnRef.typed_of_getElem? (by simp) hsource hcolumn hbinding htype

/-! ### Tables and calls -/

theorem Catalog.getElem?_of_findFunction? {name : String} {id : Nat} {f : Function}
    (h : c.findFunction? name = some (id, f)) : c.functions[id]? = some f := by
  obtain ⟨⟨f', id'⟩, hfind, heq⟩ := Option.map_eq_some_iff.1 h
  obtain ⟨rfl, rfl⟩ := Prod.mk.inj heq
  have hmem := List.mem_reverse.1 (List.mem_of_find?_eq_some hfind)
  exact List.mem_zipIdx_iff_getElem?.1 hmem

theorem Catalog.getElem?_of_findTable? {name : String} {id : Nat} {t : Table}
    (h : c.findTable? name = some (id, t)) : c.tables[id]? = some t := by
  obtain ⟨⟨t', id'⟩, hfind, heq⟩ := Option.map_eq_some_iff.1 h
  obtain ⟨rfl, rfl⟩ := Prod.mk.inj heq
  exact List.mem_zipIdx_iff_getElem?.1 (List.mem_of_find?_eq_some hfind)

theorem Variant.acceptsLoosely_of_accepts {v : Variant} {types : List DataType}
    (h : v.accepts types = true) : v.acceptsLoosely types = true := by
  obtain rfl : v.arguments = types := beq_iff_eq.1 h
  simp only [Variant.acceptsLoosely, BEq.rfl, Bool.true_and, List.all_eq_true]
  rintro ⟨s, t⟩ hst
  obtain rfl : s = t := by
    obtain ⟨i, hi⟩ := List.mem_iff_getElem?.1 hst
    obtain ⟨hs, ht⟩ := List.getElem?_zip_eq_some.1 hi
    exact Option.some.inj (hs.symm.trans ht)
  simp [DataType.compatible]

/-- The overload that is chosen takes arguments of the given types. -/
theorem Function.acceptsLoosely_of_variantFor? {f : Function} {types : List DataType} {i : Nat}
    (h : f.variantFor? types = some i) {v : Variant} (hv : f.variants[i]? = some v) :
    v.acceptsLoosely types = true := by
  obtain ⟨hi, hvi⟩ := List.getElem?_eq_some_iff.1 hv
  simp only [Function.variantFor?] at h
  split at h
  · obtain ⟨hi', haccepts, -⟩ := List.findIdx?_eq_some_iff_getElem.1 h
    exact hvi ▸ haccepts
  · obtain ⟨hi', haccepts, -⟩ := List.findIdx?_eq_some_iff_getElem.1 h
    exact Variant.acceptsLoosely_of_accepts (hvi ▸ haccepts)

theorem Call.choose_typed {id : Nat} {f : Function} {aggregates : Bool} {call call' : Call}
    (hf : c.functions[id]? = some f) (h : Call.choose id f aggregates call = .ok call')
    (hargs : Expr.TypedAll c types call.arguments) : call'.Typed c types := by
  simp only [Call.choose] at h
  split at h
  · cases h
  next i hi =>
    split at h
    · cases h
    next v hv =>
      split at h
      · cases h
      · obtain rfl := Except.ok.inj h
        refine ⟨hargs, ⟨id, i⟩, v, rfl, ?_, Function.acceptsLoosely_of_variantFor? hi hv, rfl, rfl⟩
        simp only [Catalog.variant?, hf, Option.bind_some, hv]

theorem ColumnRef.resolve_typed {aggregates : Bool} {r : ColumnRef} {n : Node}
    (h : r.resolve c scopes aggregates = .ok n) : n.Typed c (scopes.map Scope.types) := by
  simp only [ColumnRef.resolve] at h
  split at h
  · cases h
  simp only [bind_eq_ok_iff] at h
  obtain ⟨found, hfound, h⟩ := h
  cases found with
  | some bound =>
    obtain rfl := Except.ok.inj h
    exact Scope.bindIn?_typed hfound
  | none =>
    obtain ⟨call, hcall, rfl⟩ := map_eq_ok_iff.1 h
    simp only [ColumnRef.asCall] at hcall
    split at hcall
    · cases hcall
    split at hcall
    · cases hcall
    next id f hfind =>
      split at hcall
      · exact Call.choose_typed (Catalog.getElem?_of_findFunction? hfind) hcall trivial
      · cases hcall

/-! ### Outputs -/

/-- An output that is resolved, or a wildcard without alias that is expanded later. -/
def Expr.TypedOutput (c : Catalog) (types : List (List (List DataType))) (e : Expr) : Prop :=
  e.isWildcard = true ∧ e.aliasName = none ∨ e.Typed c types

/-- A column in the place of a wildcard is a column of a source of the statement itself. -/
theorem Scope.mem_expand {scope : Scope} {r : ColumnRef} {columns : List Expr}
    (h : scope.expand r = .ok columns) {e : Expr} (he : e ∈ columns) :
    ∃ i j source column, scope[i]? = some source ∧ source.columns[j]? = some column ∧
      e = .ofColumn
        { qualifier := some source.name, column := column.name, type := column.type,
          binding := some ⟨i, j⟩, offset := r.offset } := by
  simp only [Scope.expand, bind_eq_ok_iff] at h
  obtain ⟨sources, -, h⟩ := h
  split at h
  · cases h
  obtain rfl := Except.ok.inj h
  obtain ⟨i, -, hi⟩ := List.mem_flatMap.1 he
  cases hsource : scope[i]? with
  | none => simp [hsource] at hi
  | some source =>
    simp only [hsource, Option.map_some, Option.getD_some] at hi
    obtain ⟨⟨column, j⟩, hcolumn, rfl⟩ := List.mem_map.1 hi
    exact ⟨i, j, source, column, hsource, List.mem_zipIdx_iff_getElem?.1 hcolumn, rfl⟩

/-- A column that stands in the place of a wildcard is typed. -/
theorem Scope.expand_typed {scope : Scope} {outer : List Scope} {r : ColumnRef}
    {columns : List Expr} (h : scope.expand r = .ok columns) :
    ∀ e ∈ columns, e.Typed c ((scope :: outer).map Scope.types) := by
  intro e he
  obtain ⟨i, j, source, column, hsource, hcolumn, rfl⟩ := Scope.mem_expand h he
  exact ⟨⟨ColumnRef.typed_of_getElem? (by rfl) hsource hcolumn rfl rfl, trivial⟩, rfl⟩

/-- An output stays as it is, or is a wildcard with columns in its place. -/
theorem Scope.expandAll_cons {scope : Scope} {e : Expr} {es es' : List Expr}
    (h : scope.expandAll (e :: es) = .ok es') :
    ∃ columns rest, scope.expandAll es = .ok rest ∧ es' = columns ++ rest ∧
      (e.isWildcard = false ∧ columns = [e] ∨
        e.isWildcard = true ∧ ∃ r, scope.expand r = .ok columns) := by
  have halone (hplain : e.isWildcard = false)
      (h : (do
        let columns ← Except.ok [e]
        Except.ok (columns ++ (← scope.expandAll es))) = .ok es') :
      ∃ columns rest, scope.expandAll es = .ok rest ∧ es' = columns ++ rest ∧
        (e.isWildcard = false ∧ columns = [e] ∨
          e.isWildcard = true ∧ ∃ r, scope.expand r = .ok columns) := by
    simp only [ok_bind, bind_eq_ok_iff] at h
    obtain ⟨rest, hrest, h⟩ := h
    exact ⟨[e], rest, hrest, (Except.ok.inj h).symm, .inl ⟨hplain, rfl⟩⟩
  simp only [Scope.expandAll] at h
  split at h
  next r hr =>
    split at h
    next hwildcard =>
      simp only [bind_eq_ok_iff] at h
      obtain ⟨columns, hcolumns, rest, hrest, h⟩ := h
      exact ⟨columns, rest, hrest, (Except.ok.inj h).symm,
        .inr ⟨by simpa [Expr.isWildcard, hr] using hwildcard, r, hcolumns⟩⟩
    next hplain => exact halone (by simpa [Expr.isWildcard, hr] using hplain) h
  next hr => exact halone (by simp [Expr.isWildcard, hr]) h

theorem Scope.expandAll_typed {scope : Scope} {outer : List Scope} :
    ∀ {es es' : List Expr}, (∀ e ∈ es, e.TypedOutput c ((scope :: outer).map Scope.types)) →
    scope.expandAll es = .ok es' → ∀ e ∈ es', e.Typed c ((scope :: outer).map Scope.types)
  | [], es', _, h => by
    obtain rfl := Except.ok.inj h
    nofun
  | e :: es, es', htyped, h => by
    obtain ⟨he, hes⟩ := List.forall_mem_cons.1 htyped
    obtain ⟨columns, rest, hrest, rfl, hcolumns⟩ := Scope.expandAll_cons h
    refine List.forall_mem_append.2 ⟨?_, Scope.expandAll_typed hes hrest⟩
    rcases hcolumns with ⟨hplain, rfl⟩ | ⟨-, r, hexpand⟩
    · rcases he with ⟨hwildcard, -⟩ | he
      · rw [hplain] at hwildcard
        cases hwildcard
      · exact fun e' he' => List.mem_singleton.1 he' ▸ he
    · exact Scope.expand_typed hexpand

/-- A sort key that names an output is a lone column without a qualifier, and stands for the
output of that alias, without the alias. -/
theorem OrderKey.namedOutput?_cases {output : List Expr} {key e : Expr}
    (h : OrderKey.namedOutput? output key = some e) :
    ∃ r, key.column? = some r ∧ r.qualifier = none ∧ ∃ found ∈ output,
      found.aliasName.any (Text.sameName · r.column) = true ∧
      e = { found with aliasName := none } := by
  simp only [OrderKey.namedOutput?, Option.bind_eq_bind, Option.bind_eq_some_iff] at h
  obtain ⟨r, hr, h⟩ := h
  split at h
  next => cases h
  next hnone =>
    obtain ⟨found, hfound, h⟩ := Option.bind_eq_some_iff.1 h
    have halias := List.find?_some hfound
    exact ⟨r, hr, by simpa using hnone, found, List.mem_of_find?_eq_some hfound, halias,
      (Option.some.inj h).symm⟩

/-- A sort key that names an output by its alias is a copy of a typed output. -/
theorem OrderKey.namedOutput?_typed {output : List Expr} {key e : Expr}
    (houtput : ∀ e ∈ output, e.TypedOutput c types)
    (h : OrderKey.namedOutput? output key = some e) : e.Typed c types := by
  obtain ⟨r, -, -, found, hfound, halias, rfl⟩ := OrderKey.namedOutput?_cases h
  rcases houtput found hfound with ⟨-, hnone⟩ | htyped
  · rw [hnone] at halias
    cases halias
  · exact htyped.withAlias none

/-! ### Resolving -/

/-- The parts of a resolved SELECT, each with the step that gave it. -/
structure Select.Resolves (c : Catalog) (outer : List Scope) (s s' : Select) (scope : Scope)
    (joined : List Join) (conditions listed : List Expr) : Prop where
  sources_eq : scope = (s'.origin.toList ++ joined.map Join.source).map (Source.scopeSource c)
  joins : s'.joins = joined.zipWith (fun j e => { j with condition := some e }) conditions
  origin : Source.resolveOption c outer s.origin = .ok s'.origin
  sources : Join.resolveSources c outer s.joins = .ok joined
  conditions : Join.resolveConditions c scope outer 2 s.joins = .ok conditions
  outputs : Expr.resolveOutputs c (scope :: outer) s.output = .ok listed
  filter : Expr.resolveFilter c (scope :: outer) s.filter = .ok s'.filter
  groupBy : Expr.resolveAll c (scope :: outer) false s.groupBy = .ok s'.groupBy
  orderBy : OrderKey.resolveAll c (scope :: outer) listed s.orderBy = .ok s'.orderBy
  output : scope.expandAll listed = .ok s'.output

theorem Select.resolve_eq_ok {s s' : Select} {outer : List Scope}
    (h : s.resolve c outer = .ok s') :
    ∃ scope joined conditions listed,
      Select.Resolves c outer s s' scope joined conditions listed := by
  obtain ⟨text, distinct, output, origin, joins, filter, groupBy, orderBy, limit, offset⟩ := s
  simp only [Select.resolve, bind_eq_ok_iff] at h
  obtain ⟨origin', horigin, joined, hsources, h⟩ := h
  split at h
  · cases h
  simp only [bind_eq_ok_iff] at h
  obtain ⟨conditions, hconditions, outputs, houtputs, filter', hfilter, groupBy', hgroup, orderBy',
    horder, h⟩ := h
  split at h
  · cases h
  simp only [bind_eq_ok_iff] at h
  obtain ⟨output', houtput, h⟩ := h
  obtain rfl := Except.ok.inj h
  exact ⟨_, joined, conditions, outputs, rfl, rfl, horigin, hsources, hconditions, houtputs,
    hfilter, hgroup, horder, houtput⟩

theorem Join.source_zipWith {js : List Join} {es : List Expr} (h : js.length = es.length) :
    (js.zipWith (fun j e => { j with condition := some e }) es).map Join.source =
      js.map Join.source := by
  induction js generalizing es with
  | nil => rfl
  | cons j js ih =>
    cases es with
    | nil => cases h
    | cons e es => exact congrArg (j.source :: ·) (ih (Nat.succ.inj h))

theorem Join.length_resolveSources : ∀ {js js' : List Join},
    Join.resolveSources c scopes js = .ok js' → js'.length = js.length
  | [], js', h => by
    obtain rfl := Except.ok.inj h
    rfl
  | ⟨source, kind, condition⟩ :: js, js', h => by
    simp only [Join.resolveSources, bind_eq_ok_iff] at h
    obtain ⟨_, -, _, hrest, h⟩ := h
    obtain rfl := Except.ok.inj h
    simp [length_resolveSources hrest]

theorem Join.length_resolveConditions {scope : Scope} {outer : List Scope} :
    ∀ {js : List Join} {visible : Nat} {es : List Expr},
    Join.resolveConditions c scope outer visible js = .ok es → es.length = js.length
  | [], visible, es, h => by
    obtain rfl := Except.ok.inj h
    rfl
  | ⟨source, kind, none⟩ :: js, visible, es, h => by cases h
  | ⟨source, kind, some condition⟩ :: js, visible, es, h => by
    simp only [Join.resolveConditions, bind_eq_ok_iff] at h
    obtain ⟨_, -, _, -, _, hrest, h⟩ := h
    obtain rfl := Except.ok.inj h
    simp [length_resolveConditions hrest]

mutual

theorem Expr.resolve_typed : ∀ {e e' : Expr} {scopes : List Scope} {aggregates : Bool}, e.Formed →
    e.resolve c scopes aggregates = .ok e' → e'.Typed c (scopes.map Scope.types)
  | ⟨nodes, _, _, _, _, _, _⟩, e', scopes, aggregates, hformed, h => by
    simp only [Expr.resolve, bind_eq_ok_iff] at h
    obtain ⟨nodes', hnodes, type, htype, h⟩ := h
    obtain rfl := Except.ok.inj h
    exact ⟨Node.resolveAll_typed hformed hnodes, htype⟩

theorem Node.resolve_typed : ∀ {n n' : Node} {scopes : List Scope} {aggregates : Bool}, n.Formed →
    n.resolve c scopes aggregates = .ok n' → n'.Typed c (scopes.map Scope.types)
  | .column r, n', scopes, aggregates, _, h => ColumnRef.resolve_typed h
  | .call f, n', scopes, aggregates, hformed, h => by
    simp only [Node.resolve, bind_eq_ok_iff] at h
    obtain ⟨f', hf, h⟩ := h
    obtain rfl := Except.ok.inj h
    exact Call.resolve_typed hformed hf
  | .select s, n', scopes, aggregates, hformed, h => by
    simp only [Node.resolve, bind_eq_ok_iff] at h
    obtain ⟨s', hs, u, hwidth, h⟩ := h
    obtain rfl := Except.ok.inj h
    refine ⟨Select.resolve_typed hformed hs, ?_⟩
    simp only [Select.requireOneColumn] at hwidth
    split at hwidth
    next hlen => exact beq_iff_eq.1 hlen
    next => cases hwidth
  | .operator _, n', scopes, aggregates, _, h | .openParen, n', scopes, aggregates, _, h
  | .closeParen, n', scopes, aggregates, _, h | .number _, n', scopes, aggregates, _, h
  | .text _, n', scopes, aggregates, _, h | .boolean _, n', scopes, aggregates, _, h
  | .null, n', scopes, aggregates, _, h => by
    obtain rfl := Except.ok.inj h
    trivial

theorem Node.resolveAll_typed : ∀ {ns ns' : List Node} {scopes : List Scope} {aggregates : Bool},
    Node.FormedAll ns → Node.resolveAll c scopes aggregates ns = .ok ns' →
    Node.TypedAll c (scopes.map Scope.types) ns'
  | [], ns', scopes, aggregates, _, h => by
    obtain rfl := Except.ok.inj h
    trivial
  | n :: ns, ns', scopes, aggregates, hformed, h => by
    simp only [Node.resolveAll, bind_eq_ok_iff] at h
    obtain ⟨n', hn, rest, hrest, h⟩ := h
    obtain rfl := Except.ok.inj h
    exact ⟨Node.resolve_typed hformed.1 hn, Node.resolveAll_typed hformed.2 hrest⟩

theorem Call.resolve_typed : ∀ {f f' : Call} {scopes : List Scope} {aggregates : Bool}, f.Formed →
    f.resolve c scopes aggregates = .ok f' → f'.Typed c (scopes.map Scope.types)
  | ⟨function, arguments, _, _, _, _⟩, f', scopes, aggregates, hformed, h => by
    simp only [Call.resolve] at h
    split at h
    · cases h
    next id f hfind =>
      simp only [bind_eq_ok_iff] at h
      obtain ⟨arguments', hargs, h⟩ := h
      exact Call.choose_typed (Catalog.getElem?_of_findFunction? hfind) h
        (Expr.resolveAll_typed hformed hargs)

theorem Expr.resolveAll_typed : ∀ {es es' : List Expr} {scopes : List Scope} {aggregates : Bool},
    Expr.FormedAll es → Expr.resolveAll c scopes aggregates es = .ok es' →
    Expr.TypedAll c (scopes.map Scope.types) es'
  | [], es', scopes, aggregates, _, h => by
    obtain rfl := Except.ok.inj h
    trivial
  | e :: es, es', scopes, aggregates, hformed, h => by
    simp only [Expr.resolveAll, bind_eq_ok_iff] at h
    obtain ⟨e', he, rest, hrest, h⟩ := h
    obtain rfl := Except.ok.inj h
    exact ⟨Expr.resolve_typed hformed.1 he, Expr.resolveAll_typed hformed.2 hrest⟩

theorem Expr.resolveOutputs_typed : ∀ {es es' : List Expr} {scopes : List Scope},
    Expr.FormedAll es → (∀ e ∈ es, e.isWildcard = true → e.aliasName = none) →
    Expr.resolveOutputs c scopes es = .ok es' →
    ∀ e ∈ es', e.TypedOutput c (scopes.map Scope.types)
  | [], es', scopes, _, _, h => by
    obtain rfl := Except.ok.inj h
    nofun
  | e :: es, es', scopes, hformed, halias, h => by
    obtain ⟨hnone, halias⟩ := List.forall_mem_cons.1 halias
    simp only [Expr.resolveOutputs] at h
    split at h
    next hwildcard =>
      simp only [ok_bind, bind_eq_ok_iff] at h
      obtain ⟨rest, hrest, h⟩ := h
      obtain rfl := Except.ok.inj h
      exact List.forall_mem_cons.2 ⟨.inl ⟨hwildcard, hnone hwildcard⟩,
        Expr.resolveOutputs_typed hformed.2 halias hrest⟩
    next =>
      simp only [bind_eq_ok_iff] at h
      obtain ⟨e', he, rest, hrest, h⟩ := h
      obtain rfl := Except.ok.inj h
      exact List.forall_mem_cons.2 ⟨.inr (Expr.resolve_typed hformed.1 he),
        Expr.resolveOutputs_typed hformed.2 halias hrest⟩

theorem Expr.resolveFilter_typed : ∀ {filter filter' : Option Expr} {scopes : List Scope},
    Expr.FormedOption filter → Expr.resolveFilter c scopes filter = .ok filter' →
    Expr.TypedOption c (scopes.map Scope.types) filter'
  | none, filter', scopes, _, h => by
    obtain rfl := Except.ok.inj h
    trivial
  | some e, filter', scopes, hformed, h => by
    simp only [Expr.resolveFilter, bind_eq_ok_iff] at h
    obtain ⟨e', he, -, -, h⟩ := h
    obtain rfl := Except.ok.inj h
    exact Expr.resolve_typed hformed he

theorem Source.resolve_typed : ∀ {s s' : Source} {scopes : List Scope}, s.Formed →
    s.resolve c scopes = .ok s' → s'.Typed c (scopes.map Scope.types)
  | .table name aliasName id offset, s', scopes, _, h => by
    simp only [Source.resolve] at h
    split at h
    next i t hfind =>
      obtain rfl := Except.ok.inj h
      exact ⟨i, t, rfl, Catalog.getElem?_of_findTable? hfind⟩
    next => cases h
  | .select s aliasName offset, s', scopes, hformed, h => by
    simp only [Source.resolve, bind_eq_ok_iff] at h
    obtain ⟨q, hq, h⟩ := h
    obtain rfl := Except.ok.inj h
    exact Select.resolve_typed hformed hq

theorem Source.resolveOption_typed : ∀ {s s' : Option Source} {scopes : List Scope},
    Source.FormedOption s → Source.resolveOption c scopes s = .ok s' →
    Source.TypedOption c (scopes.map Scope.types) s' ∧ (s' = none → s = none)
  | none, s', scopes, _, h => by
    obtain rfl := Except.ok.inj h
    exact ⟨trivial, fun _ => rfl⟩
  | some s, s', scopes, hformed, h => by
    simp only [Source.resolveOption, bind_eq_ok_iff] at h
    obtain ⟨q, hq, h⟩ := h
    obtain rfl := Except.ok.inj h
    exact ⟨Source.resolve_typed hformed hq, nofun⟩

theorem Join.resolve_typed : ∀ {js joined : List Join} {scope : Scope} {outer : List Scope}
    {visible : Nat} {es : List Expr}, Join.FormedAll js →
    Join.resolveSources c outer js = .ok joined →
    Join.resolveConditions c scope outer visible js = .ok es →
    Join.TypedAll c scope.types (outer.map Scope.types) visible
      (joined.zipWith (fun j e => { j with condition := some e }) es)
  | [], joined, scope, outer, visible, es, _, h, _ => by
    obtain rfl := Except.ok.inj h
    trivial
  | ⟨source, kind, none⟩ :: js, joined, scope, outer, visible, es, _, _, h => by cases h
  | ⟨source, kind, some condition⟩ :: js, joined, scope, outer, visible, es, hformed, h, hes => by
    simp only [Join.resolveSources, bind_eq_ok_iff] at h
    obtain ⟨source', hsource, rest, hrest, h⟩ := h
    obtain rfl := Except.ok.inj h
    simp only [Join.resolveConditions, bind_eq_ok_iff] at hes
    obtain ⟨e, he, -, -, more, hmore, hes⟩ := hes
    obtain rfl := Except.ok.inj hes
    have htyped := Expr.resolve_typed hformed.2.1 he
    rw [List.map_cons, Scope.types, List.map_take] at htyped
    exact ⟨Source.resolve_typed hformed.1 hsource, htyped,
      Join.resolve_typed hformed.2.2 hrest hmore⟩

theorem OrderKey.resolveAll_typed : ∀ {ks ks' : List OrderKey} {scopes : List Scope}
    {output : List Expr}, OrderKey.FormedAll ks →
    (∀ e ∈ output, e.TypedOutput c (scopes.map Scope.types)) →
    OrderKey.resolveAll c scopes output ks = .ok ks' →
    OrderKey.TypedAll c (scopes.map Scope.types) ks'
  | [], ks', scopes, output, _, _, h => by
    obtain rfl := Except.ok.inj h
    trivial
  | ⟨e, ascending⟩ :: ks, ks', scopes, output, hformed, houtput, h => by
    simp only [OrderKey.resolveAll] at h
    split at h
    next named hnamed =>
      simp only [ok_bind, bind_eq_ok_iff] at h
      obtain ⟨rest, hrest, h⟩ := h
      obtain rfl := Except.ok.inj h
      exact ⟨OrderKey.namedOutput?_typed houtput hnamed,
        OrderKey.resolveAll_typed hformed.2 houtput hrest⟩
    next =>
      simp only [bind_eq_ok_iff] at h
      obtain ⟨e', he, rest, hrest, h⟩ := h
      obtain rfl := Except.ok.inj h
      exact ⟨Expr.resolve_typed hformed.1 he,
        OrderKey.resolveAll_typed hformed.2 houtput hrest⟩

/-- **What resolving a SELECT gives is typed.** -/
theorem Select.resolve_typed : ∀ {s s' : Select} {outer : List Scope}, s.Formed →
    s.resolve c outer = .ok s' → s'.Typed c (outer.map Scope.types)
  | ⟨text, distinct, output, origin, joins, filter, groupBy, orderBy, limit, offset⟩, s', outer,
      hformed, h => by
    obtain ⟨hfOutput, hfAlias, hfOrigin, hfJoins, hfNone, hfFilter, hfGroup, hfOrder⟩ := hformed
    obtain ⟨scope, joined, conditions, outputs, hresolves⟩ := Select.resolve_eq_ok h
    obtain ⟨text', distinct', output', origin', joins', filter', groupBy', orderBy', limit',
      offset'⟩ := s'
    obtain ⟨hscope, hjoins, horigin, hsources, hconditions, houtputs, hfilter, hgroup, horder,
      houtput⟩ := hresolves
    have hlen : joined.length = conditions.length :=
      (Join.length_resolveSources hsources).trans (Join.length_resolveConditions hconditions).symm
    have htypes : (origin'.toList ++ joins'.map Join.source).map (Source.types c) =
        scope.types := by
      rw [show joins' = _ from hjoins, Join.source_zipWith hlen, hscope, Scope.types, List.map_map]
      rfl
    obtain ⟨horigin', hnone⟩ := Source.resolveOption_typed hfOrigin horigin
    have houtputs' := Expr.resolveOutputs_typed hfOutput hfAlias houtputs
    have hexpanded := Expr.typedAll_iff.2 (Scope.expandAll_typed houtputs' houtput)
    simp only [Select.Typed, htypes]
    refine ⟨horigin', ?_, fun h => ?_, hexpanded, Expr.resolveFilter_typed hfFilter hfilter,
      Expr.resolveAll_typed hfGroup hgroup, OrderKey.resolveAll_typed hfOrder houtputs' horder⟩
    · exact (show joins' = _ from hjoins) ▸ Join.resolve_typed hfJoins hsources hconditions
    · have hnil := hfNone (hnone h)
      rw [show joins' = _ from hjoins]
      subst hnil
      obtain rfl := Except.ok.inj hsources
      rfl

end

end SqlEngine
