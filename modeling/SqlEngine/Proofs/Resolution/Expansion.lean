import SqlEngine.Proofs.Plan.Compiles
import SqlEngine.Proofs.Resolution.Everywhere

/-!
# Resolution — wildcards and aggregates

What resolving leaves of wildcards and where it leaves aggregates.  An expression that was resolved
has no wildcard in it, as the resolver takes none; a wildcard among the outputs has the columns of
its sources in its place, and one of these is read as a wildcard again exactly when the column
has the name of one.  Aggregates stand only where the clause allows them.

* `Expr.resolve_plain`: a resolved expression has no wildcards, and what the compiler needs.
* `Expr.resolve_aggregate`: it has no aggregates where they are not allowed.
* `Catalog.ensures_resolved`: what a resolved SELECT has of both, clause by clause.
-/

namespace SqlEngine

open Formula (IsFormula)

variable {c : Catalog} {scopes : List Scope} {aggregates : Bool}

/-! ### Wildcards -/

/-- Binding a reference keeps the name of its column. -/
theorem Scope.bindIn?_column {r bound : ColumnRef} {level : Nat}
    (h : Scope.bindIn? r level scopes = .ok (some bound)) : bound.column = r.column := by
  obtain ⟨_, _, _, found, -, -, hfound, rfl⟩ := Scope.bindIn?_cases h
  obtain ⟨_, _, _, _, _, -, -, -, -, -, rfl⟩ := Scope.bind?_cases hfound
  rfl

/-- A column node is bound, and is no wildcard. -/
def Node.Plain (n : Node) : Prop :=
  ∀ r, n = .column r → (∃ b, r.binding = some b) ∧ r.isWildcard = false

theorem ColumnRef.resolve_plain {r : ColumnRef} {n : Node}
    (h : r.resolve c scopes aggregates = .ok n) : n.Plain := by
  have htyped := ColumnRef.resolve_typed h
  simp only [ColumnRef.resolve] at h
  split at h
  · cases h
  next hplain =>
    simp only [bind_eq_ok_iff] at h
    obtain ⟨found, hfound, h⟩ := h
    cases found with
    | some bound =>
      obtain rfl := Except.ok.inj h
      obtain ⟨b, -, -, hb, -⟩ := htyped
      rintro r' ⟨⟩
      refine ⟨⟨b, hb⟩, ?_⟩
      rw [ColumnRef.isWildcard, Scope.bindIn?_column hfound]
      simpa [ColumnRef.isWildcard] using hplain
    | none =>
      obtain ⟨f, -, rfl⟩ := map_eq_ok_iff.1 h
      rintro r' ⟨⟩

theorem Node.resolve_plain {n n' : Node} (h : n.resolve c scopes aggregates = .ok n') :
    n'.Plain := by
  cases n with
  | column r => exact ColumnRef.resolve_plain h
  | call f =>
    simp only [Node.resolve, bind_eq_ok_iff] at h
    obtain ⟨f', -, h⟩ := h
    obtain rfl := Except.ok.inj h
    rintro r ⟨⟩
  | select s =>
    simp only [Node.resolve, bind_eq_ok_iff] at h
    obtain ⟨s', -, -, -, h⟩ := h
    obtain rfl := Except.ok.inj h
    rintro r ⟨⟩
  | operator _ | openParen | closeParen | number _ | text _ | boolean _ | null =>
    obtain rfl := Except.ok.inj h
    rintro r ⟨⟩

theorem Node.resolveAll_plain : ∀ {ns ns' : List Node},
    Node.resolveAll c scopes aggregates ns = .ok ns' → ∀ n ∈ ns', n.Plain
  | [], ns', h => by
    obtain rfl := Except.ok.inj h
    exact List.forall_mem_nil _
  | n :: ns, ns', h => by
    simp only [Node.resolveAll, bind_eq_ok_iff] at h
    obtain ⟨n', hn, rest, hrest, h⟩ := h
    obtain rfl := Except.ok.inj h
    exact List.forall_mem_cons.2 ⟨Node.resolve_plain hn, Node.resolveAll_plain hrest⟩

/-- The types of the nodes are a formula of the same shape. -/
theorem Node.typed_rel (n : Node) : Item.Rel (fun _ _ => True) n.typed (n.item ()) := by
  cases n with
  | operator op => exact .operator op
  | openParen => exact .openParen
  | closeParen => exact .closeParen
  | _ => exact .value trivial

/-- Nodes that have a type are a formula. -/
theorem Node.formula_of_typeOf {nodes : List Node} {t : DataType}
    (h : Formula.typeOf (nodes.map Node.typed) = .ok t) : IsFormula (Node.shape nodes) := by
  obtain ⟨tree, htree, -⟩ := Formula.typeOf_eq_ok_iff.1 h
  have hformula := Formula.isFormula_iff_tree.2 ⟨tree, htree⟩
  refine hformula.of_rel (R := fun _ _ => True) ?_
  rw [Node.shape, List.forall₂_map_left_iff, List.forall₂_map_right_iff, List.forall₂_same]
  exact fun n _ => n.typed_rel

/-- A resolved expression is a formula of bound columns, and has no wildcard. -/
theorem Expr.resolve_plain {e e' : Expr} (h : e.resolve c scopes aggregates = .ok e') :
    e'.Compilable ∧ e'.containsWildcard = false := by
  obtain ⟨nodes, _, _, _, _, _, _⟩ := e
  simp only [Expr.resolve, bind_eq_ok_iff] at h
  obtain ⟨nodes', hnodes, type, htype, h⟩ := h
  obtain rfl := Except.ok.inj h
  have hplain := Node.resolveAll_plain hnodes
  refine ⟨⟨Node.formula_of_typeOf htype, fun r hr => (hplain _ hr r rfl).1, rfl⟩, ?_⟩
  rw [Expr.containsWildcard, List.any_eq_false]
  intro n hn
  cases n with
  | column r => simpa [Node.isWildcard] using (hplain _ hn r rfl).2
  | _ => simp [Node.isWildcard]

/-- An expression without wildcards is none. -/
theorem Expr.isWildcard_of_contains {e : Expr} (h : e.containsWildcard = false) :
    e.isWildcard = false := by
  simp only [Expr.isWildcard, Expr.column?]
  split
  next r hr => simpa [Expr.containsWildcard, hr, Node.isWildcard] using h
  next => rfl

/-! ### Aggregates -/

/-- The calls of a call are itself and those in its arguments. -/
theorem Call.callsOf_node (f : Call) :
    Node.callsOf [.call f] = f :: Expr.callsOf f.arguments := by
  obtain ⟨_, arguments, _, _, _, _⟩ := f
  simp [Node.callsOf, Call.nested]

mutual

/-- Where aggregates are not allowed, a resolved expression has none. -/
theorem Expr.resolve_aggregate : ∀ {e e' : Expr}, e.resolve c scopes false = .ok e' →
    e'.calls.any Call.isAggregate = false
  | ⟨nodes, _, _, _, _, _, _⟩, e', h => by
    simp only [Expr.resolve, bind_eq_ok_iff] at h
    obtain ⟨nodes', hnodes, type, htype, h⟩ := h
    obtain rfl := Except.ok.inj h
    exact Node.resolveAll_aggregate hnodes

theorem Node.resolve_aggregate : ∀ {n n' : Node}, n.resolve c scopes false = .ok n' →
    (Node.callsOf [n']).any Call.isAggregate = false
  | .column r, n', h => by
    simp only [Node.resolve, ColumnRef.resolve] at h
    split at h
    · cases h
    simp only [bind_eq_ok_iff] at h
    obtain ⟨found, -, h⟩ := h
    cases found with
    | some bound =>
      obtain rfl := Except.ok.inj h
      rfl
    | none =>
      obtain ⟨f, hf, rfl⟩ := map_eq_ok_iff.1 h
      obtain ⟨harguments, -, haggregate⟩ := ColumnRef.asCall_cases hf
      rw [Call.callsOf_node, harguments]
      simpa [Expr.callsOf] using haggregate
  | .call f, n', h => by
    simp only [Node.resolve, bind_eq_ok_iff] at h
    obtain ⟨f', hf, h⟩ := h
    obtain rfl := Except.ok.inj h
    exact Call.resolve_aggregate hf
  | .select s, n', h => by
    simp only [Node.resolve, bind_eq_ok_iff] at h
    obtain ⟨s', -, -, -, h⟩ := h
    obtain rfl := Except.ok.inj h
    rfl
  | .operator _, n', h | .openParen, n', h | .closeParen, n', h | .number _, n', h
  | .text _, n', h | .boolean _, n', h | .null, n', h => by
    obtain rfl := Except.ok.inj h
    rfl

theorem Node.resolveAll_aggregate : ∀ {ns ns' : List Node},
    Node.resolveAll c scopes false ns = .ok ns' →
    (Node.callsOf ns').any Call.isAggregate = false
  | [], ns', h => by
    obtain rfl := Except.ok.inj h
    rfl
  | n :: ns, ns', h => by
    simp only [Node.resolveAll, bind_eq_ok_iff] at h
    obtain ⟨n', hn, rest, hrest, h⟩ := h
    obtain rfl := Except.ok.inj h
    rw [Node.callsOf_cons, List.any_append, Node.resolve_aggregate hn,
      Node.resolveAll_aggregate hrest]
    rfl

theorem Call.resolve_aggregate : ∀ {f f' : Call}, f.resolve c scopes false = .ok f' →
    (Node.callsOf [.call f']).any Call.isAggregate = false
  | ⟨function, arguments, _, _, _, _⟩, f', h => by
    simp only [Call.resolve] at h
    split at h
    · cases h
    simp only [bind_eq_ok_iff] at h
    obtain ⟨arguments', harguments, h⟩ := h
    obtain ⟨heq, -, haggregate⟩ := Call.choose_cases h
    have hplain : f'.isAggregate = false := by simpa using fun h => (haggregate h).1
    rw [Call.callsOf_node, heq, List.any_cons, hplain, Bool.false_or]
    exact Expr.resolveAll_aggregate harguments

theorem Expr.resolveAll_aggregate : ∀ {es es' : List Expr},
    Expr.resolveAll c scopes false es = .ok es' →
    (Expr.callsOf es').any Call.isAggregate = false
  | [], es', h => by
    obtain rfl := Except.ok.inj h
    rfl
  | e :: es, es', h => by
    simp only [Expr.resolveAll, bind_eq_ok_iff] at h
    obtain ⟨e', he, rest, hrest, h⟩ := h
    obtain rfl := Except.ok.inj h
    rw [Expr.callsOf, List.any_append, Expr.resolve_aggregate he, Expr.resolveAll_aggregate hrest]
    rfl

end

/-- An expression of ON, WHERE or GROUP BY has neither wildcards nor aggregates. -/
theorem Expr.resolve_row {e e' : Expr} (h : e.resolve c scopes false = .ok e') :
    e'.containsWildcard = false ∧ e'.hasAggregate = false := by
  obtain ⟨hcompilable, hplain⟩ := Expr.resolve_plain h
  exact ⟨hplain, hcompilable.aggregate.trans (Expr.resolve_aggregate h)⟩

/-! ### Clauses -/

section Clauses

variable {P : Expr → Prop}

theorem Expr.resolveAll_forall
    (hP : ∀ e e', Expr.resolve c scopes aggregates e = .ok e' → P e') : ∀ {es es' : List Expr},
    Expr.resolveAll c scopes aggregates es = .ok es' → ∀ e ∈ es', P e
  | [], es', h => by
    obtain rfl := Except.ok.inj h
    exact List.forall_mem_nil _
  | e :: es, es', h => by
    simp only [Expr.resolveAll, bind_eq_ok_iff] at h
    obtain ⟨e', he, rest, hrest, h⟩ := h
    obtain rfl := Except.ok.inj h
    exact List.forall_mem_cons.2 ⟨hP e e' he, Expr.resolveAll_forall hP hrest⟩

theorem Expr.resolveFilter_forall (hP : ∀ e e', Expr.resolve c scopes false e = .ok e' → P e')
    {filter filter' : Option Expr} (h : Expr.resolveFilter c scopes filter = .ok filter') :
    ∀ e, filter' = some e → P e := by
  cases filter with
  | none =>
    obtain rfl := Except.ok.inj h
    intro e he
    cases he
  | some e =>
    simp only [Expr.resolveFilter, bind_eq_ok_iff] at h
    obtain ⟨e', he, -, -, h⟩ := h
    obtain rfl := Except.ok.inj h
    rintro _ ⟨⟩
    exact hP e e' he

theorem Join.resolveConditions_forall {scope : Scope} {outer : List Scope}
    (hP : ∀ e e' scopes, Expr.resolve c scopes false e = .ok e' → P e') :
    ∀ {js : List Join} {visible : Nat} {es : List Expr},
    Join.resolveConditions c scope outer visible js = .ok es → ∀ e ∈ es, P e
  | [], visible, es, h => by
    obtain rfl := Except.ok.inj h
    exact List.forall_mem_nil _
  | ⟨_, _, none⟩ :: js, visible, es, h => by cases h
  | ⟨_, _, some condition⟩ :: js, visible, es, h => by
    simp only [Join.resolveConditions, bind_eq_ok_iff] at h
    obtain ⟨e, he, -, -, rest, hrest, h⟩ := h
    obtain rfl := Except.ok.inj h
    exact List.forall_mem_cons.2 ⟨hP condition e _ he, Join.resolveConditions_forall hP hrest⟩

theorem Expr.resolveOutputs_forall (hP : ∀ e e', Expr.resolve c scopes true e = .ok e' → P e') :
    ∀ {es es' : List Expr}, (∀ e ∈ es, e.isWildcard = true → e.aliasName = none) →
    Expr.resolveOutputs c scopes es = .ok es' →
    ∀ e ∈ es', e.isWildcard = true ∧ e.aliasName = none ∨ P e
  | [], es', _, h => by
    obtain rfl := Except.ok.inj h
    exact List.forall_mem_nil _
  | e :: es, es', halias, h => by
    obtain ⟨hnone, halias⟩ := List.forall_mem_cons.1 halias
    simp only [Expr.resolveOutputs] at h
    split at h
    next hwildcard =>
      simp only [ok_bind, bind_eq_ok_iff] at h
      obtain ⟨rest, hrest, h⟩ := h
      obtain rfl := Except.ok.inj h
      exact List.forall_mem_cons.2 ⟨.inl ⟨hwildcard, hnone hwildcard⟩,
        Expr.resolveOutputs_forall hP halias hrest⟩
    next =>
      simp only [bind_eq_ok_iff] at h
      obtain ⟨e', he, rest, hrest, h⟩ := h
      obtain rfl := Except.ok.inj h
      exact List.forall_mem_cons.2 ⟨.inr (hP e e' he), Expr.resolveOutputs_forall hP halias hrest⟩

/-- A sort key was resolved, or is an output without its alias. -/
theorem OrderKey.resolveAll_forall {output : List Expr}
    (hP : ∀ e e', Expr.resolve c scopes true e = .ok e' → P e')
    (hnamed : ∀ e ∈ output, e.aliasName ≠ none → P { e with aliasName := none }) :
    ∀ {ks ks' : List OrderKey}, OrderKey.resolveAll c scopes output ks = .ok ks' →
    ∀ k ∈ ks', P k.expr
  | [], ks', h => by
    obtain rfl := Except.ok.inj h
    exact List.forall_mem_nil _
  | ⟨e, ascending⟩ :: ks, ks', h => by
    simp only [OrderKey.resolveAll] at h
    split at h
    next named hkey =>
      simp only [ok_bind, bind_eq_ok_iff] at h
      obtain ⟨rest, hrest, h⟩ := h
      obtain rfl := Except.ok.inj h
      refine List.forall_mem_cons.2 ⟨?_, OrderKey.resolveAll_forall hP hnamed hrest⟩
      obtain ⟨r, -, -, found, hfound, halias, rfl⟩ := OrderKey.namedOutput?_cases hkey
      refine hnamed found hfound fun hnone => ?_
      rw [hnone] at halias
      cases halias
    next =>
      simp only [bind_eq_ok_iff] at h
      obtain ⟨e', he, rest, hrest, h⟩ := h
      obtain rfl := Except.ok.inj h
      exact List.forall_mem_cons.2 ⟨hP e e' he, OrderKey.resolveAll_forall hP hnamed hrest⟩

/-- An output of a SELECT is one of those listed that is no wildcard, or a column of a source. -/
theorem Scope.expandAll_forall {scope : Scope} (hexpanded : ∀ r columns,
    scope.expand r = .ok columns → ∀ e ∈ columns, P e) : ∀ {es es' : List Expr},
    (∀ e ∈ es, e.isWildcard = false → P e) → scope.expandAll es = .ok es' → ∀ e ∈ es', P e
  | [], es', _, h => by
    obtain rfl := Except.ok.inj h
    exact List.forall_mem_nil _
  | e :: es, es', hes, h => by
    obtain ⟨he, hes⟩ := List.forall_mem_cons.1 hes
    obtain ⟨columns, rest, hrest, rfl, hcolumns⟩ := Scope.expandAll_cons h
    refine List.forall_mem_append.2 ⟨?_, Scope.expandAll_forall hexpanded hes hrest⟩
    rcases hcolumns with ⟨hplain, rfl⟩ | ⟨-, r, hexpand⟩
    · exact fun e' he' => List.mem_singleton.1 he' ▸ he hplain
    · exact hexpanded r columns hexpand

end Clauses

/-! ### Sources -/

theorem Source.resolve_known {s s' : Source} (h : s.resolve c scopes = .ok s') : s'.Known c := by
  cases s with
  | table name aliasName id offset =>
    simp only [Source.resolve] at h
    split at h
    next i t hfind =>
      obtain rfl := Except.ok.inj h
      exact ⟨i, t, rfl, Catalog.getElem?_of_findTable? hfind⟩
    next => cases h
  | select s aliasName offset =>
    simp only [Source.resolve, bind_eq_ok_iff] at h
    obtain ⟨q, -, h⟩ := h
    obtain rfl := Except.ok.inj h
    trivial

theorem Source.resolveOption_known {s s' : Option Source}
    (h : Source.resolveOption c scopes s = .ok s') : ∀ source ∈ s'.toList, source.Known c := by
  cases s with
  | none =>
    obtain rfl := Except.ok.inj h
    exact List.forall_mem_nil _
  | some s =>
    simp only [Source.resolveOption, bind_eq_ok_iff] at h
    obtain ⟨q, hq, h⟩ := h
    obtain rfl := Except.ok.inj h
    exact fun source hsource => List.mem_singleton.1 hsource ▸ Source.resolve_known hq

theorem Join.resolveSources_known : ∀ {js js' : List Join},
    Join.resolveSources c scopes js = .ok js' → ∀ source ∈ js'.map Join.source, source.Known c
  | [], js', h => by
    obtain rfl := Except.ok.inj h
    exact List.forall_mem_nil _
  | ⟨source, kind, condition⟩ :: js, js', h => by
    simp only [Join.resolveSources, bind_eq_ok_iff] at h
    obtain ⟨source', hsource, rest, hrest, h⟩ := h
    obtain rfl := Except.ok.inj h
    exact List.forall_mem_cons.2 ⟨Source.resolve_known hsource, Join.resolveSources_known hrest⟩

/-- The conditions of joins are those that were put into them. -/
theorem Join.mem_of_mem_zipWith {e : Expr} {js : List Join} {es : List Expr}
    (h : e ∈ (js.zipWith (fun j e => { j with condition := some e }) es).filterMap
      Join.condition) : e ∈ es := by
  obtain ⟨j', hj', he⟩ := List.mem_filterMap.1 h
  rw [← List.map_uncurry_zip_eq_zipWith] at hj'
  obtain ⟨⟨j, e'⟩, hpair, rfl⟩ := List.mem_map.1 hj'
  obtain rfl := Option.some.inj he
  exact (List.of_mem_zip hpair).2

variable {s s' : Select} {outer : List Scope} {scope : Scope} {joined : List Join}
  {conditions listed : List Expr}

namespace Select.Resolves

/-- The sources of a resolved SELECT are those that its scope was made of. -/
theorem sources' (h : Select.Resolves c outer s s' scope joined conditions listed) :
    s'.sources = s'.origin.toList ++ joined.map Join.source := by
  have hlen : joined.length = conditions.length :=
    (Join.length_resolveSources h.sources).trans (Join.length_resolveConditions h.conditions).symm
  rw [Select.sources, h.joins, Join.source_zipWith hlen]

theorem scope_eq (h : Select.Resolves c outer s s' scope joined conditions listed) :
    s'.sources.map (Source.scopeSource c) = scope := by
  rw [h.sources', h.sources_eq]

theorem known (h : Select.Resolves c outer s s' scope joined conditions listed) :
    ∀ source ∈ s'.sources, source.Known c := by
  rw [h.sources', List.forall_mem_append]
  exact ⟨Source.resolveOption_known h.origin, Join.resolveSources_known h.sources⟩

/-- ON, WHERE and GROUP BY have neither wildcards nor aggregates. -/
theorem rowExprs (h : Select.Resolves c outer s s' scope joined conditions listed) :
    ∀ e ∈ s'.rowExprs, e.containsWildcard = false ∧ e.hasAggregate = false := by
  have hrow : ∀ (e e' : Expr) (scopes : List Scope), e.resolve c scopes false = .ok e' →
      e'.containsWildcard = false ∧ e'.hasAggregate = false := fun _ _ _ h => Expr.resolve_row h
  simp only [Select.rowExprs, List.forall_mem_append, h.joins]
  refine ⟨⟨fun e he => ?_, fun e he => ?_⟩, ?_⟩
  · exact Join.resolveConditions_forall hrow h.conditions e (Join.mem_of_mem_zipWith he)
  · exact Expr.resolveFilter_forall (fun e e' => hrow e e' _) h.filter e (Option.mem_toList.1 he)
  · exact Expr.resolveAll_forall (fun e e' => hrow e e' _) h.groupBy

/-- Outputs that are listed and are no wildcards have none in them. -/
theorem listed_plain (h : Select.Resolves c outer s s' scope joined conditions listed)
    (hs : s.Formed) :
    ∀ e ∈ listed, e.isWildcard = true ∧ e.aliasName = none ∨ e.containsWildcard = false := by
  obtain ⟨_, _, _, _, _, _, _, _, _, _⟩ := s
  exact Expr.resolveOutputs_forall (fun e e' he => (Expr.resolve_plain he).2) hs.2.1 h.outputs

/-- Sort keys have no wildcards. -/
theorem orderBy_plain (h : Select.Resolves c outer s s' scope joined conditions listed)
    (hs : s.Formed) : ∀ k ∈ s'.orderBy, k.expr.containsWildcard = false := by
  refine OrderKey.resolveAll_forall (P := fun e => e.containsWildcard = false)
    (fun e e' he => (Expr.resolve_plain he).2) (fun e he halias => ?_) h.orderBy
  rcases h.listed_plain hs e he with ⟨-, hnone⟩ | hplain
  · exact absurd hnone halias
  · exact hplain

end Select.Resolves

/-! ### What resolving ensures -/

/-- The expression is a column of a source of the SELECT, and the column has the name of a
wildcard. -/
def Select.Starred (c : Catalog) (s : Select) (e : Expr) : Prop :=
  ∃ r i j source column, e.nodes = [.column r] ∧ r.level = 0 ∧ r.binding = some ⟨i, j⟩ ∧
    (s.sources.map (Source.scopeSource c))[i]? = some source ∧
    source.columns[j]? = some column ∧ column.name = "*"

theorem Select.Resolves.output_starred
    (h : Select.Resolves c outer s s' scope joined conditions listed) (hs : s.Formed) :
    ∀ e ∈ s'.output, e.containsWildcard = true → s'.Starred c e := by
  refine Scope.expandAll_forall (P := fun e => e.containsWildcard = true → s'.Starred c e)
    (fun r columns hexpand e he hwildcard => ?_) (fun e he hplain hwildcard => ?_) h.output
  · obtain ⟨i, j, source, column, hsource, hcolumn, rfl⟩ := Scope.mem_expand hexpand he
    refine ⟨_, i, j, source, column, rfl, rfl, rfl, by rw [h.scope_eq]; exact hsource, hcolumn, ?_⟩
    simpa [Expr.containsWildcard, Expr.ofColumn, Node.isWildcard, ColumnRef.isWildcard]
      using hwildcard
  · rcases h.listed_plain hs e he with ⟨hlone, -⟩ | hnone
    · rw [hplain] at hlone
      cases hlone
    · rw [hnone] at hwildcard
      cases hwildcard

/-- A SELECT of known tables, with the rows' expressions and sort keys free of wildcards. -/
structure Select.Expanded (c : Catalog) (s : Select) : Prop where
  sources : ∀ source ∈ s.sources, source.Known c
  rowExprs : ∀ e ∈ s.rowExprs, e.containsWildcard = false ∧ e.hasAggregate = false
  orderBy : ∀ k ∈ s.orderBy, k.expr.containsWildcard = false
  output : ∀ e ∈ s.output, e.containsWildcard = true → s.Starred c e

/-- What resolving ensures of wildcards and aggregates. -/
def Local.resolved (c : Catalog) : Local :=
  ⟨Expr.Compilable, fun f => f.Compilable ∧ ∀ a ∈ f.arguments, a.containsWildcard = false,
    Select.Expanded c⟩

theorem Call.resolve_resolved {f f' : Call} (h : f.resolve c scopes aggregates = .ok f') :
    f'.Compilable ∧ ∀ a ∈ f'.arguments, a.containsWildcard = false := by
  obtain ⟨function, arguments, _, _, _, _⟩ := f
  simp only [Call.resolve] at h
  split at h
  · cases h
  next id f hfind =>
    simp only [bind_eq_ok_iff] at h
    obtain ⟨arguments', harguments, h⟩ := h
    obtain ⟨heq, htarget, haggregate⟩ := Call.choose_cases h
    rw [heq]
    refine ⟨⟨htarget, fun hf => ?_⟩,
      Expr.resolveAll_forall (fun e e' he => (Expr.resolve_plain he).2) harguments⟩
    -- the function has aggregate overloads, so its arguments were resolved without
    rw [heq]
    rw [(haggregate hf).2, Bool.not_true, Bool.and_false] at harguments
    exact Expr.resolveAll_forall (fun e e' he => (Expr.resolve_row he).2) harguments

/-- **What resolving ensures**: clauses and arguments have no wildcards, outputs have one only for a
column of that name, and aggregates are in their places. -/
theorem Catalog.ensures_resolved (c : Catalog) : c.Ensures (.resolved c) where
  resolved := fun h => (Expr.resolve_plain h).1
  expanded := by
    intro scope r columns h e he
    obtain ⟨i, j, source, column, -, -, rfl⟩ := Scope.mem_expand h he
    refine ⟨.operand (.value ()), fun r hr => ?_, rfl⟩
    obtain rfl := Node.column.inj (List.mem_singleton.1 hr)
    exact ⟨_, rfl⟩
  unnamed := by
    rintro ⟨_, _, _, _, _, _, _⟩ ⟨hformula, hbound, haggregate⟩
    exact ⟨hformula, hbound, haggregate⟩
  call := fun h => Call.resolve_resolved h
  bare := by
    intro r f aggregates h
    obtain ⟨harguments, htarget, -⟩ := ColumnRef.asCall_cases h
    refine ⟨⟨htarget, fun _ => ?_⟩, ?_⟩ <;> rw [harguments] <;> exact List.forall_mem_nil _
  select := fun hs h => ⟨h.known, h.rowExprs, h.orderBy_plain hs, h.output_starred hs⟩

end SqlEngine
