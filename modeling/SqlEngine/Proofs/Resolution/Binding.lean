import SqlEngine.Proofs.Lists
import SqlEngine.Proofs.Resolution.Expansion
import SqlEngine.Proofs.Resolution.Statement

/-!
# Resolution — which column a reference is bound to

A reference is bound in the innermost scope that has a match for it, to a column of its name there.
`Scope.Match` says what a match is, and `Statement.Binds` that all references of a statement, at any
depth, were bound in the scopes that they see: the clauses of a SELECT see its sources and the
scopes around it, the condition of a join only the sources up to its own, a sub-select in FROM the
scopes around the statement, and values of INSERT a scope without sources.

* `Scope.bind?_match`, `Scope.bind?_lacks`: a scope binds a reference when it has a match.
* `Statement.resolve_binds`: resolving binds all references of a statement.
-/

namespace SqlEngine

/-! ### Matches -/

/-- The sources of a scope that a reference can be about: without a qualifier all of them, else the
first that goes by it, and when none does, those of the table that it names. -/
inductive Scope.Offers (scope : Scope) (r : ColumnRef) : Nat → ScopeSource → Prop
  | all {i : Nat} {source : ScopeSource} (hr : r.qualifier = none) (h : scope[i]? = some source) :
      Offers scope r i source
  | named {i : Nat} {source : ScopeSource} {q : String} (hr : r.qualifier = some q)
      (h : scope[i]? = some source) (hname : Text.sameName source.name q = true)
      (hfirst : ∀ before ∈ scope.take i, Text.sameName before.name q = false) :
      Offers scope r i source
  | table {i : Nat} {source : ScopeSource} {q t : String} (hr : r.qualifier = some q)
      (hnone : ∀ s ∈ scope, Text.sameName s.name q = false) (h : scope[i]? = some source)
      (ht : source.table = some t) (hname : Text.sameName t q = true) : Offers scope r i source

/-- A column that has the name of the reference, in a source that it can be about. -/
structure Scope.Match (scope : Scope) (r : ColumnRef) (b : Binding) (column : Column) : Prop where
  offered : ∃ source, scope.Offers r b.source source ∧ source.columns[b.column]? = some column
  name : Text.sameName column.name r.column = true

/-- No column of the scope matches the reference. -/
def Scope.Lacks (scope : Scope) (r : ColumnRef) : Prop :=
  ∀ b column, ¬ scope.Match r b column

/-- The reference is bound to a column of its name and type, in the scope at its level. -/
def ColumnRef.Located (scopes : List Scope) (r : ColumnRef) : Prop :=
  ∃ b scope source column, r.binding = some b ∧ scopes[r.level]? = some scope ∧
    scope[b.source]? = some source ∧ source.columns[b.column]? = some column ∧
    Text.sameName column.name r.column = true ∧ column.type = r.type

/-- The reference was bound to a match in the innermost scope that has one. -/
def ColumnRef.Binds (scopes : List Scope) (r bound : ColumnRef) : Prop :=
  ∃ b scope column, bound.binding = some b ∧ scopes[bound.level]? = some scope ∧
    scope.Match r b column ∧ bound.column = r.column ∧ bound.type = column.type ∧
    ∀ inner ∈ scopes.take bound.level, inner.Lacks r

theorem Scope.Offers.getElem? {scope : Scope} {r : ColumnRef} {i : Nat} {source : ScopeSource}
    (h : scope.Offers r i source) : scope[i]? = some source := by
  cases h <;> assumption

theorem ColumnRef.Binds.located {scopes : List Scope} {r bound : ColumnRef}
    (h : r.Binds scopes bound) : bound.Located scopes := by
  obtain ⟨b, scope, column, hb, hscope, ⟨⟨source, hsource, hcolumn⟩, hname⟩, heq, htype, -⟩ := h
  exact ⟨b, scope, source, column, hb, hscope, hsource.getElem?, hcolumn, heq ▸ hname, htype.symm⟩

/-! ### Binding a reference -/

/-- With a source of the qualifier's name, the reference is about the first of them. -/
theorem Scope.offers_iff_of_findIdx? {scope : Scope} {r : ColumnRef} {q : String} {k : Nat}
    (hr : r.qualifier = some q) (hk : scope.findIdx? (Text.sameName ·.name q) = some k) {i : Nat}
    {source : ScopeSource} : scope.Offers r i source ↔ i = k ∧ scope[i]? = some source := by
  obtain ⟨hlt, hname, hbefore⟩ := List.findIdx?_eq_some_iff_getElem.1 hk
  constructor
  · intro hoffers
    cases hoffers with
    | all hr' => rw [hr] at hr'; cases hr'
    | named hr' hsource hname' hfirst =>
      obtain rfl := Option.some.inj (hr.symm.trans hr')
      refine ⟨?_, hsource⟩
      obtain ⟨hi, rfl⟩ := List.getElem?_eq_some_iff.1 hsource
      -- neither of the two first positions comes before the other
      rcases Nat.lt_trichotomy i k with hik | heq | hki
      · exact absurd hname' (by simpa using hbefore i hik)
      · exact heq
      · have hmem : scope[k] ∈ scope.take i :=
          List.mem_take_iff_getElem.2 ⟨k, Nat.lt_min.2 ⟨hki, hlt⟩, rfl⟩
        exact absurd hname (by simpa using hfirst _ hmem)
    | table hr' hnone =>
      obtain rfl := Option.some.inj (hr.symm.trans hr')
      exact absurd hname (by simpa using hnone _ (List.getElem_mem hlt))
  · rintro ⟨rfl, hsource⟩
    obtain rfl := Option.some.inj ((List.getElem?_eq_getElem hlt).symm.trans hsource)
    refine .named hr hsource hname fun before hmem => ?_
    obtain ⟨j, hj, rfl⟩ := List.mem_take_iff_getElem.1 hmem
    simpa using hbefore j (by omega)

/-- With no source of the qualifier's name, the reference is about the tables of that name. -/
theorem Scope.offers_iff_of_unnamed {scope : Scope} {r : ColumnRef} {q : String}
    (hr : r.qualifier = some q) (hnone : ∀ s ∈ scope, Text.sameName s.name q = false) {i : Nat}
    {source : ScopeSource} : scope.Offers r i source ↔
      scope[i]? = some source ∧ source.table.any (Text.sameName · q) = true := by
  constructor
  · intro hoffers
    cases hoffers with
    | all hr' => rw [hr] at hr'; cases hr'
    | named hr' hsource hname =>
      obtain rfl := Option.some.inj (hr.symm.trans hr')
      exact absurd hname (by simpa using hnone _ (List.mem_of_getElem? hsource))
    | table hr' _ hsource ht hname =>
      obtain rfl := Option.some.inj (hr.symm.trans hr')
      exact ⟨hsource, (Option.any_eq_true _ _).2 ⟨_, ht, hname⟩⟩
  · rintro ⟨hsource, htable⟩
    obtain ⟨t, ht, hname⟩ := (Option.any_eq_true _ _).1 htable
    exact .table hr hnone hsource ht hname

/-- The candidates for a reference are the sources that it can be about. -/
theorem Scope.mem_candidates {scope : Scope} {r : ColumnRef} {sources : List Nat}
    (h : scope.candidates r = .ok sources) {i : Nat} {source : ScopeSource} :
    i ∈ sources ∧ scope[i]? = some source ↔ scope.Offers r i source := by
  simp only [Scope.candidates] at h
  split at h
  next hr =>
    obtain rfl := Except.ok.inj h
    constructor
    · exact fun h => .all hr h.2
    · intro hoffers
      obtain ⟨hi, -⟩ := List.getElem?_eq_some_iff.1 hoffers.getElem?
      exact ⟨List.mem_range.2 hi, hoffers.getElem?⟩
  next q hr =>
    split at h
    · cases h
    obtain rfl := Except.ok.inj h
    simp only [Scope.named]
    split
    next k hk => rw [List.mem_singleton, Scope.offers_iff_of_findIdx? hr hk]
    next hnone =>
      have hnone : ∀ s ∈ scope, Text.sameName s.name q = false :=
        fun s hs => by simpa using List.findIdx?_eq_none_iff.1 hnone s hs
      rw [Scope.offers_iff_of_unnamed hr hnone]
      constructor
      · rintro ⟨hi, hsource⟩
        obtain ⟨⟨s, j⟩, hmem, rfl⟩ := List.mem_map.1 hi
        obtain ⟨hmem, htable⟩ := List.mem_filter.1 hmem
        obtain rfl := Option.some.inj ((List.mem_zipIdx_iff_getElem?.1 hmem).symm.trans hsource)
        exact ⟨hsource, htable⟩
      · rintro ⟨hsource, htable⟩
        refine ⟨List.mem_map.2 ⟨(source, i), List.mem_filter.2 ⟨?_, htable⟩, rfl⟩, hsource⟩
        exact List.mem_zipIdx_iff_getElem?.2 hsource

/-- A scope binds a reference to a match. -/
theorem Scope.bind?_match {scope : Scope} {r bound : ColumnRef}
    (h : scope.bind? r = .ok (some bound)) :
    ∃ b column, bound.binding = some b ∧ scope.Match r b column ∧ bound.column = r.column ∧
      bound.type = column.type := by
  obtain ⟨sources, i, j, source, column, hsources, hi, hsource, hj, hcolumn, rfl⟩ :=
    Scope.bind?_cases h
  have hoffers := (Scope.mem_candidates hsources).1 ⟨hi, hsource⟩
  obtain ⟨hlt, hname, -⟩ := List.findIdx?_eq_some_iff_getElem.1 hj
  obtain rfl := Option.some.inj ((List.getElem?_eq_getElem hlt).symm.trans hcolumn)
  exact ⟨⟨i, j⟩, _, rfl, ⟨⟨source, hoffers, hcolumn⟩, hname⟩, rfl, rfl⟩

/-- A source with a match binds the reference to its first column of the name. -/
theorem Scope.Match.bindAt? {scope : Scope} {r : ColumnRef} {b : Binding} {column : Column}
    (h : scope.Match r b column) : ∃ bound j, scope.bindAt? r b.source = some bound ∧
      bound.binding = some ⟨b.source, j⟩ ∧ j ≤ b.column := by
  obtain ⟨⟨source, hoffers, hcolumn⟩, hname⟩ := h
  obtain ⟨k, hk⟩ : ∃ k, source.columns.index? r.column = some k := by
    refine Option.isSome_iff_exists.1 (List.findIdx?_isSome.trans (List.any_eq_true.2 ?_))
    exact ⟨column, List.mem_of_getElem? hcolumn, hname⟩
  obtain ⟨hlt, -, hbefore⟩ := List.findIdx?_eq_some_iff_getElem.1 hk
  refine ⟨{ r.qualify source.name with type := source.columns[k].type, binding := some ⟨_, k⟩ }, k,
    ?_, rfl, Nat.le_of_not_lt fun hb => ?_⟩
  · simp only [Scope.bindAt?, hoffers.getElem?, hk, List.getElem?_eq_getElem hlt,
      Option.bind_eq_bind, Option.bind_some]
  · obtain ⟨hj, rfl⟩ := List.getElem?_eq_some_iff.1 hcolumn
    exact absurd hname (by simpa using hbefore b.column hb)

/-- The source of a match is among the candidates. -/
theorem Scope.Match.mem_candidates {scope : Scope} {r : ColumnRef} {b : Binding} {column : Column}
    (h : scope.Match r b column) {sources : List Nat} (hsources : scope.candidates r = .ok sources) :
    b.source ∈ sources := by
  obtain ⟨⟨source, hoffers, -⟩, -⟩ := h
  exact ((Scope.mem_candidates hsources).2 hoffers).1

/-- A scope that binds a reference to nothing has no match for it. -/
theorem Scope.bind?_lacks {scope : Scope} {r : ColumnRef} (h : scope.bind? r = .ok none) :
    scope.Lacks r := by
  intro b column hmatch
  simp only [Scope.bind?, bind_eq_ok_iff] at h
  obtain ⟨sources, hsources, h⟩ := h
  split at h
  next hnil =>
    obtain ⟨bound, j, hbound, -⟩ := hmatch.bindAt?
    have hnone := List.filterMap_eq_nil_iff.1 hnil _ (hmatch.mem_candidates hsources)
    rw [hnone] at hbound
    cases hbound
  · cases h
  · cases h

theorem Scope.bindIn?_binds {r bound : ColumnRef} {scopes : List Scope}
    (h : Scope.bindIn? r 0 scopes = .ok (some bound)) : r.Binds scopes bound := by
  obtain ⟨inner, scope, outer, found, rfl, hinner, hfound, rfl⟩ := Scope.bindIn?_cases h
  obtain ⟨b, column, hb, hmatch, hname, htype⟩ := Scope.bind?_match hfound
  refine ⟨b, scope, column, hb, by simp, hmatch, hname, htype, fun s hs => ?_⟩
  rw [Nat.zero_add, List.take_left] at hs
  exact Scope.bind?_lacks (hinner s hs)

theorem Scope.bindIn?_lacks {r : ColumnRef} : ∀ {scopes : List Scope} {level : Nat},
    Scope.bindIn? r level scopes = .ok none → ∀ scope ∈ scopes, scope.Lacks r
  | [], level, _ => List.forall_mem_nil _
  | scope :: outer, level, h => by
    simp only [Scope.bindIn?, bind_eq_ok_iff] at h
    obtain ⟨found, hfound, h⟩ := h
    cases found with
    | none => exact List.forall_mem_cons.2 ⟨Scope.bind?_lacks hfound, bindIn?_lacks h⟩
    | some found => cases h

/-! ### Statements -/

/-- The expression is one column, of a source of the statement itself. -/
def Expr.OwnColumn (scopes : List Scope) (e : Expr) : Prop :=
  ∃ r, e.nodes = [.column r] ∧ r.level = 0 ∧ r.Located scopes

mutual

/-- The second expression is the first with all references bound in the scopes. -/
def Expr.Binds (c : Catalog) (scopes : List Scope) : Expr → Expr → Prop
  | ⟨nodes, _, _, _, _, _, _⟩, e' => Node.BindsAll c scopes nodes e'.nodes
termination_by structural part => part

/-- A reference that no scope has a match for is the call of a function without arguments. -/
def Node.Binds (c : Catalog) (scopes : List Scope) : Node → Node → Prop
  | .column r, .column r' => r.Binds scopes r'
  | .column r, .call f'   => f'.arguments = [] ∧ ∀ scope ∈ scopes, scope.Lacks r
  | .call f,   .call f'   => f.Binds c scopes f'
  | .select s, .select s' => s.Binds c scopes s'
  | n,         n'         => n = n'
termination_by structural part => part

def Node.BindsAll (c : Catalog) (scopes : List Scope) : List Node → List Node → Prop
  | [],      []        => True
  | n :: ns, n' :: ns' => n.Binds c scopes n' ∧ Node.BindsAll c scopes ns ns'
  | _,       _         => False
termination_by structural part => part

def Call.Binds (c : Catalog) (scopes : List Scope) : Call → Call → Prop
  | ⟨_, arguments, _, _, _, _⟩, f' => Expr.BindsAll c scopes arguments f'.arguments
termination_by structural part => part

def Expr.BindsAll (c : Catalog) (scopes : List Scope) : List Expr → List Expr → Prop
  | [],      []        => True
  | e :: es, e' :: es' => e.Binds c scopes e' ∧ Expr.BindsAll c scopes es es'
  | _,       _         => False
termination_by structural part => part

/-- A wildcard has columns of the statement itself in its place. -/
def Expr.BindsOutputs (c : Catalog) (scopes : List Scope) : List Expr → List Expr → Prop
  | [],      es' => es' = []
  | e :: es, es' => ∃ columns rest, es' = columns ++ rest ∧
    (if e.isWildcard then ∀ e' ∈ columns, e'.OwnColumn scopes
      else ∃ e', columns = [e'] ∧ e.Binds c scopes e') ∧ Expr.BindsOutputs c scopes es rest
termination_by structural part => part

/-- The second expression is an output of the given alias with all references bound. -/
def Expr.BindsNamed (c : Catalog) (scopes : List Scope) (name : String) : List Expr → Expr → Prop
  | [],      _  => False
  | e :: es, e' => e.aliasName.any (Text.sameName · name) = true ∧ e.Binds c scopes e' ∨
    Expr.BindsNamed c scopes name es e'
termination_by structural part => part

def Expr.BindsOption (c : Catalog) (scopes : List Scope) : Option Expr → Option Expr → Prop
  | none,   none    => True
  | some e, some e' => e.Binds c scopes e'
  | _,      _       => False
termination_by structural part => part

/-- A sub-select sees the scopes around the statement that it is a source of. -/
def Source.Binds (c : Catalog) (outer : List Scope) : Source → Source → Prop
  | .table name a _ _, .table name' a' id _ =>
    name' = name ∧ a' = a ∧ ∃ i t, c.findTable? name = some (i, t) ∧ id = some i
  | .select s a _,     .select s' a' _      => a' = a ∧ s.Binds c outer s'
  | _,                 _                    => False
termination_by structural part => part

def Source.BindsOption (c : Catalog) (outer : List Scope) : Option Source → Option Source → Prop
  | none,   none    => True
  | some s, some s' => s.Binds c outer s'
  | _,      _       => False
termination_by structural part => part

/-- The first condition sees the given number of sources, and the next one more. -/
def Join.BindsAll (c : Catalog) (scope : Scope) (outer : List Scope) (visible : Nat) :
    List Join → List Join → Prop
  | [], [] => True
  | ⟨source, _, some e⟩ :: js, ⟨source', _, some e'⟩ :: js' =>
    source.Binds c outer source' ∧ e.Binds c (scope.take visible :: outer) e' ∧
      Join.BindsAll c scope outer (visible + 1) js js'
  | _, _ => False
termination_by structural part => part

/-- A sort key may name an output by its alias. -/
def OrderKey.BindsAll (c : Catalog) (scopes : List Scope) (named : String → Expr → Prop) :
    List OrderKey → List OrderKey → Prop
  | [],           []             => True
  | ⟨e, _⟩ :: ks, ⟨e', _⟩ :: ks' =>
    (e.Binds c scopes e' ∨ ∃ r, e.column? = some r ∧ r.qualifier = none ∧ named r.column e') ∧
      OrderKey.BindsAll c scopes named ks ks'
  | _,            _              => False
termination_by structural part => part

/-- The clauses of a SELECT see its sources, and the scopes around it. -/
def Select.Binds (c : Catalog) (outer : List Scope) : Select → Select → Prop
  | ⟨_, _, output, origin, joins, filter, groupBy, orderBy, _, _⟩, s' =>
    let scope : Scope := s'.sources.map (Source.scopeSource c)
    Source.BindsOption c outer origin s'.origin ∧ Join.BindsAll c scope outer 2 joins s'.joins ∧
      Expr.BindsOutputs c (scope :: outer) output s'.output ∧
      Expr.BindsOption c (scope :: outer) filter s'.filter ∧
      Expr.BindsAll c (scope :: outer) groupBy s'.groupBy ∧
      OrderKey.BindsAll c (scope :: outer) (Expr.BindsNamed c (scope :: outer) · output)
        orderBy s'.orderBy
termination_by structural part => part

end

/-! ### Parts of bound statements -/

section Parts

variable {c : Catalog} {scopes : List Scope}

/-- The expression was bound, or stands in the place of a wildcard. -/
def Expr.Bound (c : Catalog) (scopes : List Scope) (e : Expr) : Prop :=
  (∃ written : Expr, written.Binds c scopes e) ∨ e.OwnColumn scopes

theorem Node.exists_of_bindsAll {n' : Node} : ∀ {ns ns' : List Node},
    Node.BindsAll c scopes ns ns' → n' ∈ ns' → ∃ n : Node, n.Binds c scopes n'
  | [], [], _, hmem => by cases hmem
  | n :: ns, m :: ns', h, hmem => by
    rcases List.mem_cons.1 hmem with rfl | hmem
    · exact ⟨n, h.1⟩
    · exact exists_of_bindsAll h.2 hmem

theorem Node.binds_column {n : Node} {r' : ColumnRef} (h : n.Binds c scopes (.column r')) :
    (∃ r : ColumnRef, r.Binds scopes r') := by
  cases n with
  | column r => exact ⟨r, h⟩
  | _ => cases h

theorem Node.binds_select {n : Node} {s' : Select} (h : n.Binds c scopes (.select s')) :
    ∃ s : Select, s.Binds c scopes s' := by
  cases n with
  | select s => exact ⟨s, h⟩
  | _ => cases h

theorem Expr.exists_of_bindsAll {e' : Expr} : ∀ {es es' : List Expr},
    Expr.BindsAll c scopes es es' → e' ∈ es' → ∃ e : Expr, e.Binds c scopes e'
  | [], [], _, hmem => by cases hmem
  | e :: es, d :: es', h, hmem => by
    rcases List.mem_cons.1 hmem with rfl | hmem
    · exact ⟨e, h.1⟩
    · exact exists_of_bindsAll h.2 hmem

theorem Node.binds_call {n : Node} {f' : Call} (h : n.Binds c scopes (.call f')) {e' : Expr}
    (he : e' ∈ f'.arguments) : ∃ e : Expr, e.Binds c scopes e' := by
  cases n with
  | column r =>
    rw [h.1] at he
    cases he
  | call f =>
    obtain ⟨_, arguments, _, _, _, _⟩ := f
    exact Expr.exists_of_bindsAll h he
  | _ => cases h

theorem Expr.exists_of_bindsOption {e e' : Option Expr} (h : Expr.BindsOption c scopes e e')
    {d : Expr} (hd : e' = some d) : ∃ e : Expr, e.Binds c scopes d := by
  subst hd
  cases e with
  | none => cases h
  | some e => exact ⟨e, h⟩

theorem Expr.bound_of_bindsOutputs {e' : Expr} : ∀ {es es' : List Expr},
    Expr.BindsOutputs c scopes es es' → e' ∈ es' → e'.Bound c scopes
  | [], es', h, hmem => by
    obtain rfl := h
    cases hmem
  | e :: es, es', ⟨columns, rest, heq, hcolumns, hrest⟩, hmem => by
    subst heq
    rcases List.mem_append.1 hmem with hmem | hmem
    · split at hcolumns
      · exact .inr (hcolumns e' hmem)
      · obtain ⟨d, rfl, hbinds⟩ := hcolumns
        exact .inl ⟨e, List.mem_singleton.1 hmem ▸ hbinds⟩
    · exact bound_of_bindsOutputs hrest hmem

theorem Expr.exists_of_bindsNamed {name : String} {e' : Expr} : ∀ {es : List Expr},
    Expr.BindsNamed c scopes name es e' → ∃ e : Expr, e.Binds c scopes e'
  | [], h => by cases h
  | e :: es, .inl h => ⟨e, h.2⟩
  | e :: es, .inr h => exists_of_bindsNamed h

theorem OrderKey.exists_of_bindsAll {output : List Expr} {k' : OrderKey} :
    ∀ {ks ks' : List OrderKey},
    OrderKey.BindsAll c scopes (Expr.BindsNamed c scopes · output) ks ks' → k' ∈ ks' →
    ∃ e : Expr, e.Binds c scopes k'.expr
  | [], [], _, hmem => by cases hmem
  | ⟨e, _⟩ :: ks, ⟨e', _⟩ :: ks', h, hmem => by
    rcases List.mem_cons.1 hmem with rfl | hmem
    · rcases h.1 with hbinds | ⟨r, -, -, hnamed⟩
      · exact ⟨e, hbinds⟩
      · exact Expr.exists_of_bindsNamed hnamed
    · exact exists_of_bindsAll h.2 hmem

/-- A condition sees the first sources of its statement, and the scopes around it. -/
theorem Join.exists_of_bindsAll {scope : Scope} {outer : List Scope} {j' : Join} :
    ∀ {js js' : List Join} {visible : Nat}, Join.BindsAll c scope outer visible js js' →
    j' ∈ js' → (∃ source : Source, source.Binds c outer j'.source) ∧
      ∀ e', j'.condition = some e' → ∃ (e : Expr) (n : Nat), e.Binds c (scope.take n :: outer) e'
  | [], [], _, _, hmem => by cases hmem
  | ⟨source, _, some e⟩ :: js, ⟨source', _, some e'⟩ :: js', visible, h, hmem => by
    rcases List.mem_cons.1 hmem with rfl | hmem
    · refine ⟨⟨source, h.1⟩, ?_⟩
      rintro _ ⟨⟩
      exact ⟨e, visible, h.2.1⟩
    · exact exists_of_bindsAll h.2.2 hmem

namespace Select.Binds

variable {outer : List Scope} {s s' : Select}

theorem source (h : s.Binds c outer s') {source' : Source} (hmem : source' ∈ s'.sources) :
    ∃ source : Source, source.Binds c outer source' := by
  obtain ⟨_, _, output, origin, joins, filter, groupBy, orderBy, _, _⟩ := s
  obtain ⟨horigin, hjoins, -⟩ := h
  rcases List.mem_append.1 hmem with hmem | hmem
  · rw [Option.mem_toList.1 hmem] at horigin
    cases origin with
    | none => cases horigin
    | some source => exact ⟨source, horigin⟩
  · obtain ⟨j', hj', rfl⟩ := List.mem_map.1 hmem
    exact (Join.exists_of_bindsAll hjoins hj').1

/-- Every clause sees the sources of its statement, maybe without the last ones. -/
theorem clause (h : s.Binds c outer s') {e' : Expr} (hmem : e' ∈ s'.clauses) :
    ∃ visible, visible <+: s'.sources.map (Source.scopeSource c) ∧
      e'.Bound c (visible :: outer) := by
  obtain ⟨_, _, output, origin, joins, filter, groupBy, orderBy, _, _⟩ := s
  obtain ⟨-, hjoins, houtput, hfilter, hgroup, horder⟩ := h
  simp only [Select.clauses, Select.rowExprs, List.mem_append] at hmem
  rcases hmem with (hmem | (hmem | hmem) | hmem) | hmem
  · exact ⟨_, List.prefix_rfl, Expr.bound_of_bindsOutputs houtput hmem⟩
  · obtain ⟨j', hj', he⟩ := List.mem_filterMap.1 hmem
    obtain ⟨e, n, hbinds⟩ := (Join.exists_of_bindsAll hjoins hj').2 e' he
    exact ⟨_, List.take_prefix n _, .inl ⟨e, hbinds⟩⟩
  · exact ⟨_, List.prefix_rfl, .inl (Expr.exists_of_bindsOption hfilter (Option.mem_toList.1 hmem))⟩
  · exact ⟨_, List.prefix_rfl, .inl (Expr.exists_of_bindsAll hgroup hmem)⟩
  · obtain ⟨k', hk', rfl⟩ := List.mem_map.1 hmem
    exact ⟨_, List.prefix_rfl, .inl (OrderKey.exists_of_bindsAll horder hk')⟩

end Select.Binds

end Parts

/-- All references of the statement were bound in the scopes that they see. -/
def Statement.Binds (c : Catalog) : Statement → Statement → Prop
  | .select s, .select s' => s.Binds c [] s'
  | .insert s, .insert s' => List.Forall₂ (Expr.BindsAll c [[]]) s.rows s'.rows
  | .update s, .update s' => ∃ id t, c.findTable? s.table = some (id, t) ∧ s'.id = some id ∧
    List.Forall₂ (fun a a' => a.value.Binds c [t.scope] a'.value) s.assignments s'.assignments ∧
    Expr.BindsOption c [t.scope] s.filter s'.filter
  | .delete s, .delete s' => ∃ id t, c.findTable? s.table = some (id, t) ∧ s'.id = some id ∧
    Expr.BindsOption c [t.scope] s.filter s'.filter
  | .create _, .create _  => True
  | _,         _          => False

namespace Statement.Binds

variable {c : Catalog} {S : Statement}

theorem select {s' : Select} (h : S.Binds c (.select s')) : ∃ s : Select, s.Binds c [] s' := by
  cases S with
  | select s => exact ⟨s, h⟩
  | _ => cases h

/-- The values of an INSERT see no columns, in a scope of their own. -/
theorem insert {s' : Insert} (h : S.Binds c (.insert s')) {row : List Expr} (hrow : row ∈ s'.rows)
    {e : Expr} (he : e ∈ row) : e.Bound c [[]] := by
  cases S with
  | insert s =>
    obtain ⟨written, -, hbinds⟩ := exists_mem_of_forall₂ h hrow
    exact .inl (Expr.exists_of_bindsAll hbinds he)
  | _ => cases h

/-- The expressions of an UPDATE see the columns of its table. -/
theorem update {s' : Update} (h : S.Binds c (.update s')) {id : Nat} {t : Table}
    (hid : s'.id = some id) (ht : c.tables[id]? = some t) {e : Expr}
    (he : e ∈ s'.assignments.map Assignment.value ++ s'.filter.toList) : e.Bound c [t.scope] := by
  cases S with
  | update s =>
    obtain ⟨id', t', hfind, hid', hassignments, hfilter⟩ := h
    obtain rfl := Option.some.inj (hid.symm.trans hid')
    obtain rfl := Option.some.inj (ht.symm.trans (Catalog.getElem?_of_findTable? hfind))
    rcases List.mem_append.1 he with he | he
    · obtain ⟨assignment, hassignment, rfl⟩ := List.mem_map.1 he
      obtain ⟨written, -, hbinds⟩ := exists_mem_of_forall₂ hassignments hassignment
      exact .inl ⟨_, hbinds⟩
    · exact .inl (Expr.exists_of_bindsOption hfilter (Option.mem_toList.1 he))
  | _ => cases h

/-- The condition of a DELETE sees the columns of its table. -/
theorem delete {s' : Delete} (h : S.Binds c (.delete s')) {id : Nat} {t : Table}
    (hid : s'.id = some id) (ht : c.tables[id]? = some t) {e : Expr} (he : s'.filter = some e) :
    e.Bound c [t.scope] := by
  cases S with
  | delete s =>
    obtain ⟨id', t', hfind, hid', hfilter⟩ := h
    obtain rfl := Option.some.inj (hid.symm.trans hid')
    obtain rfl := Option.some.inj (ht.symm.trans (Catalog.getElem?_of_findTable? hfind))
    exact .inl (Expr.exists_of_bindsOption hfilter he)
  | _ => cases h

end Statement.Binds

/-! ### Resolving -/

variable {c : Catalog} {scopes : List Scope} {aggregates : Bool}

theorem ColumnRef.resolve_binds {r : ColumnRef} {n : Node}
    (h : r.resolve c scopes aggregates = .ok n) : (Node.column r).Binds c scopes n := by
  simp only [ColumnRef.resolve] at h
  split at h
  · cases h
  simp only [bind_eq_ok_iff] at h
  obtain ⟨found, hfound, h⟩ := h
  cases found with
  | some bound =>
    obtain rfl := Except.ok.inj h
    exact Scope.bindIn?_binds hfound
  | none =>
    obtain ⟨f, hf, rfl⟩ := map_eq_ok_iff.1 h
    exact ⟨(ColumnRef.asCall_cases hf).1, Scope.bindIn?_lacks hfound⟩

/-- A listed output is a wildcard as it was written, or was resolved and is none. -/
def Expr.Listed (c : Catalog) (scopes : List Scope) (e listed : Expr) : Prop :=
  e.isWildcard = true ∧ listed = e ∨ e.isWildcard = false ∧ listed.isWildcard = false ∧
    listed.aliasName = e.aliasName ∧ e.Binds c scopes listed

theorem Expr.resolve_aliasName {e e' : Expr} (h : e.resolve c scopes aggregates = .ok e') :
    e'.aliasName = e.aliasName := by
  obtain ⟨nodes, type, isBoolean, hasAggregate, source, aliasName, offset⟩ := e
  simp only [Expr.resolve, bind_eq_ok_iff] at h
  obtain ⟨nodes', -, type, -, h⟩ := h
  obtain rfl := Except.ok.inj h
  rfl

/-- An expanded wildcard is columns of the statement itself. -/
theorem Scope.expand_ownColumn {scope : Scope} {outer : List Scope} {r : ColumnRef}
    {columns : List Expr} (h : scope.expand r = .ok columns) :
    ∀ e ∈ columns, e.OwnColumn (scope :: outer) := by
  intro e he
  obtain ⟨i, j, source, column, hsource, hcolumn, rfl⟩ := Scope.mem_expand h he
  exact ⟨_, rfl, rfl, ⟨i, j⟩, scope, source, column, rfl, rfl, hsource, hcolumn,
    Text.sameName_refl _, rfl⟩

theorem Scope.expandAll_binds {scope : Scope} {outer : List Scope} : ∀ {es listed es' : List Expr},
    List.Forall₂ (Expr.Listed c (scope :: outer)) es listed → scope.expandAll listed = .ok es' →
    Expr.BindsOutputs c (scope :: outer) es es'
  | _, _, es', .nil, h => (Except.ok.inj h).symm
  | e :: es, l :: ls, es', .cons he hes, h => by
    obtain ⟨columns, rest, hrest, rfl, hcolumns⟩ := Scope.expandAll_cons h
    refine ⟨columns, rest, rfl, ?_, Scope.expandAll_binds hes hrest⟩
    rcases he with ⟨hwildcard, rfl⟩ | ⟨hplain, hlisted, -, hbinds⟩
    · rw [if_pos hwildcard]
      rcases hcolumns with ⟨hnone, -⟩ | ⟨-, r, hexpand⟩
      · rw [hwildcard] at hnone
        cases hnone
      · exact Scope.expand_ownColumn hexpand
    · rw [if_neg (by simp [hplain])]
      rcases hcolumns with ⟨-, rfl⟩ | ⟨hwildcard, -⟩
      · exact ⟨l, rfl, hbinds⟩
      · rw [hlisted] at hwildcard
        cases hwildcard

/-- A listed output with an alias is an output of that alias, with all references bound. -/
theorem Expr.bindsNamed_of_mem {output listed : List Expr} {l : Expr} {name : String}
    (halias : ∀ e ∈ output, e.isWildcard = true → e.aliasName = none)
    (hlisted : List.Forall₂ (Expr.Listed c scopes) output listed) (hl : l ∈ listed)
    (hname : l.aliasName.any (Text.sameName · name) = true) :
    Expr.BindsNamed c scopes name output { l with aliasName := none } := by
  induction hlisted with
  | nil => cases hl
  | @cons e l' es ls he _ ih =>
    obtain ⟨hnone, halias⟩ := List.forall_mem_cons.1 halias
    rcases List.mem_cons.1 hl with rfl | hl
    · rcases he with ⟨hwildcard, rfl⟩ | ⟨-, -, heq, hbinds⟩
      -- a wildcard has no alias to be named by
      · rw [hnone hwildcard] at hname
        cases hname
      · obtain ⟨nodes, _, _, _, _, _, _⟩ := e
        exact .inl ⟨heq ▸ hname, hbinds⟩
    · exact .inr (ih halias hl)

/-- A sort key that names a listed output stands for what this output was resolved into. -/
theorem OrderKey.namedOutput?_binds {output listed : List Expr} {key e : Expr}
    (halias : ∀ e ∈ output, e.isWildcard = true → e.aliasName = none)
    (hlisted : List.Forall₂ (Expr.Listed c scopes) output listed)
    (h : OrderKey.namedOutput? listed key = some e) :
    ∃ r, key.column? = some r ∧ r.qualifier = none ∧
      Expr.BindsNamed c scopes r.column output e := by
  obtain ⟨r, hr, hnone, found, hfound, hname, rfl⟩ := OrderKey.namedOutput?_cases h
  exact ⟨r, hr, hnone, Expr.bindsNamed_of_mem halias hlisted hfound hname⟩

mutual

theorem Expr.resolve_binds : ∀ {e e' : Expr} {scopes : List Scope} {aggregates : Bool}, e.Formed →
    e.resolve c scopes aggregates = .ok e' → e.Binds c scopes e'
  | ⟨nodes, _, _, _, _, _, _⟩, e', scopes, aggregates, hformed, h => by
    simp only [Expr.resolve, bind_eq_ok_iff] at h
    obtain ⟨nodes', hnodes, type, -, h⟩ := h
    obtain rfl := Except.ok.inj h
    exact Node.resolveAll_binds hformed hnodes

theorem Node.resolve_binds : ∀ {n n' : Node} {scopes : List Scope} {aggregates : Bool}, n.Formed →
    n.resolve c scopes aggregates = .ok n' → n.Binds c scopes n'
  | .column r, n', scopes, aggregates, _, h => ColumnRef.resolve_binds h
  | .call f, n', scopes, aggregates, hformed, h => by
    simp only [Node.resolve, bind_eq_ok_iff] at h
    obtain ⟨f', hf, h⟩ := h
    obtain rfl := Except.ok.inj h
    exact Call.resolve_binds hformed hf
  | .select s, n', scopes, aggregates, hformed, h => by
    simp only [Node.resolve, bind_eq_ok_iff] at h
    obtain ⟨s', hs, -, -, h⟩ := h
    obtain rfl := Except.ok.inj h
    exact Select.resolve_binds hformed hs
  | .operator _, n', scopes, aggregates, _, h | .openParen, n', scopes, aggregates, _, h
  | .closeParen, n', scopes, aggregates, _, h | .number _, n', scopes, aggregates, _, h
  | .text _, n', scopes, aggregates, _, h | .boolean _, n', scopes, aggregates, _, h
  | .null, n', scopes, aggregates, _, h => by
    obtain rfl := Except.ok.inj h
    exact rfl

theorem Node.resolveAll_binds : ∀ {ns ns' : List Node} {scopes : List Scope} {aggregates : Bool},
    Node.FormedAll ns → Node.resolveAll c scopes aggregates ns = .ok ns' →
    Node.BindsAll c scopes ns ns'
  | [], ns', scopes, aggregates, _, h => by
    obtain rfl := Except.ok.inj h
    trivial
  | n :: ns, ns', scopes, aggregates, hformed, h => by
    simp only [Node.resolveAll, bind_eq_ok_iff] at h
    obtain ⟨n', hn, rest, hrest, h⟩ := h
    obtain rfl := Except.ok.inj h
    exact ⟨Node.resolve_binds hformed.1 hn, Node.resolveAll_binds hformed.2 hrest⟩

theorem Call.resolve_binds : ∀ {f f' : Call} {scopes : List Scope} {aggregates : Bool}, f.Formed →
    f.resolve c scopes aggregates = .ok f' → f.Binds c scopes f'
  | ⟨function, arguments, _, _, _, _⟩, f', scopes, aggregates, hformed, h => by
    simp only [Call.resolve] at h
    split at h
    · cases h
    simp only [bind_eq_ok_iff] at h
    obtain ⟨arguments', harguments, h⟩ := h
    rw [Call.Binds, (Call.choose_cases h).1]
    exact Expr.resolveAll_binds hformed harguments

theorem Expr.resolveAll_binds : ∀ {es es' : List Expr} {scopes : List Scope} {aggregates : Bool},
    Expr.FormedAll es → Expr.resolveAll c scopes aggregates es = .ok es' →
    Expr.BindsAll c scopes es es'
  | [], es', scopes, aggregates, _, h => by
    obtain rfl := Except.ok.inj h
    trivial
  | e :: es, es', scopes, aggregates, hformed, h => by
    simp only [Expr.resolveAll, bind_eq_ok_iff] at h
    obtain ⟨e', he, rest, hrest, h⟩ := h
    obtain rfl := Except.ok.inj h
    exact ⟨Expr.resolve_binds hformed.1 he, Expr.resolveAll_binds hformed.2 hrest⟩

theorem Expr.resolveOutputs_listed : ∀ {es listed : List Expr} {scopes : List Scope},
    Expr.FormedAll es → Expr.resolveOutputs c scopes es = .ok listed →
    List.Forall₂ (Expr.Listed c scopes) es listed
  | [], listed, scopes, _, h => by
    obtain rfl := Except.ok.inj h
    exact .nil
  | e :: es, listed, scopes, hformed, h => by
    simp only [Expr.resolveOutputs] at h
    split at h
    next hwildcard =>
      simp only [ok_bind, bind_eq_ok_iff] at h
      obtain ⟨rest, hrest, h⟩ := h
      obtain rfl := Except.ok.inj h
      exact .cons (.inl ⟨hwildcard, rfl⟩) (Expr.resolveOutputs_listed hformed.2 hrest)
    next hplain =>
      simp only [bind_eq_ok_iff] at h
      obtain ⟨e', he, rest, hrest, h⟩ := h
      obtain rfl := Except.ok.inj h
      refine .cons (.inr ⟨by simpa using hplain, ?_, ?_, ?_⟩)
        (Expr.resolveOutputs_listed hformed.2 hrest)
      · exact Expr.isWildcard_of_contains (Expr.resolve_plain he).2
      · exact Expr.resolve_aliasName he
      · exact Expr.resolve_binds hformed.1 he

theorem Expr.resolveFilter_binds : ∀ {filter filter' : Option Expr} {scopes : List Scope},
    Expr.FormedOption filter → Expr.resolveFilter c scopes filter = .ok filter' →
    Expr.BindsOption c scopes filter filter'
  | none, filter', scopes, _, h => by
    obtain rfl := Except.ok.inj h
    trivial
  | some e, filter', scopes, hformed, h => by
    simp only [Expr.resolveFilter, bind_eq_ok_iff] at h
    obtain ⟨e', he, -, -, h⟩ := h
    obtain rfl := Except.ok.inj h
    exact Expr.resolve_binds hformed he

theorem Source.resolve_binds : ∀ {s s' : Source} {scopes : List Scope}, s.Formed →
    s.resolve c scopes = .ok s' → s.Binds c scopes s'
  | .table name aliasName id offset, s', scopes, _, h => by
    simp only [Source.resolve] at h
    split at h
    next i t hfind =>
      obtain rfl := Except.ok.inj h
      exact ⟨rfl, rfl, i, t, hfind, rfl⟩
    next => cases h
  | .select s aliasName offset, s', scopes, hformed, h => by
    simp only [Source.resolve, bind_eq_ok_iff] at h
    obtain ⟨q, hq, h⟩ := h
    obtain rfl := Except.ok.inj h
    exact ⟨rfl, Select.resolve_binds hformed hq⟩

theorem Source.resolveOption_binds : ∀ {s s' : Option Source} {scopes : List Scope},
    Source.FormedOption s → Source.resolveOption c scopes s = .ok s' →
    Source.BindsOption c scopes s s'
  | none, s', scopes, _, h => by
    obtain rfl := Except.ok.inj h
    trivial
  | some s, s', scopes, hformed, h => by
    simp only [Source.resolveOption, bind_eq_ok_iff] at h
    obtain ⟨q, hq, h⟩ := h
    obtain rfl := Except.ok.inj h
    exact Source.resolve_binds hformed hq

theorem Join.resolve_binds : ∀ {js joined : List Join} {scope : Scope} {outer : List Scope}
    {visible : Nat} {es : List Expr}, Join.FormedAll js →
    Join.resolveSources c outer js = .ok joined →
    Join.resolveConditions c scope outer visible js = .ok es →
    Join.BindsAll c scope outer visible js
      (joined.zipWith (fun j e => { j with condition := some e }) es)
  | [], joined, scope, outer, visible, es, _, h, hes => by
    obtain rfl := Except.ok.inj h
    trivial
  | ⟨source, kind, none⟩ :: js, joined, scope, outer, visible, es, _, _, h => by cases h
  | ⟨source, kind, some condition⟩ :: js, joined, scope, outer, visible, es, hformed, h, hes => by
    simp only [Join.resolveSources, bind_eq_ok_iff] at h
    obtain ⟨source', hsource, rest, hrest, h⟩ := h
    obtain rfl := Except.ok.inj h
    simp only [Join.resolveConditions, bind_eq_ok_iff] at hes
    obtain ⟨e, he, -, -, more, hmore, hes⟩ := hes
    obtain rfl := Except.ok.inj hes
    exact ⟨Source.resolve_binds hformed.1 hsource, Expr.resolve_binds hformed.2.1 he,
      Join.resolve_binds hformed.2.2 hrest hmore⟩

theorem OrderKey.resolveAll_binds : ∀ {ks ks' : List OrderKey} {scopes : List Scope}
    {output listed : List Expr}, OrderKey.FormedAll ks →
    (∀ e ∈ output, e.isWildcard = true → e.aliasName = none) →
    List.Forall₂ (Expr.Listed c scopes) output listed →
    OrderKey.resolveAll c scopes listed ks = .ok ks' →
    OrderKey.BindsAll c scopes (Expr.BindsNamed c scopes · output) ks ks'
  | [], ks', scopes, output, listed, _, _, _, h => by
    obtain rfl := Except.ok.inj h
    trivial
  | ⟨e, ascending⟩ :: ks, ks', scopes, output, listed, hformed, halias, hlisted, h => by
    simp only [OrderKey.resolveAll] at h
    split at h
    next named hnamed =>
      simp only [ok_bind, bind_eq_ok_iff] at h
      obtain ⟨rest, hrest, h⟩ := h
      obtain rfl := Except.ok.inj h
      exact ⟨.inr (OrderKey.namedOutput?_binds halias hlisted hnamed),
        OrderKey.resolveAll_binds hformed.2 halias hlisted hrest⟩
    next =>
      simp only [bind_eq_ok_iff] at h
      obtain ⟨e', he, rest, hrest, h⟩ := h
      obtain rfl := Except.ok.inj h
      exact ⟨.inl (Expr.resolve_binds hformed.1 he),
        OrderKey.resolveAll_binds hformed.2 halias hlisted hrest⟩

theorem Select.resolve_binds : ∀ {s s' : Select} {outer : List Scope}, s.Formed →
    s.resolve c outer = .ok s' → s.Binds c outer s'
  | ⟨text, distinct, output, origin, joins, filter, groupBy, orderBy, limit, offset⟩, s', outer,
      hformed, h => by
    obtain ⟨hfOutput, hfAlias, hfOrigin, hfJoins, -, hfFilter, hfGroup, hfOrder⟩ := hformed
    obtain ⟨scope, joined, conditions, listed, hresolves⟩ := Select.resolve_eq_ok h
    have hlisted := Expr.resolveOutputs_listed hfOutput hresolves.outputs
    have hjoins := Join.resolve_binds hfJoins hresolves.sources hresolves.conditions
    rw [← hresolves.joins] at hjoins
    simp only [Select.Binds, hresolves.scope_eq]
    exact ⟨Source.resolveOption_binds hfOrigin hresolves.origin, hjoins,
      Scope.expandAll_binds hlisted hresolves.output,
      Expr.resolveFilter_binds hfFilter hresolves.filter,
      Expr.resolveAll_binds hfGroup hresolves.groupBy,
      OrderKey.resolveAll_binds hfOrder hfAlias hlisted hresolves.orderBy⟩

end

/-- The values of a row are all bound, when there is a position for each. -/
theorem Insert.resolveRow_binds {t : Table} : ∀ {positions : List Nat} {es es' : List Expr},
    Expr.FormedAll es → es.length = positions.length →
    Insert.resolveRow c t positions es = .ok es' → Expr.BindsAll c [[]] es es'
  | [], [], es', _, _, h => by
    obtain rfl := Except.ok.inj h
    trivial
  | i :: positions, e :: es, es', hformed, hlen, h => by
    simp only [Insert.resolveRow, bind_eq_ok_iff] at h
    obtain ⟨e', he, -, -, rest, hrest, h⟩ := h
    obtain rfl := Except.ok.inj h
    exact ⟨Expr.resolve_binds hformed.1 he,
      Insert.resolveRow_binds hformed.2 (Nat.succ.inj hlen) hrest⟩

theorem Insert.resolve_binds {s s' : Insert} (hformed : (Statement.insert s).Formed)
    (h : s.resolve c = .ok s') : (Statement.insert s).Binds c (.insert s') := by
  obtain ⟨id, t, -, -, -, hrows⟩ := Insert.resolve_eq_ok h
  refine List.forall₂_iff_get.2 ⟨hrows.length_eq, fun i hi hi' => ?_⟩
  obtain ⟨hlen, hresolve⟩ := hrows.get hi hi'
  exact Insert.resolveRow_binds (hformed _ (List.get_mem _ _)) hlen hresolve

theorem Update.resolve_binds {s s' : Update} (hformed : (Statement.update s).Formed)
    (h : s.resolve c = .ok s') : (Statement.update s).Binds c (.update s') := by
  obtain ⟨id, t, htable, hid, hassignments, hfilter⟩ := Update.resolve_eq_ok h
  refine ⟨id, t, htable, hid, ?_, Expr.resolveFilter_binds hformed.2 hfilter⟩
  refine List.forall₂_iff_get.2 ⟨hassignments.length_eq, fun i hi hi' => ?_⟩
  obtain ⟨-, hvalue, -⟩ := Assignment.resolve_eq_ok (hassignments.get hi hi')
  exact Expr.resolve_binds (hformed.1 _ (List.get_mem _ _)) hvalue

theorem Delete.resolve_binds {s s' : Delete} (hformed : (Statement.delete s).Formed)
    (h : s.resolve c = .ok s') : (Statement.delete s).Binds c (.delete s') := by
  obtain ⟨id, t, htable, hid, hfilter⟩ := Delete.resolve_eq_ok h
  exact ⟨id, t, htable, hid, Expr.resolveFilter_binds hformed hfilter⟩

/-- **Resolving binds all references of a statement**, each in the innermost of the scopes that it
sees with a match for it. -/
theorem Statement.resolve_binds {s s' : Statement} (hformed : s.Formed)
    (h : s.resolve c = .ok s') : s.Binds c s' := by
  cases s with
  | select s =>
    simp only [Statement.resolve, bind_eq_ok_iff] at h
    obtain ⟨q, hq, h⟩ := h
    obtain rfl := Except.ok.inj h
    exact Select.resolve_binds hformed hq
  | insert s =>
    simp only [Statement.resolve, bind_eq_ok_iff] at h
    obtain ⟨q, hq, h⟩ := h
    obtain rfl := Except.ok.inj h
    exact Insert.resolve_binds hformed hq
  | update s =>
    simp only [Statement.resolve, bind_eq_ok_iff] at h
    obtain ⟨q, hq, h⟩ := h
    obtain rfl := Except.ok.inj h
    exact Update.resolve_binds hformed hq
  | delete s =>
    simp only [Statement.resolve, bind_eq_ok_iff] at h
    obtain ⟨q, hq, h⟩ := h
    obtain rfl := Except.ok.inj h
    exact Delete.resolve_binds hformed hq
  | create s =>
    simp only [Statement.resolve, bind_eq_ok_iff] at h
    obtain ⟨q, -, h⟩ := h
    obtain rfl := Except.ok.inj h
    trivial

end SqlEngine
