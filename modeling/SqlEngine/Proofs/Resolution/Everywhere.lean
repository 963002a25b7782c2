import SqlEngine.Proofs.Lists
import SqlEngine.Proofs.Resolution.Statement
import SqlEngine.Proofs.Statement.Everywhere

/-!
# Resolution — properties of all parts

What resolving an expression, a call or a SELECT ensures of its result holds of every expression,
call and SELECT in a resolved statement.  Not every expression there was resolved from one that
stands in the text: a wildcard has columns in its place, a sort key that names an output is a copy
of the output, and a bare name may have become a call.

* `Statement.resolve_everywhere`: what resolving ensures of each part holds of all parts.
-/

namespace SqlEngine

variable {c : Catalog} {L : Local}

/-- Resolving ensures the property of what it gives, each step of its own result. -/
structure Catalog.Ensures (c : Catalog) (L : Local) : Prop where
  resolved : ∀ {e e' : Expr} {scopes : List Scope} {aggregates : Bool},
    e.resolve c scopes aggregates = .ok e' → L.expr e'
  expanded : ∀ {scope : Scope} {r : ColumnRef} {columns : List Expr},
    scope.expand r = .ok columns → ∀ e ∈ columns, L.expr e
  unnamed : ∀ {e : Expr}, L.expr e → L.expr { e with aliasName := none }
  call : ∀ {f f' : Call} {scopes : List Scope} {aggregates : Bool},
    f.resolve c scopes aggregates = .ok f' → L.call f'
  bare : ∀ {r : ColumnRef} {f : Call} {aggregates : Bool},
    r.asCall c aggregates = .ok f → L.call f
  select : ∀ {s s' : Select} {outer : List Scope} {scope : Scope} {joined : List Join}
    {conditions listed : List Expr}, s.Formed →
    Select.Resolves c outer s s' scope joined conditions listed → L.select s'

/-- An output with the property everywhere, or a wildcard without alias that is expanded later. -/
def Expr.EverywhereOutput (L : Local) (e : Expr) : Prop :=
  e.isWildcard = true ∧ e.aliasName = none ∨ e.Everywhere L

/-! ### Calls -/

/-- What choosing an overload says of a call. -/
theorem Call.choose_cases {id : Nat} {f : Function} {aggregates : Bool} {call call' : Call}
    (h : Call.choose id f aggregates call = .ok call') :
    call'.arguments = call.arguments ∧ (∃ o, call'.target = some o) ∧
      (call'.isAggregate = true → aggregates = true ∧ f.hasAggregate = true) := by
  simp only [Call.choose] at h
  split at h
  · cases h
  split at h
  · cases h
  next v hv =>
    split at h
    · cases h
    next hallowed =>
      obtain rfl := Except.ok.inj h
      refine ⟨rfl, ⟨_, rfl⟩, fun haggregate => ⟨?_, ?_⟩⟩
      · simpa [show v.isAggregate = true from haggregate] using hallowed
      · exact List.any_eq_true.2 ⟨v, List.mem_of_getElem? hv, haggregate⟩

/-- The call of a function by its bare name has no arguments. -/
theorem ColumnRef.asCall_cases {aggregates : Bool} {r : ColumnRef} {f : Call}
    (h : r.asCall c aggregates = .ok f) :
    f.arguments = [] ∧ (∃ o, f.target = some o) ∧ (f.isAggregate = true → aggregates = true) := by
  simp only [ColumnRef.asCall] at h
  split at h
  · cases h
  split at h
  · cases h
  split at h
  · obtain ⟨harguments, htarget, haggregate⟩ := Call.choose_cases h
    exact ⟨harguments, htarget, fun h => (haggregate h).1⟩
  · cases h

theorem ColumnRef.resolve_everywhere (hL : c.Ensures L) {scopes : List Scope} {aggregates : Bool}
    {r : ColumnRef} {n : Node} (h : r.resolve c scopes aggregates = .ok n) : n.Everywhere L := by
  simp only [ColumnRef.resolve] at h
  split at h
  · cases h
  simp only [bind_eq_ok_iff] at h
  obtain ⟨found, -, h⟩ := h
  cases found with
  | some bound =>
    obtain rfl := Except.ok.inj h
    trivial
  | none =>
    obtain ⟨f, hf, rfl⟩ := map_eq_ok_iff.1 h
    refine Call.everywhere_mk (hL.bare hf) ?_
    rw [(ColumnRef.asCall_cases hf).1]
    trivial

/-! ### Outputs -/

theorem Scope.expandAll_everywhere (hL : c.Ensures L) {scope : Scope} : ∀ {es es' : List Expr},
    (∀ e ∈ es, e.EverywhereOutput L) → scope.expandAll es = .ok es' → Expr.EverywhereAll L es'
  | [], es', _, h => by
    obtain rfl := Except.ok.inj h
    trivial
  | e :: es, es', houtput, h => by
    obtain ⟨he, hes⟩ := List.forall_mem_cons.1 houtput
    obtain ⟨columns, rest, hrest, rfl, hcolumns⟩ := Scope.expandAll_cons h
    have hmore := Expr.everywhereAll_iff.1 (Scope.expandAll_everywhere hL hes hrest)
    refine Expr.everywhereAll_iff.2 (List.forall_mem_append.2 ⟨?_, hmore⟩)
    rcases hcolumns with ⟨hplain, rfl⟩ | ⟨-, r, hexpand⟩
    · rcases he with ⟨hwildcard, -⟩ | he
      · rw [hplain] at hwildcard
        cases hwildcard
      · exact fun e' he' => List.mem_singleton.1 he' ▸ he
    · intro e' he'
      refine Expr.everywhere_mk (hL.expanded hexpand e' he') ?_
      obtain ⟨_, _, _, _, -, -, rfl⟩ := Scope.mem_expand hexpand he'
      exact ⟨trivial, trivial⟩

theorem OrderKey.namedOutput?_everywhere (hL : c.Ensures L) {output : List Expr} {key e : Expr}
    (houtput : ∀ e ∈ output, e.EverywhereOutput L)
    (h : OrderKey.namedOutput? output key = some e) : e.Everywhere L := by
  obtain ⟨r, -, -, found, hfound, halias, rfl⟩ := OrderKey.namedOutput?_cases h
  rcases houtput found hfound with ⟨-, hnone⟩ | hfound'
  · rw [hnone] at halias
    cases halias
  · exact Expr.everywhere_mk (hL.unnamed hfound'.self) hfound'.nodes

/-! ### Resolving -/

mutual

theorem Expr.resolve_everywhere (hL : c.Ensures L) : ∀ {e e' : Expr} {scopes : List Scope}
    {aggregates : Bool}, e.Formed → e.resolve c scopes aggregates = .ok e' → e'.Everywhere L
  | ⟨nodes, _, _, _, _, _, _⟩, e', scopes, aggregates, hformed, h => by
    have he := hL.resolved h
    simp only [Expr.resolve, bind_eq_ok_iff] at h
    obtain ⟨nodes', hnodes, type, -, h⟩ := h
    obtain rfl := Except.ok.inj h
    exact ⟨he, Node.resolveAll_everywhere hL hformed hnodes⟩

theorem Node.resolve_everywhere (hL : c.Ensures L) : ∀ {n n' : Node} {scopes : List Scope}
    {aggregates : Bool}, n.Formed → n.resolve c scopes aggregates = .ok n' → n'.Everywhere L
  | .column r, n', scopes, aggregates, _, h => ColumnRef.resolve_everywhere hL h
  | .call f, n', scopes, aggregates, hformed, h => by
    simp only [Node.resolve, bind_eq_ok_iff] at h
    obtain ⟨f', hf, h⟩ := h
    obtain rfl := Except.ok.inj h
    exact Call.resolve_everywhere hL hformed hf
  | .select s, n', scopes, aggregates, hformed, h => by
    simp only [Node.resolve, bind_eq_ok_iff] at h
    obtain ⟨s', hs, -, -, h⟩ := h
    obtain rfl := Except.ok.inj h
    exact Select.resolve_everywhere hL hformed hs
  | .operator _, n', scopes, aggregates, _, h | .openParen, n', scopes, aggregates, _, h
  | .closeParen, n', scopes, aggregates, _, h | .number _, n', scopes, aggregates, _, h
  | .text _, n', scopes, aggregates, _, h | .boolean _, n', scopes, aggregates, _, h
  | .null, n', scopes, aggregates, _, h => by
    obtain rfl := Except.ok.inj h
    trivial

theorem Node.resolveAll_everywhere (hL : c.Ensures L) : ∀ {ns ns' : List Node}
    {scopes : List Scope} {aggregates : Bool}, Node.FormedAll ns →
    Node.resolveAll c scopes aggregates ns = .ok ns' → Node.EverywhereAll L ns'
  | [], ns', scopes, aggregates, _, h => by
    obtain rfl := Except.ok.inj h
    trivial
  | n :: ns, ns', scopes, aggregates, hformed, h => by
    simp only [Node.resolveAll, bind_eq_ok_iff] at h
    obtain ⟨n', hn, rest, hrest, h⟩ := h
    obtain rfl := Except.ok.inj h
    exact ⟨Node.resolve_everywhere hL hformed.1 hn,
      Node.resolveAll_everywhere hL hformed.2 hrest⟩

theorem Call.resolve_everywhere (hL : c.Ensures L) : ∀ {f f' : Call} {scopes : List Scope}
    {aggregates : Bool}, f.Formed → f.resolve c scopes aggregates = .ok f' → f'.Everywhere L
  | ⟨function, arguments, _, _, _, _⟩, f', scopes, aggregates, hformed, h => by
    have hf := hL.call h
    simp only [Call.resolve] at h
    split at h
    · cases h
    simp only [bind_eq_ok_iff] at h
    obtain ⟨arguments', harguments, h⟩ := h
    refine Call.everywhere_mk hf ?_
    rw [(Call.choose_cases h).1]
    exact Expr.resolveAll_everywhere hL hformed harguments

theorem Expr.resolveAll_everywhere (hL : c.Ensures L) : ∀ {es es' : List Expr}
    {scopes : List Scope} {aggregates : Bool}, Expr.FormedAll es →
    Expr.resolveAll c scopes aggregates es = .ok es' → Expr.EverywhereAll L es'
  | [], es', scopes, aggregates, _, h => by
    obtain rfl := Except.ok.inj h
    trivial
  | e :: es, es', scopes, aggregates, hformed, h => by
    simp only [Expr.resolveAll, bind_eq_ok_iff] at h
    obtain ⟨e', he, rest, hrest, h⟩ := h
    obtain rfl := Except.ok.inj h
    exact ⟨Expr.resolve_everywhere hL hformed.1 he,
      Expr.resolveAll_everywhere hL hformed.2 hrest⟩

theorem Expr.resolveOutputs_everywhere (hL : c.Ensures L) : ∀ {es es' : List Expr}
    {scopes : List Scope}, Expr.FormedAll es →
    (∀ e ∈ es, e.isWildcard = true → e.aliasName = none) →
    Expr.resolveOutputs c scopes es = .ok es' → ∀ e ∈ es', e.EverywhereOutput L
  | [], es', scopes, _, _, h => by
    obtain rfl := Except.ok.inj h
    exact List.forall_mem_nil _
  | e :: es, es', scopes, hformed, halias, h => by
    obtain ⟨hnone, halias⟩ := List.forall_mem_cons.1 halias
    simp only [Expr.resolveOutputs] at h
    split at h
    next hwildcard =>
      simp only [ok_bind, bind_eq_ok_iff] at h
      obtain ⟨rest, hrest, h⟩ := h
      obtain rfl := Except.ok.inj h
      exact List.forall_mem_cons.2 ⟨.inl ⟨hwildcard, hnone hwildcard⟩,
        Expr.resolveOutputs_everywhere hL hformed.2 halias hrest⟩
    next =>
      simp only [bind_eq_ok_iff] at h
      obtain ⟨e', he, rest, hrest, h⟩ := h
      obtain rfl := Except.ok.inj h
      exact List.forall_mem_cons.2 ⟨.inr (Expr.resolve_everywhere hL hformed.1 he),
        Expr.resolveOutputs_everywhere hL hformed.2 halias hrest⟩

theorem Expr.resolveFilter_everywhere (hL : c.Ensures L) : ∀ {filter filter' : Option Expr}
    {scopes : List Scope}, Expr.FormedOption filter →
    Expr.resolveFilter c scopes filter = .ok filter' → Expr.EverywhereOption L filter'
  | none, filter', scopes, _, h => by
    obtain rfl := Except.ok.inj h
    trivial
  | some e, filter', scopes, hformed, h => by
    simp only [Expr.resolveFilter, bind_eq_ok_iff] at h
    obtain ⟨e', he, -, -, h⟩ := h
    obtain rfl := Except.ok.inj h
    exact Expr.resolve_everywhere hL hformed he

theorem Source.resolve_everywhere (hL : c.Ensures L) : ∀ {s s' : Source} {scopes : List Scope},
    s.Formed → s.resolve c scopes = .ok s' → s'.Everywhere L
  | .table name aliasName id offset, s', scopes, _, h => by
    simp only [Source.resolve] at h
    split at h
    · obtain rfl := Except.ok.inj h
      trivial
    · cases h
  | .select s aliasName offset, s', scopes, hformed, h => by
    simp only [Source.resolve, bind_eq_ok_iff] at h
    obtain ⟨q, hq, h⟩ := h
    obtain rfl := Except.ok.inj h
    exact Select.resolve_everywhere hL hformed hq

theorem Source.resolveOption_everywhere (hL : c.Ensures L) : ∀ {s s' : Option Source}
    {scopes : List Scope}, Source.FormedOption s → Source.resolveOption c scopes s = .ok s' →
    Source.EverywhereOption L s'
  | none, s', scopes, _, h => by
    obtain rfl := Except.ok.inj h
    trivial
  | some s, s', scopes, hformed, h => by
    simp only [Source.resolveOption, bind_eq_ok_iff] at h
    obtain ⟨q, hq, h⟩ := h
    obtain rfl := Except.ok.inj h
    exact Source.resolve_everywhere hL hformed hq

theorem Join.resolve_everywhere (hL : c.Ensures L) : ∀ {js joined : List Join} {scope : Scope}
    {outer : List Scope} {visible : Nat} {es : List Expr}, Join.FormedAll js →
    Join.resolveSources c outer js = .ok joined →
    Join.resolveConditions c scope outer visible js = .ok es →
    Join.EverywhereAll L (joined.zipWith (fun j e => { j with condition := some e }) es)
  | [], joined, scope, outer, visible, es, _, h, _ => by
    obtain rfl := Except.ok.inj h
    trivial
  | ⟨source, kind, none⟩ :: js, joined, scope, outer, visible, es, _, _, h => by cases h
  | ⟨source, kind, some condition⟩ :: js, joined, scope, outer, visible, es, hformed, h, hes => by
    simp only [Join.resolveSources, bind_eq_ok_iff] at h
    obtain ⟨source', hsource, rest, hrest, h⟩ := h
    obtain rfl := Except.ok.inj h
    simp only [Join.resolveConditions, bind_eq_ok_iff] at hes
    obtain ⟨e, he, -, -, more, hmore, hes⟩ := hes
    obtain rfl := Except.ok.inj hes
    exact ⟨Source.resolve_everywhere hL hformed.1 hsource,
      Expr.resolve_everywhere hL hformed.2.1 he, Join.resolve_everywhere hL hformed.2.2 hrest hmore⟩

theorem OrderKey.resolveAll_everywhere (hL : c.Ensures L) : ∀ {ks ks' : List OrderKey}
    {scopes : List Scope} {output : List Expr}, OrderKey.FormedAll ks →
    (∀ e ∈ output, e.EverywhereOutput L) →
    OrderKey.resolveAll c scopes output ks = .ok ks' → OrderKey.EverywhereAll L ks'
  | [], ks', scopes, output, _, _, h => by
    obtain rfl := Except.ok.inj h
    trivial
  | ⟨e, ascending⟩ :: ks, ks', scopes, output, hformed, houtput, h => by
    simp only [OrderKey.resolveAll] at h
    split at h
    next named hnamed =>
      simp only [ok_bind, bind_eq_ok_iff] at h
      obtain ⟨rest, hrest, h⟩ := h
      obtain rfl := Except.ok.inj h
      exact ⟨OrderKey.namedOutput?_everywhere hL houtput hnamed,
        OrderKey.resolveAll_everywhere hL hformed.2 houtput hrest⟩
    next =>
      simp only [bind_eq_ok_iff] at h
      obtain ⟨e', he, rest, hrest, h⟩ := h
      obtain rfl := Except.ok.inj h
      exact ⟨Expr.resolve_everywhere hL hformed.1 he,
        OrderKey.resolveAll_everywhere hL hformed.2 houtput hrest⟩

theorem Select.resolve_everywhere (hL : c.Ensures L) : ∀ {s s' : Select} {outer : List Scope},
    s.Formed → s.resolve c outer = .ok s' → s'.Everywhere L
  | ⟨text, distinct, output, origin, joins, filter, groupBy, orderBy, limit, offset⟩, s', outer,
      hformed, h => by
    obtain ⟨scope, joined, conditions, listed, hresolves⟩ := Select.resolve_eq_ok h
    have hs := hL.select hformed hresolves
    obtain ⟨hfOutput, hfAlias, hfOrigin, hfJoins, -, hfFilter, hfGroup, hfOrder⟩ := hformed
    obtain ⟨text', distinct', output', origin', joins', filter', groupBy', orderBy', limit',
      offset'⟩ := s'
    obtain ⟨-, hjoins, horigin, hsources, hconditions, houtputs, hfilter, hgroup, horder,
      houtput⟩ := hresolves
    have hlisted := Expr.resolveOutputs_everywhere hL hfOutput hfAlias houtputs
    have hjoined := Join.resolve_everywhere hL hfJoins hsources hconditions
    rw [← show joins' = _ from hjoins] at hjoined
    exact ⟨hs, Scope.expandAll_everywhere hL hlisted houtput,
      Source.resolveOption_everywhere hL hfOrigin horigin, hjoined,
      Expr.resolveFilter_everywhere hL hfFilter hfilter,
      Expr.resolveAll_everywhere hL hfGroup hgroup,
      OrderKey.resolveAll_everywhere hL hfOrder hlisted horder⟩

end

theorem Insert.resolveRow_everywhere (hL : c.Ensures L) {t : Table} : ∀ {positions : List Nat}
    {es es' : List Expr}, Expr.FormedAll es → Insert.resolveRow c t positions es = .ok es' →
    Expr.EverywhereAll L es'
  | [], es, es', _, h | _ :: _, [], es', _, h => by
    obtain rfl := Except.ok.inj h
    trivial
  | i :: positions, e :: es, es', hformed, h => by
    simp only [Insert.resolveRow, bind_eq_ok_iff] at h
    obtain ⟨e', he, -, -, rest, hrest, h⟩ := h
    obtain rfl := Except.ok.inj h
    exact ⟨Expr.resolve_everywhere hL hformed.1 he,
      Insert.resolveRow_everywhere hL hformed.2 hrest⟩

/-- **What resolving ensures holds everywhere** in a resolved statement. -/
theorem Statement.resolve_everywhere (hL : c.Ensures L) {written s : Statement}
    (hformed : written.Formed) (h : written.resolve c = .ok s) : s.Everywhere L := by
  cases written with
  | select q =>
    obtain ⟨q', hq, h⟩ := bind_eq_ok_iff.1 h
    obtain rfl := Except.ok.inj h
    exact Select.resolve_everywhere hL hformed hq
  | insert q =>
    obtain ⟨q', hq, h⟩ := bind_eq_ok_iff.1 h
    obtain rfl := Except.ok.inj h
    obtain ⟨_, t, -, -, -, hrows⟩ := Insert.resolve_eq_ok hq
    intro row hrow
    obtain ⟨row', hrow', -, hresolved⟩ := exists_mem_of_forall₂ hrows hrow
    exact Insert.resolveRow_everywhere hL (hformed row' hrow') hresolved
  | update q =>
    obtain ⟨q', hq, h⟩ := bind_eq_ok_iff.1 h
    obtain rfl := Except.ok.inj h
    obtain ⟨_, t, -, -, hassignments, hfilter⟩ := Update.resolve_eq_ok hq
    refine ⟨fun a ha => ?_, Expr.resolveFilter_everywhere hL hformed.2 hfilter⟩
    obtain ⟨a', ha', hresolved⟩ := exists_mem_of_forall₂ hassignments ha
    exact Expr.resolve_everywhere hL (hformed.1 a' ha') (Assignment.resolve_eq_ok hresolved).2.1
  | delete q =>
    obtain ⟨q', hq, h⟩ := bind_eq_ok_iff.1 h
    obtain rfl := Except.ok.inj h
    obtain ⟨_, t, -, -, hfilter⟩ := Delete.resolve_eq_ok hq
    exact Expr.resolveFilter_everywhere hL hformed hfilter
  | create q =>
    obtain ⟨q', -, h⟩ := bind_eq_ok_iff.1 h
    obtain rfl := Except.ok.inj h
    trivial

/-- **What resolving ensures holds everywhere** in a statement that is prepared. -/
theorem Statement.prepare_everywhere (hL : c.Ensures L) {o : ParserOptions} {text : String}
    {s : Statement} (h : Statement.prepare o c text = .ok s) : s.Everywhere L := by
  obtain ⟨written, hparse, h⟩ := bind_eq_ok_iff.1 h
  exact Statement.resolve_everywhere hL (Statement.parse_formed hparse) h

end SqlEngine
