import SqlEngine.Proofs.Number
import SqlEngine.Proofs.Resolution.Expansion
import SqlEngine.Proofs.Resolution.Places
import SqlEngine.Proofs.Statement.Literals

/-!
# Resolution — expressions of the current rows

An expression is *steady* when its value depends on the current rows alone: it has no aggregates, no
functions of the output row and no sub-selects (`Local.steady`).  It is resolved alike whether
aggregates are allowed or not.  In a scope whose sources go by different names, the names in a
resolved steady expression say what its parts were bound to (`Local.settled`).

* `Expr.resolve_row_of_steady`: a steady expression may stand where aggregates may not.
* `Expr.resolve_settled`: what a steady expression is resolved to.
* `Expr.same_of_settled`: a settled expression is the same at other places.
-/

namespace SqlEngine

variable {c : Catalog} {scopes : List Scope} {scope : Scope} {aggregates : Bool}

/-! ### Steady expressions -/

/-- The call is that of a scalar function, and not of one that reads the output row. -/
structure Call.Steady (c : Catalog) (f : Call) : Prop where
  scalar : f.isAggregate = false
  rowless : ∀ o v, f.target = some o → c.variant? o = some v →
    v.implementation ≠ .scalar .rowNumber ∧ v.implementation ≠ .scalar .rowId

/-- Every expression, call and SELECT depends on the current rows alone.  The negative zero, which
equals the positive one, is not among the literals. -/
def Local.steady (c : Catalog) : Local :=
  ⟨fun e => ∀ n ∈ e.nodes, n.Numbers (· ≠ -0), Call.Steady c, fun _ => False⟩

theorem Select.not_steady : ∀ {s : Select}, ¬ s.Everywhere (.steady c)
  | ⟨_, _, _, _, _, _, _, _, _, _⟩, ⟨h, _⟩ => h

/-! ### Where aggregates may not stand -/

theorem Call.choose_scalar {id : Nat} {f : Function} {call call' : Call}
    (h : Call.choose id f aggregates call = .ok call') (hscalar : call'.isAggregate = false) :
    Call.choose id f false call = .ok call' := by
  simp only [Call.choose] at h ⊢
  split at h
  · cases h
  split at h
  · cases h
  next v hv =>
    split at h
    · cases h
    · obtain rfl := Except.ok.inj h
      rw [if_neg]
      rw [show v.isAggregate = false from hscalar]
      exact Bool.false_ne_true

theorem ColumnRef.asCall_scalar {r : ColumnRef} {f : Call} (h : r.asCall c aggregates = .ok f)
    (hscalar : f.isAggregate = false) : r.asCall c false = .ok f := by
  simp only [ColumnRef.asCall] at h ⊢
  split at h
  · cases h
  next hqualifier =>
    rw [if_neg hqualifier]
    split at h
    · cases h
    next id g hfind =>
      split at h
      next hempty => rw [if_pos hempty]; exact Call.choose_scalar h hscalar
      next => cases h

theorem ColumnRef.resolve_row_of_steady {r : ColumnRef} {n : Node}
    (h : r.resolve c scopes aggregates = .ok n) (hn : n.Everywhere (.steady c)) :
    r.resolve c scopes false = .ok n := by
  simp only [ColumnRef.resolve] at h ⊢
  split at h
  · cases h
  next hwildcard =>
    rw [if_neg hwildcard]
    obtain ⟨found, hfound, h⟩ := bind_eq_ok_iff.1 h
    rw [hfound, ok_bind]
    cases found with
    | some bound => exact h
    | none =>
      obtain ⟨f, hf, rfl⟩ := map_eq_ok_iff.1 h
      obtain ⟨_, _, _, _, _, _⟩ := f
      exact map_eq_ok_iff.2 ⟨_, ColumnRef.asCall_scalar hf hn.1.scalar, rfl⟩

mutual

/-- **A steady expression may stand where aggregates may not.** -/
theorem Expr.resolve_row_of_steady : ∀ {e e' : Expr} {aggregates : Bool},
    e.resolve c scopes aggregates = .ok e' → e'.Everywhere (.steady c) →
    e.resolve c scopes false = .ok e'
  | ⟨nodes, _, _, _, _, _, _⟩, e', aggregates, h, he => by
    simp only [Expr.resolve, bind_eq_ok_iff] at h ⊢
    obtain ⟨nodes', hnodes, type, htype, h⟩ := h
    obtain rfl := Except.ok.inj h
    exact ⟨nodes', Node.resolveAll_row_of_steady hnodes he.2, type, htype, rfl⟩

theorem Node.resolve_row_of_steady : ∀ {n n' : Node} {aggregates : Bool},
    n.resolve c scopes aggregates = .ok n' → n'.Everywhere (.steady c) →
    n.resolve c scopes false = .ok n'
  | .column r, n', aggregates, h, hn => ColumnRef.resolve_row_of_steady h hn
  | .call f, n', aggregates, h, hn => by
    simp only [Node.resolve, bind_eq_ok_iff] at h ⊢
    obtain ⟨f', hf, h⟩ := h
    obtain rfl := Except.ok.inj h
    exact ⟨f', Call.resolve_row_of_steady hf hn, rfl⟩
  | .select s, n', aggregates, h, _ => h
  | .operator _, n', aggregates, h, _ | .openParen, n', aggregates, h, _
  | .closeParen, n', aggregates, h, _ | .number _, n', aggregates, h, _
  | .text _, n', aggregates, h, _ | .boolean _, n', aggregates, h, _ | .null, n', aggregates, h, _ =>
    h

theorem Node.resolveAll_row_of_steady : ∀ {ns ns' : List Node} {aggregates : Bool},
    Node.resolveAll c scopes aggregates ns = .ok ns' → Node.EverywhereAll (.steady c) ns' →
    Node.resolveAll c scopes false ns = .ok ns'
  | [], ns', aggregates, h, _ => h
  | n :: ns, ns', aggregates, h, hns => by
    simp only [Node.resolveAll, bind_eq_ok_iff] at h ⊢
    obtain ⟨n', hn, rest, hrest, h⟩ := h
    obtain rfl := Except.ok.inj h
    exact ⟨n', Node.resolve_row_of_steady hn hns.1, rest,
      Node.resolveAll_row_of_steady hrest hns.2, rfl⟩

theorem Call.resolve_row_of_steady : ∀ {f f' : Call} {aggregates : Bool},
    f.resolve c scopes aggregates = .ok f' → f'.Everywhere (.steady c) →
    f.resolve c scopes false = .ok f'
  | ⟨function, arguments, _, _, _, _⟩, f', aggregates, h, hf => by
    simp only [Call.resolve] at h ⊢
    split at h
    · cases h
    next id g hfind =>
      obtain ⟨arguments', harguments, h⟩ := bind_eq_ok_iff.1 h
      obtain ⟨function', resolved, target, type, isAggregate, offset⟩ := f'
      obtain rfl : resolved = arguments' := (Call.choose_cases h).1
      refine bind_eq_ok_iff.2 ⟨resolved, ?_, Call.choose_scalar h hf.1.scalar⟩
      exact Expr.resolveAll_row_of_steady harguments hf.2

theorem Expr.resolveAll_row_of_steady : ∀ {es es' : List Expr} {aggregates : Bool},
    Expr.resolveAll c scopes aggregates es = .ok es' → Expr.EverywhereAll (.steady c) es' →
    Expr.resolveAll c scopes false es = .ok es'
  | [], es', aggregates, h, _ => h
  | e :: es, es', aggregates, h, hes => by
    simp only [Expr.resolveAll, bind_eq_ok_iff] at h ⊢
    obtain ⟨e', he, rest, hrest, h⟩ := h
    obtain rfl := Except.ok.inj h
    exact ⟨e', Expr.resolve_row_of_steady he hes.1, rest,
      Expr.resolveAll_row_of_steady hrest hes.2, rfl⟩

end

/-! ### Settled expressions -/

/-- The reference is bound by its names to a column of the innermost scope. -/
structure ColumnRef.Settled (scope : Scope) (r : ColumnRef) : Prop where
  level : r.level = 0
  place : ∃ i j source column, scope[i]? = some source ∧
    source.columns.index? r.column = some j ∧ source.columns[j]? = some column ∧
    r.qualifier = some source.name ∧ r.binding = some ⟨i, j⟩ ∧ r.type = column.type

/-- The overload is the one that the name and the types of the arguments choose. -/
structure Call.Settled (c : Catalog) (f : Call) : Prop where
  steady : f.Steady c
  chosen : ∃ id g i v, c.findFunction? f.function = some (id, g) ∧
    g.variantFor? (f.arguments.map Expr.type) = some i ∧ g.variants[i]? = some v ∧
    f.target = some ⟨id, i⟩ ∧ f.type = v.result

/-- A column is settled, and a number is known by what it equals. -/
def Node.Settled (scope : Scope) : Node → Prop
  | .column r => r.Settled scope
  | .number x => Number.IsNumber x ∧ x ≠ -0
  | _         => True

/-- A typed formula of settled nodes. -/
structure Expr.Settled (scope : Scope) (e : Expr) : Prop where
  compilable : e.Compilable
  nodes : ∀ n ∈ e.nodes, n.Settled scope
  typed : Formula.typeOf (e.nodes.map Node.typed) = .ok e.type

/-- The names in every expression and every call say what it means. -/
def Local.settled (c : Catalog) (scope : Scope) : Local :=
  ⟨Expr.Settled scope, Call.Settled c, fun _ => False⟩

theorem Select.not_settled : ∀ {s : Select}, ¬ s.Everywhere (.settled c scope)
  | ⟨_, _, _, _, _, _, _, _, _, _⟩, ⟨h, _⟩ => h

/-- Settled expressions are steady. -/
theorem Local.settled_steady : Local.Give (.settled c scope) (.settled c scope) (.steady c) where
  expr he _ n hn := by
    have hsettled := he.nodes n hn
    cases n with
    | number x => exact hsettled.2
    | _ => trivial
  call hf _ := hf.steady
  select := fun hs _ => hs

theorem Expr.steady_of_settled {e : Expr} (h : e.Everywhere (.settled c scope)) :
    e.Everywhere (.steady c) :=
  h.give Local.settled_steady h

theorem Call.choose_settled {id : Nat} {g : Function} {call f : Call}
    (hfind : c.findFunction? call.function = some (id, g))
    (h : Call.choose id g aggregates call = .ok f) (hf : f.Steady c) : f.Settled c := by
  refine ⟨hf, ?_⟩
  simp only [Call.choose] at h
  split at h
  · cases h
  next i hi =>
    split at h
    · cases h
    next v hv =>
      split at h
      · cases h
      · obtain rfl := Except.ok.inj h
        exact ⟨id, g, i, v, hfind, hi, hv, rfl, rfl⟩

/-- The name of a built-in function is in capitals already. -/
theorem Catalog.findFunction?_upper (hc : c.functions = Function.builtins) {name : String}
    {id : Nat} {g : Function} (h : c.findFunction? name = some (id, g)) :
    c.findFunction? (Text.upper name) = some (id, g) := by
  have hname : g.name = Text.upper name := by
    obtain ⟨⟨g', id'⟩, hfind, heq⟩ := Option.map_eq_some_iff.1 h
    obtain ⟨rfl, rfl⟩ := Prod.mk.inj heq
    have hbeq := List.find?_some hfind
    exact beq_iff_eq.1 hbeq
  have hmem : g ∈ Function.builtins := hc ▸ List.mem_of_getElem? (Catalog.getElem?_of_findFunction? h)
  have hupper : ∀ f ∈ Function.builtins, Text.upper f.name = f.name := by decide
  have hidem : Text.upper (Text.upper name) = Text.upper name := by
    rw [← hname]
    exact hupper g hmem
  rw [← h, Catalog.findFunction?, Catalog.findFunction?, hidem]

theorem ColumnRef.asCall_settled (hc : c.functions = Function.builtins) {r : ColumnRef} {f : Call}
    (h : r.asCall c aggregates = .ok f) (hf : f.Steady c) : f.Settled c := by
  simp only [ColumnRef.asCall] at h
  split at h
  · cases h
  split at h
  · cases h
  next id g hfind =>
    split at h
    · refine Call.choose_settled ?_ h hf
      exact Catalog.findFunction?_upper hc hfind
    · cases h

theorem ColumnRef.settled_of_bindIn? {r bound : ColumnRef}
    (h : Scope.bindIn? r 0 [scope] = .ok (some bound)) : bound.Settled scope := by
  simp only [Scope.bindIn?, bind_eq_ok_iff] at h
  obtain ⟨found, hfound, h⟩ := h
  cases found with
  | none => cases h
  | some found =>
    obtain rfl := Option.some.inj (Except.ok.inj h)
    obtain ⟨sources, i, j, source, column, -, -, hsource, hj, hcolumn, rfl⟩ :=
      Scope.bind?_cases hfound
    exact ⟨rfl, i, j, source, column, hsource, hj, hcolumn, rfl, rfl, rfl⟩

theorem ColumnRef.resolve_settled (hc : c.functions = Function.builtins) {r : ColumnRef} {n : Node}
    (h : r.resolve c [scope] aggregates = .ok n) (hn : n.Everywhere (.steady c)) :
    n.Everywhere (.settled c scope) ∧ n.Settled scope := by
  simp only [ColumnRef.resolve] at h
  split at h
  · cases h
  obtain ⟨found, hfound, h⟩ := bind_eq_ok_iff.1 h
  cases found with
  | some bound =>
    obtain rfl := Except.ok.inj h
    exact ⟨trivial, ColumnRef.settled_of_bindIn? hfound⟩
  | none =>
    obtain ⟨f, hf, rfl⟩ := map_eq_ok_iff.1 h
    have harguments := (ColumnRef.asCall_cases hf).1
    obtain ⟨function, arguments, target, type, isAggregate, offset⟩ := f
    obtain rfl : arguments = [] := harguments
    exact ⟨⟨ColumnRef.asCall_settled hc hf hn.1, trivial⟩, trivial⟩

mutual

/-- **What a steady expression is resolved to**, in one scope. -/
theorem Expr.resolve_settled (hc : c.functions = Function.builtins) : ∀ {e e' : Expr}
    {aggregates : Bool}, e.Everywhere (.numbers Number.IsNumber) →
    e.resolve c [scope] aggregates = .ok e' → e'.Everywhere (.steady c) →
    e'.Everywhere (.settled c scope)
  | ⟨nodes, _, _, _, _, _, _⟩, e', aggregates, hnumbers, h, he => by
    have hcompilable := (Expr.resolve_plain h).1
    simp only [Expr.resolve, bind_eq_ok_iff] at h
    obtain ⟨nodes', hnodes, type, htype, h⟩ := h
    obtain rfl := Except.ok.inj h
    obtain ⟨hsettled, hall⟩ :=
      Node.resolveAll_settled hc hnumbers.1 hnumbers.2 hnodes he.1 he.2
    exact ⟨⟨hcompilable, hall, htype⟩, hsettled⟩

theorem Node.resolve_settled (hc : c.functions = Function.builtins) : ∀ {n n' : Node}
    {aggregates : Bool}, n.Numbers Number.IsNumber → n.Everywhere (.numbers Number.IsNumber) →
    n.resolve c [scope] aggregates = .ok n' → n'.Numbers (· ≠ -0) → n'.Everywhere (.steady c) →
    n'.Everywhere (.settled c scope) ∧ n'.Settled scope
  | .column r, n', aggregates, _, _, h, _, hn => ColumnRef.resolve_settled hc h hn
  | .call f, n', aggregates, _, hnumbers, h, _, hn => by
    simp only [Node.resolve, bind_eq_ok_iff] at h
    obtain ⟨f', hf, h⟩ := h
    obtain rfl := Except.ok.inj h
    exact ⟨Call.resolve_settled hc hnumbers hf hn, trivial⟩
  | .select s, n', aggregates, _, _, h, _, hn => by
    simp only [Node.resolve, bind_eq_ok_iff] at h
    obtain ⟨s', -, -, -, h⟩ := h
    obtain rfl := Except.ok.inj h
    exact absurd hn Select.not_steady
  | .number x, n', aggregates, hx, _, h, hzero, _ => by
    obtain rfl := Except.ok.inj h
    exact ⟨trivial, hx, hzero⟩
  | .operator _, n', aggregates, _, _, h, _, _ | .openParen, n', aggregates, _, _, h, _, _
  | .closeParen, n', aggregates, _, _, h, _, _ | .text _, n', aggregates, _, _, h, _, _
  | .boolean _, n', aggregates, _, _, h, _, _ | .null, n', aggregates, _, _, h, _, _ => by
    obtain rfl := Except.ok.inj h
    exact ⟨trivial, trivial⟩

theorem Node.resolveAll_settled (hc : c.functions = Function.builtins) : ∀ {ns ns' : List Node}
    {aggregates : Bool}, (∀ n ∈ ns, n.Numbers Number.IsNumber) →
    Node.EverywhereAll (.numbers Number.IsNumber) ns →
    Node.resolveAll c [scope] aggregates ns = .ok ns' → (∀ n ∈ ns', n.Numbers (· ≠ -0)) →
    Node.EverywhereAll (.steady c) ns' →
    Node.EverywhereAll (.settled c scope) ns' ∧ ∀ n ∈ ns', n.Settled scope
  | [], ns', aggregates, _, _, h, _, _ => by
    obtain rfl := Except.ok.inj h
    exact ⟨trivial, List.forall_mem_nil _⟩
  | n :: ns, ns', aggregates, hnumbers, hall, h, hzeros, hns => by
    simp only [Node.resolveAll, bind_eq_ok_iff] at h
    obtain ⟨n', hn, rest, hrest, h⟩ := h
    obtain rfl := Except.ok.inj h
    obtain ⟨hnumber, hnumbers⟩ := List.forall_mem_cons.1 hnumbers
    obtain ⟨hzero, hzeros⟩ := List.forall_mem_cons.1 hzeros
    obtain ⟨hsettled, hn'⟩ := Node.resolve_settled hc hnumber hall.1 hn hzero hns.1
    obtain ⟨hmore, hrest'⟩ := Node.resolveAll_settled hc hnumbers hall.2 hrest hzeros hns.2
    exact ⟨⟨hsettled, hmore⟩, List.forall_mem_cons.2 ⟨hn', hrest'⟩⟩

theorem Call.resolve_settled (hc : c.functions = Function.builtins) : ∀ {f f' : Call}
    {aggregates : Bool}, f.Everywhere (.numbers Number.IsNumber) →
    f.resolve c [scope] aggregates = .ok f' → f'.Everywhere (.steady c) →
    f'.Everywhere (.settled c scope)
  | ⟨function, arguments, _, _, _, _⟩, f', aggregates, hnumbers, h, hf => by
    simp only [Call.resolve] at h
    split at h
    · cases h
    next id g hfind =>
      obtain ⟨arguments', harguments, h⟩ := bind_eq_ok_iff.1 h
      have hsame := (Call.choose_cases h).1
      obtain ⟨function', resolved, target, type, isAggregate, offset⟩ := f'
      obtain rfl : resolved = arguments' := hsame
      refine ⟨Call.choose_settled ?_ h hf.1,
        Expr.resolveAll_settled hc hnumbers.2 harguments hf.2⟩
      exact hfind

theorem Expr.resolveAll_settled (hc : c.functions = Function.builtins) : ∀ {es es' : List Expr}
    {aggregates : Bool}, Expr.EverywhereAll (.numbers Number.IsNumber) es →
    Expr.resolveAll c [scope] aggregates es = .ok es' → Expr.EverywhereAll (.steady c) es' →
    Expr.EverywhereAll (.settled c scope) es'
  | [], es', aggregates, _, h, _ => by
    obtain rfl := Except.ok.inj h
    trivial
  | e :: es, es', aggregates, hnumbers, h, hes => by
    simp only [Expr.resolveAll, bind_eq_ok_iff] at h
    obtain ⟨e', he, rest, hrest, h⟩ := h
    obtain rfl := Except.ok.inj h
    exact ⟨Expr.resolve_settled hc hnumbers.1 he hes.1,
      Expr.resolveAll_settled hc hnumbers.2 hrest hes.2⟩

end

/-! ### The same expression at another place -/

theorem Expr.same_eq (a b : Expr) : a.same b = Node.sameList a.nodes b.nodes := by
  obtain ⟨_, _, _, _, _, _, _⟩ := a
  obtain ⟨_, _, _, _, _, _, _⟩ := b
  rw [Expr.same]

theorem ColumnRef.same_refl (r : ColumnRef) : r.same r = true := by
  obtain ⟨_ | q, _, _, _, _, _⟩ := r <;> simp [ColumnRef.same, sameQualifier, Text.sameName_refl]

mutual

/-- **A settled expression is the same at another place.** -/
theorem Expr.same_of_settled (φ : Placing) : ∀ {e : Expr}, e.Everywhere (.settled c scope) →
    e.same (e.placed φ) = true
  | ⟨nodes, _, _, _, _, _, _⟩, he => by
    rw [Expr.placed, Expr.same]
    exact Node.sameList_of_settled φ he.1.nodes he.2

theorem Node.same_of_settled (φ : Placing) : ∀ {n : Node}, n.Settled scope →
    n.Everywhere (.settled c scope) → n.same (n.placed φ) = true
  | .column r, _, _ => by
    rw [Node.placed, Node.same]
    exact ColumnRef.same_refl r
  | .call f, _, hf => by
    rw [Node.placed, Node.same]
    exact Call.same_of_settled φ hf
  | .select s, _, hs => absurd hs Select.not_settled
  | .number x, hx, _ => by
    simp only [Node.placed, Node.same, Number.beq_self (show x.isNaN = false from hx.1)]
  | .operator _, _, _ | .text _, _, _ | .boolean _, _, _ | .openParen, _, _ | .closeParen, _, _
  | .null, _, _ => by simp only [Node.placed, Node.same, beq_self_eq_true]

theorem Node.sameList_of_settled (φ : Placing) : ∀ {ns : List Node}, (∀ n ∈ ns, n.Settled scope) →
    Node.EverywhereAll (.settled c scope) ns → Node.sameList ns (Node.placedAll φ ns) = true
  | [], _, _ => by rw [Node.placedAll, Node.sameList]
  | n :: ns, hall, hns => by
    obtain ⟨hn, hall⟩ := List.forall_mem_cons.1 hall
    rw [Node.placedAll, Node.sameList, Bool.and_eq_true]
    exact ⟨Node.same_of_settled φ hn hns.1, Node.sameList_of_settled φ hall hns.2⟩

theorem Call.same_of_settled (φ : Placing) : ∀ {f : Call}, f.Everywhere (.settled c scope) →
    f.same (f.placed φ) = true
  | ⟨function, _, _, _, _, _⟩, hf => by
    rw [Call.placed, Call.same, beq_self_eq_true, Bool.true_and]
    exact Expr.sameList_of_settled φ hf.2

theorem Expr.sameList_of_settled (φ : Placing) : ∀ {es : List Expr},
    Expr.EverywhereAll (.settled c scope) es → Expr.sameList es (Expr.placedAll φ es) = true
  | [], _ => by rw [Expr.placedAll, Expr.sameList]
  | e :: es, hes => by
    rw [Expr.placedAll, Expr.sameList, Bool.and_eq_true]
    exact ⟨Expr.same_of_settled φ hes.1, Expr.sameList_of_settled φ hes.2⟩

end

mutual

/-- To be the same as a steady expression does not depend on its place. -/
theorem Expr.same_placed_of_steady (φ : Placing) : ∀ {a b : Expr}, b.Everywhere (.steady c) →
    a.same (b.placed φ) = a.same b
  | ⟨_, _, _, _, _, _, _⟩, ⟨_, _, _, _, _, _, _⟩, hb => by
    rw [Expr.placed, Expr.same, Expr.same, Node.sameList_placed_of_steady φ hb.2]

theorem Node.same_placed_of_steady (φ : Placing) : ∀ {m n : Node}, n.Everywhere (.steady c) →
    m.same (n.placed φ) = m.same n
  | m, .call g, hg => by
    cases m with
    | call f => rw [Node.placed, Node.same, Node.same, Call.same_placed_of_steady φ hg]
    | _ => simp only [Node.placed, Node.same]
  | m, .select s, hs => absurd hs Select.not_steady
  | m, .column _, _ => by
    cases m <;> simp only [Node.placed, Node.same]
    rfl
  | m, .operator _, _ | m, .openParen, _ | m, .closeParen, _ | m, .number _, _
  | m, .text _, _ | m, .boolean _, _ | m, .null, _ => rfl

theorem Node.sameList_placed_of_steady (φ : Placing) : ∀ {ms ns : List Node},
    Node.EverywhereAll (.steady c) ns → Node.sameList ms (Node.placedAll φ ns) = Node.sameList ms ns
  | [], [], _ => rfl
  | [], _ :: _, _ | _ :: _, [], _ => by simp only [Node.placedAll, Node.sameList]
  | m :: ms, n :: ns, hns => by
    rw [Node.placedAll, Node.sameList, Node.sameList, Node.same_placed_of_steady φ hns.1,
      Node.sameList_placed_of_steady φ hns.2]

theorem Call.same_placed_of_steady (φ : Placing) : ∀ {f g : Call}, g.Everywhere (.steady c) →
    f.same (g.placed φ) = f.same g
  | ⟨_, _, _, _, _, _⟩, ⟨_, _, _, _, _, _⟩, hg => by
    rw [Call.placed, Call.same, Call.same, Expr.sameList_placed_of_steady φ hg.2]

theorem Expr.sameList_placed_of_steady (φ : Placing) : ∀ {as bs : List Expr},
    Expr.EverywhereAll (.steady c) bs → Expr.sameList as (Expr.placedAll φ bs) = Expr.sameList as bs
  | [], [], _ => rfl
  | [], _ :: _, _ | _ :: _, [], _ => by simp only [Expr.placedAll, Expr.sameList]
  | a :: as, b :: bs, hbs => by
    rw [Expr.placedAll, Expr.sameList, Expr.sameList, Expr.same_placed_of_steady φ hbs.1,
      Expr.sameList_placed_of_steady φ hbs.2]

end

theorem Expr.same_self {e : Expr} (he : e.Everywhere (.settled c scope)) : e.same e = true := by
  rw [← Expr.same_placed_of_steady (.shift 0) (Expr.steady_of_settled he)]
  exact Expr.same_of_settled _ he

/-! ### Expressions that are written twice -/

/-- The key says what the expression says, at another place. -/
def Expr.Repeats (e key : Expr) : Prop :=
  ∃ φ : Placing, key.nodes = (e.placed φ).nodes

theorem Expr.Repeats.same {e key : Expr} (h : e.Repeats key) (he : e.Everywhere (.steady c))
    (a : Expr) : a.same key = a.same e := by
  obtain ⟨φ, h⟩ := h
  rw [Expr.same_eq, h, ← Expr.same_eq, Expr.same_placed_of_steady φ he]

/-- Expressions of the same nodes are resolved to expressions of the same nodes. -/
theorem Expr.resolve_of_nodes {a b b' : Expr} (h : a.nodes = b.nodes)
    (hb : b.resolve c scopes aggregates = .ok b') :
    ∃ a', a.resolve c scopes aggregates = .ok a' ∧ a'.nodes = b'.nodes := by
  obtain ⟨nodes, _, _, _, source, aliasName, offset⟩ := a
  obtain ⟨_, _, _, _, _, _, _⟩ := b
  obtain rfl : nodes = _ := h
  simp only [Expr.resolve, bind_eq_ok_iff] at hb ⊢
  obtain ⟨nodes', hnodes, type, htype, hb⟩ := hb
  obtain rfl := Except.ok.inj hb
  exact ⟨_, ⟨nodes', hnodes, type, htype, rfl⟩, rfl⟩

/-- What repeats an expression is resolved to what repeats its resolved form, also where no
aggregates may stand. -/
theorem Expr.Repeats.resolve {e e' key : Expr} (h : e.Repeats key)
    (he : e.resolve c scopes aggregates = .ok e') (hsteady : e'.Everywhere (.steady c)) :
    ∃ key', key.resolve c scopes false = .ok key' ∧ e'.Repeats key' := by
  obtain ⟨φ, h⟩ := h
  have hplaced := Expr.resolve_placed (c := c) φ scopes false e
  rw [Expr.resolve_row_of_steady he hsteady] at hplaced
  generalize hp : (e.placed φ).resolve c scopes false = p at hplaced
  obtain ⟨rfl⟩ := hplaced
  obtain ⟨key', hkey, hnodes⟩ := Expr.resolve_of_nodes h hp
  exact ⟨key', hkey, φ, hnodes⟩

/-- So are the keys that repeat a list of expressions. -/
theorem Expr.resolveAll_of_repeats {es es' keys : List Expr}
    (h : List.Forall₂ Expr.Repeats es keys)
    (hes : List.Forall₂ (fun e e' => e.resolve c scopes aggregates = .ok e') es es')
    (hsteady : ∀ e ∈ es', e.Everywhere (.steady c)) :
    ∃ keys', Expr.resolveAll c scopes false keys = .ok keys' ∧
      List.Forall₂ Expr.Repeats es' keys' := by
  induction h generalizing es' with
  | nil =>
    obtain rfl := List.forall₂_nil_left_iff.1 hes
    exact ⟨[], rfl, .nil⟩
  | cons hrepeats _ ih =>
    obtain ⟨e', rest, he, hrest, rfl⟩ := List.forall₂_cons_left_iff.1 hes
    obtain ⟨hfirst, hsteady⟩ := List.forall_mem_cons.1 hsteady
    obtain ⟨key', hkey, hrepeats'⟩ := hrepeats.resolve he hfirst
    obtain ⟨keys', hkeys, hall⟩ := ih hrest hsteady
    exact ⟨key' :: keys', by simp only [Expr.resolveAll, hkey, hkeys, ok_bind],
      .cons hrepeats' hall⟩

end SqlEngine
