import SqlEngine.Proofs.Result
import SqlEngine.Resolution.Expression

/-!
# Resolution — the sources of a SELECT, and its other clauses

A SELECT resolves its sources first, with the conditions of its joins (`Select.resolveFrom`), and
then its other clauses in the scope of the sources (`Select.resolveClauses`).  SELECTs of the same
sources are compared on the second half.

* `Select.resolve_eq`: the two halves.
* `Select.distinct_of_resolveFrom`: resolved sources go by different names.
-/

namespace SqlEngine

/-- The resolved sources of a SELECT, and what its clauses see of them. -/
structure Sources where
  origin : Option Source
  joins : List Join
  scope : Scope

namespace Select

/-- The joins of the SELECT may stand together. -/
def requireJoins (s : Select) : Except Error Unit :=
  match s.joinFault? with
  | some fault => .error (.invalidJoin fault)
  | none       => .ok ()

/-- Outputs and sort keys of the SELECT read columns as grouping allows. -/
def requireGroups (s : Select) : Except Error Unit :=
  match s.groupFault? with
  | some fault => .error (.aggregateMisuse fault)
  | none       => .ok ()

theorem groupFault?_of_requireGroups {s : Select} {u : Unit} (h : s.requireGroups = .ok u) :
    s.groupFault? = none := by
  rw [requireGroups] at h
  split at h
  · cases h
  · assumption

/-- Resolves the sources of a SELECT and the conditions of its joins. -/
def resolveFrom (c : Catalog) (outer : List Scope) (s : Select) : Except Error Sources := do
  let origin ← Source.resolveOption c outer s.origin
  let joined ← Join.resolveSources c outer s.joins
  let named : Select := { s with origin, joins := joined }
  named.requireJoins
  let scope : Scope := named.sources.map (Source.scopeSource c)
  let conditions ← Join.resolveConditions c scope outer 2 s.joins
  .ok ⟨origin, joined.zipWith (fun j e => { j with condition := some e }) conditions, scope⟩

/-- Resolves the clauses of a SELECT with resolved sources. -/
def resolveClauses (c : Catalog) (outer : List Scope) (s : Select) (f : Sources) :
    Except Error Select := do
  let output ← Expr.resolveOutputs c (f.scope :: outer) s.output
  let filter ← Expr.resolveFilter c (f.scope :: outer) s.filter
  let groupBy ← Expr.resolveAll c (f.scope :: outer) false s.groupBy
  let orderBy ← OrderKey.resolveAll c (f.scope :: outer) output s.orderBy
  let q : Select := { s with output, origin := f.origin, joins := f.joins, filter, groupBy, orderBy }
  q.requireGroups
  .ok { q with output := ← f.scope.expandAll output }

theorem resolve_eq (c : Catalog) (outer : List Scope) (s : Select) :
    s.resolve c outer = s.resolveFrom c outer >>= s.resolveClauses c outer := by
  obtain ⟨text, distinct, output, origin, joins, filter, groupBy, orderBy, limit, offset⟩ := s
  simp only [resolve, resolveFrom, bind_assoc]
  refine bind_congr_ok fun origin' _ => bind_congr_ok fun joined _ => ?_
  rw [requireJoins]
  generalize Select.joinFault? _ = fault
  cases fault with
  | some fault => rfl
  | none =>
    simp only [ok_bind, resolveClauses]
    refine bind_congr_ok fun conditions _ => bind_congr_ok fun output' _ =>
      bind_congr_ok fun filter' _ => bind_congr_ok fun groupBy' _ =>
      bind_congr_ok fun orderBy' _ => ?_
    rw [requireGroups]
    generalize Select.groupFault? _ = fault
    cases fault <;> rfl

end Select

/-! ### Names of sources -/

/-- The sources of the scope go by different names. -/
def Scope.Distinct (scope : Scope) : Prop :=
  scope.Pairwise fun s t => Text.sameName s.name t.name = false

theorem Source.scopeSource_name (c : Catalog) (s : Source) : (s.scopeSource c).name = s.name := by
  cases s with
  | table name a id offset =>
    simp only [scopeSource]
    split <;> rfl
  | select => rfl

/-- No source of the list clashes with one before it. -/
theorem Source.pairwise_of_clashIn? : ∀ {ss seen : List Source}, clashIn? seen ss = none →
    (∀ s ∈ ss, ∀ before ∈ seen, s.clash? before = none) ∧
      ss.Pairwise fun before s => s.clash? before = none
  | [], seen, _ => ⟨nofun, .nil⟩
  | s :: ss, seen, h => by
    rw [clashIn?, Option.or_eq_none_iff, List.findSome?_eq_none_iff] at h
    obtain ⟨hlater, hpairs⟩ := Source.pairwise_of_clashIn? h.2
    refine ⟨List.forall_mem_cons.2 ⟨h.1, fun s' hs' before hbefore => ?_⟩, .cons ?_ hpairs⟩
    · exact hlater s' hs' before (List.mem_append_left _ hbefore)
    · exact fun s' hs' => hlater s' hs' s (List.mem_append_right _ (List.mem_singleton_self s))

/-- What it takes for a source to stand beside one before it. -/
theorem Source.clash?_eq_none {s before : Source} (h : s.clash? before = none) :
    s.sharesTable before = false ∧ Text.sameName s.name before.name = false := by
  simp only [clash?] at h
  split at h
  · cases h
  next hshares =>
    split at h
    · cases h
    next hname => exact ⟨eq_false_of_ne_true hshares, eq_false_of_ne_true hname⟩

/-- **Resolved sources go by different names.** -/
theorem Select.distinct_of_resolveFrom {c : Catalog} {outer : List Scope} {s : Select} {f : Sources}
    (h : s.resolveFrom c outer = .ok f) : f.scope.Distinct := by
  simp only [resolveFrom, bind_eq_ok_iff] at h
  obtain ⟨origin, -, joined, -, u, hjoins, conditions, -, h⟩ := h
  obtain rfl := Except.ok.inj h
  rw [requireJoins] at hjoins
  split at hjoins
  · cases hjoins
  next hfault =>
    obtain ⟨hclash, -⟩ := Option.or_eq_none_iff.1 hfault
    refine List.pairwise_map.2 ((Source.pairwise_of_clashIn? hclash).2.imp fun hbeside => ?_)
    rw [Source.scopeSource_name, Source.scopeSource_name, Text.sameName_comm]
    exact (Source.clash?_eq_none hbeside).2

end SqlEngine
