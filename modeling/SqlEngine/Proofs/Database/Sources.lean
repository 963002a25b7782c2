import SqlEngine.Proofs.Database.Names
import SqlEngine.Proofs.Database.Typing
import SqlEngine.Proofs.Resolution.Ambiguity
import SqlEngine.Proofs.Resolution.Phases

/-!
# Databases — sources side by side

A table that comes twice among the sources of a SELECT needs an alias each time.  Whether it does is
decided on the names as they are written, without regard to the case of ASCII letters, while the
catalog finds a table by its name in small letters of all of Unicode.  The two agree on names in
ASCII (`Text.lower_eq_fold`) but not on all names, and then the table may come twice without
aliases.

* `Select.sideBySide_of_resolve`: what holds of the sources and joins of one resolved SELECT.
* `Statement.Sees.sideBySide`: it holds of the SELECTs at any depth of a statement.
-/

namespace SqlEngine

/-! ### Names in small letters -/

namespace Text

/-- All characters of the text are ASCII. -/
def isAscii (s : String) : Bool :=
  s.toList.all fun ch => ch.toNat < 0x80

theorem lowerAfter_of_ascii : ∀ {before cs : List Char}, (∀ ch ∈ cs, ch.toNat < 0x80) →
    lowerAfter before cs = cs.map Char.toLower
  | _, [], _ => rfl
  | before, ch :: cs, h => by
    obtain ⟨hch, hcs⟩ := List.forall_mem_cons.1 h
    have hsigma : (ch == 'Σ') = false := by
      refine beq_eq_false_iff_ne.2 fun heq => ?_
      rw [heq] at hch
      exact absurd hch (by decide)
    rw [lowerAfter, hsigma, lowerAfter_of_ascii hcs, lowerChar, if_pos hch]
    rfl

/-- Names in ASCII are the same in small letters when they differ in the case of letters only. -/
theorem lower_eq_fold {s : String} (h : isAscii s = true) : lower s = fold s := by
  have hascii : ∀ ch ∈ s.toList, ch.toNat < 0x80 := fun ch hch => by
    simpa using List.all_eq_true.1 h ch hch
  rw [lower, lowerAfter_of_ascii hascii, fold]

end Text

/-! ### What stands side by side -/

namespace Source

/-- The table that the source is bound to. -/
def id? : Source → Option Nat
  | .table _ _ id _ => id
  | .select ..      => none

/-- Two sources of one table by names that differ, but not in the case of ASCII letters only. -/
inductive SpelledApart : Source → Source → Prop
  | intro {a b : String} {s t : Source} (hs : s.table? = some a) (ht : t.table? = some b)
      (hlower : Text.lower a = Text.lower b) (hname : Text.sameName a b = false)
      (hascii : (Text.isAscii a && Text.isAscii b) = false) : SpelledApart s t

/-- The sources go by different names, and if they are of one table, both have aliases or the table
is spelled in two ways. -/
structure Apart (s t : Source) : Prop where
  names : Text.sameName s.name t.name = false
  tables : ∀ id, s.id? = some id → t.id? = some id →
    s.isAliased = true ∧ t.isAliased = true ∨ s.SpelledApart t

/-- What a source is bound to is what the catalog finds by its name. -/
def BoundIn (c : Catalog) (s : Source) : Prop :=
  ∀ id, s.id? = some id → ∃ name t, s.table? = some name ∧ c.findTable? name = some (id, t)

end Source

/-- The sources of the SELECT are apart from each other, and each join has a condition, which is a
truth value. -/
structure Select.SideBySide (s : Select) : Prop where
  sources : s.sources.Pairwise Source.Apart
  conditions : ∀ j ∈ s.joins, ∃ e, j.condition = some e ∧ e.nodes ≠ [] ∧
    (e.type = .boolean ∨ e.type = .null)

variable {c : Catalog}

/-! ### Sources -/

/-- Sources that do not clash and were found by their names are apart. -/
theorem Source.apart_of_clash? {s before : Source} (h : s.clash? before = none)
    (hs : s.BoundIn c) (hbefore : before.BoundIn c) : before.Apart s := by
  obtain ⟨hshares, hname⟩ := Source.clash?_eq_none h
  refine ⟨by rw [Text.sameName_comm]; exact hname, fun id hid hid' => ?_⟩
  obtain ⟨b, t, hb, hfound⟩ := hbefore id hid
  obtain ⟨a, t', ha, hfound'⟩ := hs id hid'
  -- both names were found as the one table
  have hlower : Text.lower b = Text.lower a := by
    obtain rfl := Option.some.inj ((Catalog.getElem?_of_findTable? hfound).symm.trans
      (Catalog.getElem?_of_findTable? hfound'))
    exact (Catalog.lower_of_findTable? hfound).symm.trans (Catalog.lower_of_findTable? hfound')
  simp only [sharesTable, ha, hb, Bool.and_eq_false_iff, Bool.not_eq_false', Bool.and_eq_true]
    at hshares
  rcases hshares with hspelled | ⟨haliased, haliased'⟩
  · rw [Text.sameName_comm] at hspelled
    refine .inr ⟨hb, ha, hlower, hspelled, eq_false_of_ne_true fun hascii => ?_⟩
    obtain ⟨hasciib, hasciia⟩ := Bool.and_eq_true_iff.1 hascii
    rw [Text.lower_eq_fold hasciib, Text.lower_eq_fold hasciia] at hlower
    rw [Text.sameName, hlower, beq_self_eq_true] at hspelled
    cases hspelled
  · exact .inl ⟨haliased', haliased⟩

theorem Source.resolve_boundIn {scopes : List Scope} {s s' : Source}
    (h : s.resolve c scopes = .ok s') : s'.BoundIn c := by
  cases s with
  | table name aliasName id offset =>
    simp only [Source.resolve] at h
    split at h
    next id t hfound =>
      obtain rfl := Except.ok.inj h
      rintro _ ⟨⟩
      exact ⟨name, t, rfl, hfound⟩
    next => cases h
  | select q aliasName offset =>
    simp only [Source.resolve, bind_eq_ok_iff] at h
    obtain ⟨q', -, h⟩ := h
    obtain rfl := Except.ok.inj h
    rintro _ ⟨⟩

theorem Source.resolveOption_boundIn {scopes : List Scope} {s s' : Option Source}
    (h : Source.resolveOption c scopes s = .ok s') : ∀ source ∈ s'.toList, source.BoundIn c := by
  cases s with
  | none =>
    obtain rfl := Except.ok.inj h
    exact List.forall_mem_nil _
  | some s =>
    simp only [Source.resolveOption, bind_eq_ok_iff] at h
    obtain ⟨source, hsource, h⟩ := h
    obtain rfl := Except.ok.inj h
    exact List.forall_mem_singleton.2 (Source.resolve_boundIn hsource)

/-- Sources of joins are resolved one by one, and the joins keep their conditions. -/
theorem Join.resolveSources_forall₂ {scopes : List Scope} : ∀ {js joined : List Join},
    Join.resolveSources c scopes js = .ok joined →
    List.Forall₂ (fun j j' => j.source.resolve c scopes = .ok j'.source ∧
      j'.condition = j.condition) js joined
  | [], joined, h => by
    obtain rfl := Except.ok.inj h
    exact .nil
  | ⟨source, kind, condition⟩ :: js, joined, h => by
    simp only [Join.resolveSources, bind_eq_ok_iff] at h
    obtain ⟨source', hsource, rest, hrest, h⟩ := h
    obtain rfl := Except.ok.inj h
    exact .cons ⟨hsource, rfl⟩ (resolveSources_forall₂ hrest)

/-! ### Conditions -/

theorem Expr.nodes_ne_nil_of_resolve {scopes : List Scope} {aggregates : Bool} {e e' : Expr}
    (h : e.resolve c scopes aggregates = .ok e') (he : e.nodes ≠ []) : e'.nodes ≠ [] := by
  obtain ⟨nodes, _, _, _, _, _, _⟩ := e
  simp only [Expr.resolve, bind_eq_ok_iff] at h
  obtain ⟨nodes', hnodes, type, -, h⟩ := h
  obtain rfl := Except.ok.inj h
  cases nodes with
  | nil => exact absurd rfl he
  | cons n ns =>
    simp only [Node.resolveAll, bind_eq_ok_iff] at hnodes
    obtain ⟨n', -, rest, -, h⟩ := hnodes
    obtain rfl := Except.ok.inj h
    exact List.cons_ne_nil _ _

theorem Expr.type_of_requireCondition {scopes : List Scope} {aggregates : Bool} {e e' : Expr}
    {u : Unit} (h : e.resolve c scopes aggregates = .ok e') (hu : e'.requireCondition = .ok u) :
    e'.type = .boolean ∨ e'.type = .null := by
  obtain ⟨nodes, _, _, _, _, _, _⟩ := e
  simp only [Expr.resolve, bind_eq_ok_iff] at h
  obtain ⟨nodes', -, type, -, h⟩ := h
  obtain rfl := Except.ok.inj h
  simp only [Expr.requireCondition] at hu
  split at hu
  next hcondition => cases type <;> first | exact .inl rfl | exact .inr rfl | cases hcondition
  next => cases hu

/-- Conditions that are not empty are resolved to such of a truth value. -/
theorem Join.resolveConditions_holds {scope : Scope} {outer : List Scope} :
    ∀ {js : List Join} {visible : Nat} {es : List Expr}, (∀ j ∈ js, j.isBare = false) →
    Join.resolveConditions c scope outer visible js = .ok es →
    ∀ e ∈ es, e.nodes ≠ [] ∧ (e.type = .boolean ∨ e.type = .null)
  | [], visible, es, _, h => by
    obtain rfl := Except.ok.inj h
    exact List.forall_mem_nil _
  | ⟨_, _, none⟩ :: js, visible, es, _, h => by cases h
  | ⟨_, _, some condition⟩ :: js, visible, es, hbare, h => by
    obtain ⟨hcondition, hbare⟩ := List.forall_mem_cons.1 hbare
    simp only [Join.resolveConditions, bind_eq_ok_iff] at h
    obtain ⟨e, he, _, hu, rest, hrest, h⟩ := h
    obtain rfl := Except.ok.inj h
    have hnodes : condition.nodes ≠ [] := fun hnil => by simp [Join.isBare, hnil] at hcondition
    exact List.forall_mem_cons.2 ⟨⟨Expr.nodes_ne_nil_of_resolve he hnodes,
      Expr.type_of_requireCondition he hu⟩, resolveConditions_holds hbare hrest⟩

/-! ### SELECT -/

/-- The sources of a SELECT that is resolved have passed the check of its joins. -/
theorem Select.joinFault?_of_resolve {outer : List Scope} {s s' : Select}
    (h : s.resolve c outer = .ok s') : ∃ scope joined conditions listed,
      Select.Resolves c outer s s' scope joined conditions listed ∧
      ({ s with origin := s'.origin, joins := joined } : Select).joinFault? = none := by
  obtain ⟨scope, joined, conditions, listed, hresolves⟩ := Select.resolve_eq_ok h
  refine ⟨scope, joined, conditions, listed, hresolves, ?_⟩
  rw [Select.resolve_eq, Select.resolveFrom] at h
  simp only [hresolves.origin, hresolves.sources, ok_bind, bind_eq_ok_iff, Select.requireJoins] at h
  obtain ⟨_, ⟨_, hjoins, -⟩, -⟩ := h
  split at hjoins
  · cases hjoins
  · assumption

/-- **The sources of a resolved SELECT are apart, and its joins have conditions.** -/
theorem Select.sideBySide_of_resolve {outer : List Scope} {s s' : Select}
    (h : s.resolve c outer = .ok s') : s'.SideBySide := by
  obtain ⟨scope, joined, conditions, listed, hresolves, hfault⟩ := Select.joinFault?_of_resolve h
  obtain ⟨hclash, hbare⟩ := Option.or_eq_none_iff.1 hfault
  have hjoined := Join.resolveSources_forall₂ hresolves.sources
  constructor
  · have hbound : ∀ source ∈ s'.sources, source.BoundIn c := by
      rw [hresolves.sources']
      refine List.forall_mem_append.2 ⟨Source.resolveOption_boundIn hresolves.origin, ?_⟩
      refine List.forall_mem_map.2 fun j' hj' => ?_
      obtain ⟨j, -, hsource, -⟩ := exists_mem_of_forall₂ hjoined hj'
      exact Source.resolve_boundIn hsource
    have hpairs := (Source.pairwise_of_clashIn? hclash).2
    rw [Select.sources, ← hresolves.sources'] at hpairs
    exact hpairs.imp_of_mem fun hs hs' h =>
      Source.apart_of_clash? h (hbound _ hs') (hbound _ hs)
  · have hplain : ∀ j ∈ s.joins, j.isBare = false := fun j hj => by
      obtain ⟨j', hj', -, hcondition⟩ := exists_mem_of_forall₂ hjoined.flip hj
      have hnone := List.find?_eq_none.1 (Option.map_eq_none_iff.1 hbare) j' hj'
      rw [Join.isBare, hcondition] at hnone
      exact eq_false_of_ne_true hnone
    intro j' hj'
    rw [hresolves.joins] at hj'
    obtain ⟨i, hi, rfl⟩ := List.mem_iff_getElem.1 hj'
    rw [List.getElem_zipWith]
    exact ⟨_, rfl, Join.resolveConditions_holds hplain hresolves.conditions _
      (List.getElem_mem _)⟩

/-- **A repeated table needs aliases**, at any depth of a statement that is accepted, unless its
name is spelled in two ways that differ in letters beyond ASCII.  All sources of a SELECT go by
different names, and all joins have a condition. -/
theorem Statement.Sees.sideBySide {S S' : Statement} {q : Select} {outer : List Scope}
    (hS : S.resolve c = .ok S') (h : S.Sees c (.select q) outer) :
    ∃ q', q.resolve c outer = .ok q' ∧ q'.SideBySide := by
  obtain ⟨q', hq⟩ := h.resolves hS
  exact ⟨q', hq, Select.sideBySide_of_resolve hq⟩

/-- A sub-select that joins a table with itself, as it is written. -/
def Select.joinedTwice : Select :=
  let b (offset : Nat) : Expr :=
    .ofNodes [.column { qualifier := some "x", column := "b", offset }] "x.b" offset
  ⟨"SELECT x.b FROM t x JOIN T y ON x.b", false, [b 22], some (.table "t" (some "x") none 31),
    [⟨.table "T" (some "y") none 40, .inner, some (b 47)⟩], none, [], [], none, 15⟩

theorem Select.joinedTwice_sideBySide :
    let text := "SELECT b FROM (SELECT x.b FROM t x JOIN T y ON x.b)"
    ∃ outer q, Statement.parse {} text = .ok (.select outer) ∧
      (Statement.select outer).Sees Database.greetings.catalog (.select joinedTwice) [] ∧
      joinedTwice.resolve Database.greetings.catalog [] = .ok q ∧
      q.sources.map Source.id? = [some 0, some 0] ∧ q.SideBySide := by
  intro text
  let outer : Select := ⟨text, false,
    [.ofNodes [.column { qualifier := none, column := "b", offset := 7 }] "b" 7],
    some (.select joinedTwice none 14), [], none, [], [], none, 0⟩
  have hsees : (Statement.select outer).Sees Database.greetings.catalog (.select joinedTwice) [] :=
    .source (.statement rfl) List.mem_cons_self
  obtain ⟨S, hS⟩ := exists_of_isOk
    (x := (Statement.select outer).resolve Database.greetings.catalog) (by cbv)
  obtain ⟨q, hq, hside⟩ := hsees.sideBySide hS
  have hids : (joinedTwice.resolve Database.greetings.catalog []).map
      (fun q => q.sources.map Source.id?) = .ok [some 0, some 0] := by cbv
  rw [hq] at hids
  exact ⟨outer, q, by cbv, hsees, hq, Except.ok.inj hids, hside⟩

/-! ### A table spelled in two ways -/

/-- A database in which the name of the only table has a letter beyond ASCII. -/
def Database.accented : Database :=
  let columns : Columns := [⟨"a", .number⟩]
  ⟨⟨"wooby", [⟨"É", columns, some (.memory ⟨[], 1, 0⟩)⟩], Function.builtins⟩, {}⟩

theorem Text.lower_accent : lower "É" = "é" ∧ lower "é" = "é" := by
  -- the search in an array is too deep to be evaluated, that in a list is not
  have hruns (n : Nat) : lowerRuns.findSome? (fun r => r.image? n) =
      lowerRuns.toList.findSome? (fun r => r.image? n) := by rw [Array.findSome?_toList]
  have hcapital : lowerChar 'É' = ['é'] := by
    rw [lowerChar, hruns]
    rfl
  have hsmall : lowerChar 'é' = ['é'] := by
    rw [lowerChar, hruns]
    rfl
  constructor
  · rw [lower, show "É".toList = ['É'] by simp, lowerAfter, lowerAfter, hcapital]
    rfl
  · rw [lower, show "é".toList = ['é'] by simp, lowerAfter, lowerAfter, hsmall]
    rfl

/-- The two spellings differ in the case of a letter beyond ASCII, so the table may come twice
without aliases. -/
theorem Database.accented_repeated :
    ((ofConfig {}).execute ⟨0, 0⟩ "CREATE TABLE \"É\" (a NUMBER)").2 = accented ∧
      ∃ s, accented.prepare "SELECT \"É\".a FROM \"É\" JOIN \"é\" ON TRUE" = .ok (.select s) ∧
        s.sources.map (fun source => (source.id?, source.isAliased)) =
          [(some 0, false), (some 0, false)] := by
  refine ⟨by cbv, ?_⟩
  let written : Select := ⟨"SELECT \"É\".a FROM \"É\" JOIN \"é\" ON TRUE", false,
    [.ofNodes [.column { qualifier := some "É", column := "a", offset := 7 }] "\"É\".a" 7],
    some (.table "É" none none 19),
    [⟨.table "é" none none 29, .inner, some (.ofNodes [.boolean true] "TRUE" 37)⟩],
    none, [], [], none, 0⟩
  have hparse : Statement.parse accented.config.parser
      "SELECT \"É\".a FROM \"É\" JOIN \"é\" ON TRUE" = .ok (.select written) := by cbv
  have hfound (name : String) (hname : Text.lower name = "é") :
      accented.catalog.findTable? name = some (0, accented.catalog.tables[0]) := by
    simp [Catalog.findTable?, accented, hname, Text.lower_accent.1]
  have hresolve : ∃ s, written.resolve accented.catalog [] = .ok s ∧
      s.sources.map (fun source => (source.id?, source.isAliased)) =
        [(some 0, false), (some 0, false)] := by
    simp only [written, Select.resolve, Source.resolveOption, Source.resolve, Join.resolveSources,
      hfound "É" Text.lower_accent.1, hfound "é" Text.lower_accent.2, ok_bind]
    refine map_eq_ok_iff.1 ?_
    cbv
  obtain ⟨s, hs, hids⟩ := hresolve
  refine ⟨s, ?_, hids⟩
  rw [prepare, Statement.prepare, hparse, ok_bind, Statement.resolve, hs]
  rfl

end SqlEngine
