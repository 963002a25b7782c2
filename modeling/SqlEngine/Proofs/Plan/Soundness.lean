import SqlEngine.Proofs.Plan.Code

/-!
# Plans — compiled SELECTs are sound

A typed SELECT that compiles gives rows of the types of its output, or an expected error, for all
rows around it (`Select.compile_sound`).

There is one condition.  What is equal to a group key reads the key, and equality goes by the names
of columns alone: a column of a statement further out is equal to a column of the statement itself
when their sources go by the same name.  The key may then have another type than what it is read
for.  `Select.keysAgree` says that this is not so.

* `Stages.Sound.plan`: a plan is sound when its programs are.
* `Expr.emit_sound`, `Select.compile_sound`: what typed expressions and SELECTs are compiled to.
-/

namespace SqlEngine

open Value (HaveTypes)

/-! ### Stages -/

section Stages

variable {c : Catalog} {now : Date.Instant} {scope : List (List DataType)}
variable {outer : List (List (List DataType))} {frames : List Frame} {types : List DataType}

theorem Program.queriesAll_eq_map (ps : List (Program Plan)) :
    Program.queriesAll c now ps = ps.map (Program.withQueries c now) := by
  induction ps with
  | nil => rfl
  | cons p ps ih => rw [Program.queriesAll, ih, List.map_cons]

theorem Program.queriesOption_eq_map (p : Option (Program Plan)) :
    Program.queriesOption c now p = p.map (Program.withQueries c now) := by
  cases p <;> rfl

theorem JoinStep.queriesAll_eq_map (js : List (JoinStep Plan)) :
    JoinStep.queriesAll c now js =
      js.map fun j => ⟨j.kind, j.condition.map (Program.withQueries c now)⟩ := by
  induction js with
  | nil => rfl
  | cons j js ih => rw [JoinStep.queriesAll, ih, Program.queriesOption_eq_map, List.map_cons]

theorem Slot.queriesAll_eq_map (slots : List (Slot Plan)) :
    Slot.queriesAll c now slots =
      slots.map fun slot => ⟨slot.target, slot.arguments.map (Program.withQueries c now)⟩ := by
  induction slots with
  | nil => rfl
  | cons slot slots ih => rw [Slot.queriesAll, ih, Program.queriesAll_eq_map, List.map_cons]

theorem SortKey.queriesAll_eq_map (ks : List (SortKey Plan)) :
    SortKey.queriesAll c now ks =
      ks.map fun k => ⟨k.program.withQueries c now, k.ascending⟩ := by
  induction ks with
  | nil => rfl
  | cons k ks ih => rw [SortKey.queriesAll, ih, List.map_cons]

/-- The stages of a plan as they are run. -/
theorem Stages.queries_eq (s : Stages Plan) :
    Stages.queries c now s =
      { sources := Supply.queriesAll c now s.sources
        joins := s.joins.map fun j => ⟨j.kind, j.condition.map (Program.withQueries c now)⟩
        filter := s.filter.map (Program.withQueries c now)
        outputs := s.outputs.map (Program.withQueries c now)
        columns := s.columns
        groupBy := s.groupBy.map (Program.withQueries c now)
        aggregates := s.aggregates.map fun slot =>
          ⟨slot.target, slot.arguments.map (Program.withQueries c now)⟩
        orderBy := s.orderBy.map fun k => ⟨k.program.withQueries c now, k.ascending⟩
        distinct := s.distinct
        limit := s.limit
        aggregated := s.aggregated } := by
  cases s
  simp only [Stages.queries, JoinStep.queriesAll_eq_map, Program.queriesOption_eq_map,
    Program.queriesAll_eq_map, Slot.queriesAll_eq_map, SortKey.queriesAll_eq_map]

/-- The source is a table with rows of the types, or a sound plan. -/
def Supply.Sound (c : Catalog) (now : Date.Instant) (outer : List (List (List DataType))) :
    Supply Plan → List DataType → Prop
  | .table id _, types   => ∃ p, c.provider? id = some p ∧ p.Holds types
  | .query plan _, types => plan.Sound c now outer types

theorem Supply.safeIn_queriesAll {supplies : List (Supply Plan)}
    (h : List.Forall₂ (Supply.Sound c now outer) supplies scope)
    (hframes : List.Forall₂ Frame.Fits frames outer) :
    List.Forall₂ (Supply.SafeIn c frames) (Supply.queriesAll c now supplies) scope := by
  induction h with
  | nil => exact .nil
  | @cons supply _ _ _ hsupply _ ih =>
    cases supply with
    | table id width => exact .cons hsupply ih
    | query plan width => exact .cons (hsupply frames hframes) ih

/-- The condition is missing, or its program is sound. -/
def Program.SoundOption (c : Catalog) (now : Date.Instant) (scope : List (List DataType))
    (outer : List (List (List DataType))) (p : Option (Program Plan)) : Prop :=
  ∀ q, p = some q → ∃ t, q.Sound c now scope outer t

/-- A condition that sees the first sources only is sound where all are seen. -/
theorem Program.SoundOption.of_take {p : Option (Program Plan)} {n : Nat}
    (h : Program.SoundOption c now (scope.take n) outer p) :
    Program.SoundOption c now scope outer p := by
  intro q hq
  obtain ⟨t, ht⟩ := h q hq
  exact ⟨t, fun env henv => ht env (henv.take n)⟩

/-- What is asked of the stages of a plan. -/
structure Stages.Sound (c : Catalog) (now : Date.Instant) (scope : List (List DataType))
    (outer : List (List (List DataType))) (ks : List Expr) (types : List DataType)
    (s : Stages Plan) : Prop where
  sources : List.Forall₂ (Supply.Sound c now outer) s.sources scope
  joined : scope = [] ∨ scope.length = s.joins.length + 1
  joins : ∀ j ∈ s.joins, Program.SoundOption c now scope outer j.condition
  filter : Program.SoundOption c now scope outer s.filter
  groupBy : List.Forall₂ (Program.Sound c now scope outer) s.groupBy (ks.map Expr.type)
  aggregates : ∀ slot ∈ s.aggregates, slot.Sound c now scope outer
  outputs : List.Forall₂
    (Program.Writes c now scope outer (if s.aggregated then some ks else none) s.aggregates)
    s.outputs types
  orderBy : ∀ k ∈ s.orderBy,
    k.Sound c now scope outer (if s.aggregated then some ks else none) s.aggregates

variable {s : Stages Plan} {ks : List Expr} {here : Setting}

theorem Program.Sound.safeIn {p : Program Plan} {t : DataType} (h : p.Sound c now scope outer t)
    (hhere : here.Of c now frames scope) (hframes : List.Forall₂ Frame.Fits frames outer) :
    (p.withQueries c now).SafeIn here t :=
  fun env henv => h env (henv.fits hhere hframes)

theorem Program.SoundOption.safeCondition {p : Option (Program Plan)}
    (h : Program.SoundOption c now scope outer p) (hhere : here.Of c now frames scope)
    (hframes : List.Forall₂ Frame.Fits frames outer) :
    here.SafeCondition (p.map (Program.withQueries c now)) := by
  intro q hq
  obtain ⟨p, rfl, rfl⟩ := Option.map_eq_some_iff.1 hq
  obtain ⟨t, ht⟩ := h p rfl
  exact ⟨t, ht.safeIn hhere hframes⟩

/-- The environments in which a group is projected have this group. -/
theorem Env.HasGroup.groups {env : Env}
    (h : s.aggregated = true →
      env.HasGroup (ks.map Expr.type) (s.aggregates.map (Slot.type c))) :
    env.Groups c (if s.aggregated then some ks else none) s.aggregates := by
  intro ks' hks
  split at hks
  next haggregated =>
    obtain rfl := Option.some.inj hks
    obtain ⟨hkeys, hresults⟩ := h haggregated
    refine ⟨hkeys, fun i slot hslot => forall₂_getElem? hresults ?_⟩
    rw [List.getElem?_map, hslot]
    rfl
  next => cases hks

theorem Stages.Sound.safeIn (h : s.Sound c now scope outer ks types)
    (hhere : here.Of c now frames scope) (hframes : List.Forall₂ Frame.Fits frames outer) :
    (Stages.queries c now s).SafeIn here (ks.map Expr.type) types := by
  have hslots : (s.aggregates.map fun slot : Slot Plan => Slot.mk slot.target
      (slot.arguments.map (Program.withQueries c now))).map (Slot.type here.catalog) =
      s.aggregates.map (Slot.type c) := by
    rw [List.map_map, hhere.catalog]
    rfl
  rw [Stages.queries_eq]
  refine ⟨?sources, ?joins, h.filter.safeCondition hhere hframes, ?groupBy, ?aggregates, ?outputs,
    ?orderBy⟩
  case sources =>
    have hlen := hhere.providers.length_eq
    rcases h.joined with hnil | hjoined
    · exact .inl (List.length_eq_zero_iff.1 (by rw [hlen, hnil]; rfl))
    · exact .inr (by rw [hlen, hjoined, List.length_map])
  case joins =>
    intro j hj
    obtain ⟨j', hj', rfl⟩ := List.mem_map.1 hj
    exact (h.joins j' hj').safeCondition hhere hframes
  case groupBy =>
    exact List.forall₂_map_left_iff.2 (h.groupBy.imp fun p t hp => hp.safeIn hhere hframes)
  case aggregates =>
    intro slot hslot
    obtain ⟨slot', hslot', rfl⟩ := List.mem_map.1 hslot
    obtain ⟨v, f, hv, hf, types, haccepts, hargs⟩ := h.aggregates slot' hslot'
    refine ⟨v, f, hhere.catalog ▸ hv, hf, types, haccepts, ?_⟩
    exact List.forall₂_map_left_iff.2 (hargs.imp fun p t hp => hp.safeIn hhere hframes)
  case outputs =>
    intro env henv hgroup
    rw [hslots] at hgroup
    exact List.forall₂_map_left_iff.2 (h.outputs.imp fun p t hp =>
      hp env (henv.fits hhere hframes) (Env.HasGroup.groups hgroup))
  case orderBy =>
    intro env henv hgroup k hk
    rw [hslots] at hgroup
    obtain ⟨k', hk', rfl⟩ := List.mem_map.1 hk
    exact h.orderBy k' hk' env (henv.fits hhere hframes) (Env.HasGroup.groups hgroup)

/-- **A plan is sound when its programs are.** -/
theorem Stages.Sound.plan (hc : c.functions = Function.builtins)
    (h : s.Sound c now scope outer ks types) : Plan.Sound c now outer (.of s) types := by
  intro frames hframes
  rw [Plan.query]
  refine Stages.rows_safe hc ?_ fun here hhere => h.safeIn hhere hframes
  rw [Stages.queries_eq]
  exact Supply.safeIn_queriesAll h.sources hframes

end Stages

/-! ### Group keys -/

/-- The group key at a position has the type, or is always NULL. -/
def keyFits (keys : Option (List Expr)) (i : Nat) (type : DataType) : Bool :=
  (keys.bind fun ks => ks[i]?).any fun k => k.type.isNull || k.type == type

mutual

/-- What is compiled to reading a group key has the type of the key, in the expression and in all
its sub-selects; a key that is always NULL goes with every type. -/
def Expr.keysAgree (keys : Option (List Expr)) : Expr → Bool
  | e@⟨nodes, type, _, _, _, _, _⟩ =>
    match e.keyIndex? keys with
    | some i => keyFits keys i type
    | none   => Node.keysAgreeAll keys nodes

def Node.keysAgree (keys : Option (List Expr)) : Node → Bool
  | .operator _ | .openParen | .closeParen => true
  | n =>
    match n.keyIndex? keys with
    | some i =>
      match n.typed with
      | .value type => keyFits keys i type
      | _           => true
    | none   =>
      match n with
      | .call f   => f.keysAgree keys
      | .select s => s.keysAgree
      | _         => true

def Node.keysAgreeAll (keys : Option (List Expr)) : List Node → Bool
  | []      => true
  | n :: ns => n.keysAgree keys && Node.keysAgreeAll keys ns

/-- In the arguments of an aggregate group keys mean nothing. -/
def Call.keysAgree (keys : Option (List Expr)) : Call → Bool
  | ⟨_, arguments, _, _, true, _⟩  => Expr.keysAgreeAll none arguments
  | ⟨_, arguments, _, _, false, _⟩ => Expr.keysAgreeAll keys arguments

def Expr.keysAgreeAll (keys : Option (List Expr)) : List Expr → Bool
  | []      => true
  | e :: es => e.keysAgree keys && Expr.keysAgreeAll keys es

def Expr.keysAgreeOption : Option Expr → Bool
  | none   => true
  | some e => e.keysAgree none

def Source.keysAgree : Source → Bool
  | .table ..     => true
  | .select s _ _ => s.keysAgree

def Source.keysAgreeOption : Option Source → Bool
  | none   => true
  | some s => s.keysAgree

def Join.keysAgreeAll : List Join → Bool
  | []                          => true
  | ⟨source, _, condition⟩ :: js =>
    source.keysAgree && Expr.keysAgreeOption condition && Join.keysAgreeAll js

def OrderKey.keysAgreeAll (keys : Option (List Expr)) : List OrderKey → Bool
  | []           => true
  | ⟨e, _⟩ :: ks => e.keysAgree keys && OrderKey.keysAgreeAll keys ks

/-- Only outputs and sort keys read group keys, and only when rows are folded into groups. -/
def Select.keysAgree : Select → Bool
  | s@⟨_, _, output, origin, joins, filter, groupBy, orderBy, _, _⟩ =>
    Source.keysAgreeOption origin && Join.keysAgreeAll joins && Expr.keysAgreeOption filter &&
      Expr.keysAgreeAll none groupBy && Expr.keysAgreeAll s.groupKeys output &&
      OrderKey.keysAgreeAll s.groupKeys orderBy

end

section Keys

variable {keys : Option (List Expr)} {i : Nat} {t : DataType}

theorem Expr.keyFits_of_keysAgree {e : Expr} (h : e.keysAgree keys = true)
    (hi : e.keyIndex? keys = some i) : keyFits keys i e.type = true := by
  obtain ⟨nodes, type, isBoolean, hasAggregate, source, aliasName, offset⟩ := e
  simpa only [Expr.keysAgree, hi] using h

theorem Expr.keysAgree_nodes {e : Expr} (h : e.keysAgree keys = true)
    (hi : e.keyIndex? keys = none) : Node.keysAgreeAll keys e.nodes = true := by
  obtain ⟨nodes, type, isBoolean, hasAggregate, source, aliasName, offset⟩ := e
  simpa only [Expr.keysAgree, hi] using h

theorem Node.keyFits_of_keysAgree {n : Node} (h : n.keysAgree keys = true)
    (hn : n.isValue = true) (hi : n.keyIndex? keys = some i) :
    ∃ t, n.typed = .value t ∧ keyFits keys i t = true := by
  cases n with
  | operator | openParen | closeParen => cases hn
  | number | text | boolean | null | column | call | select =>
    simp only [Node.keysAgree, hi] at h
    exact ⟨_, rfl, h⟩

theorem Node.keysAgree_call {f : Call} (h : (Node.call f).keysAgree keys = true)
    (hi : (Node.call f).keyIndex? keys = none) : f.keysAgree keys = true := by
  simpa only [Node.keysAgree, hi] using h

theorem Node.keysAgree_select {s : Select} (h : (Node.select s).keysAgree keys = true)
    (hi : (Node.select s).keyIndex? keys = none) : s.keysAgree = true := by
  simpa only [Node.keysAgree, hi] using h

/-- Reading a key that fits the type is sound for the type. -/
theorem Code.sound_of_keyFits {c : Catalog} {now : Date.Instant} {scope : List (List DataType)}
    {outer : List (List (List DataType))} {parts : Parts} (h : keyFits keys i t = true) :
    Code.Sound c now scope outer keys ⟨[.groupKey i], parts⟩ t := by
  obtain ⟨k, hk, hfits⟩ := (Option.any_eq_true _ _).1 h
  obtain ⟨ks, hkeys, hk⟩ := Option.bind_eq_some_iff.1 hk
  have hkey : Code.Sound c now scope outer keys ⟨[.groupKey i], parts⟩ k.type :=
    Code.sound_groupKey hkeys hk
  simp only [DataType.isNull, Bool.or_eq_true, beq_iff_eq] at hfits
  rcases hfits with hnull | rfl
  · exact hkey.mono fun v hv => .inl (Value.HasType.eq_null (hnull ▸ hv))
  · exact hkey

end Keys

/-! ### Expressions and SELECTs -/

/-- What is asked of the catalog: it has the built-in functions, and each table has rows of the
types of its columns. -/
structure Catalog.Serves (c : Catalog) : Prop where
  functions : c.functions = Function.builtins
  tables : ∀ t ∈ c.tables, ∃ p, t.provider = some p ∧ p.Holds (t.columns.map Column.type)

theorem Catalog.Serves.provider {c : Catalog} (h : c.Serves) {id : Nat} {t : Table}
    (ht : c.tables[id]? = some t) :
    ∃ p, c.provider? id = some p ∧ p.Holds (t.columns.map Column.type) := by
  obtain ⟨p, hp, hholds⟩ := h.tables t (List.mem_of_getElem? ht)
  exact ⟨p, by rw [Catalog.provider?, ht, Option.bind_some, hp], hholds⟩

section Soundness

variable {c : Catalog} {now : Date.Instant}

mutual

/-- **The code of a typed expression is sound**, when what reads a group key has its type. -/
theorem Expr.emit_sound (hc : c.Serves) : ∀ {e : Expr} {keys : Option (List Expr)}
    {parts : Parts} {code : Code} {scope : List (List DataType)}
    {outer : List (List (List DataType))},
    e.emit c keys parts = .ok code → e.Typed c (scope :: outer) → e.keysAgree keys = true →
    parts.Sound c now scope outer →
    Code.Sound c now scope outer keys code e.type ∧ code.parts.Sound c now scope outer
  | ⟨nodes, _, _, _, _, _, _⟩, keys, parts, code, scope, outer, h, htyped, hagree, hparts => by
    cases Expr.emit_cases h with
    | key hi =>
      exact ⟨Code.sound_of_keyFits (Expr.keyFits_of_keysAgree hagree hi), hparts⟩
    | formula hi hitems ht =>
      obtain ⟨hnodes, htype⟩ := htyped
      obtain ⟨hrel, hparts'⟩ :=
        Node.emitAll_sound hc hitems hnodes (Expr.keysAgree_nodes hagree hi) hparts
      obtain ⟨types, htypes, hτ⟩ := Formula.typeOf_eq_ok_iff.1 htype
      obtain ⟨types', htypes', hrel⟩ := Formula.tree?_rel hrel ht
      obtain rfl := Option.some.inj (htypes.symm.trans htypes')
      exact ⟨Code.sound_tree hrel hτ, hparts'⟩

theorem Node.emit_sound (hc : c.Serves) : ∀ {n : Node} {keys : Option (List Expr)}
    {parts parts' : Parts} {item : Item (List Instr)} {scope : List (List DataType)}
    {outer : List (List (List DataType))},
    n.emit c keys parts = .ok (item, parts') → n.Typed c (scope :: outer) →
    n.keysAgree keys = true → parts.Sound c now scope outer →
    Item.Rel (fun instrs t => Code.Sound c now scope outer keys ⟨instrs, parts'⟩ t) item n.typed ∧
      parts'.Sound c now scope outer
  | n, keys, parts, parts', item, scope, outer, h, htyped, hagree, hparts => by
    cases Node.emit_cases h with
    | operator op => exact ⟨.operator op, hparts⟩
    | openParen => exact ⟨.openParen, hparts⟩
    | closeParen => exact ⟨.closeParen, hparts⟩
    | key hn hi =>
      obtain ⟨t, htype, hfits⟩ := Node.keyFits_of_keysAgree hagree hn hi
      rw [htype]
      exact ⟨.value (Code.sound_of_keyFits hfits), hparts⟩
    | number x => exact ⟨.value (Code.sound_push (fun _ _ _ => rfl) (.inr rfl)), hparts⟩
    | text s => exact ⟨.value (Code.sound_push (fun _ _ _ => rfl) (.inr rfl)), hparts⟩
    | boolean b => exact ⟨.value (Code.sound_push (fun _ _ _ => rfl) (.inr rfl)), hparts⟩
    | null => exact ⟨.value (Code.sound_push (fun _ _ _ => rfl) (.inl rfl)), hparts⟩
    | column hi => exact ⟨.value (Code.sound_column htyped hi), hparts⟩
    | call hi hf =>
      obtain ⟨hcode, hparts'⟩ := Call.emit_sound hc hf htyped (Node.keysAgree_call hagree hi) hparts
      exact ⟨.value hcode, hparts'⟩
    | @select s plan hi hs =>
      obtain ⟨hselect, hwidth⟩ := htyped
      have hplan := Select.compile_sound hc hs hselect (Node.keysAgree_select hagree hi)
      obtain ⟨e, he⟩ := List.length_eq_one_iff.1 hwidth
      have htype : s.valueType = e.type := by rw [Select.valueType, he]; rfl
      rw [he] at hplan
      rw [Node.typed, htype]
      exact ⟨.value (Code.sound_select hplan), hparts⟩

theorem Node.emitAll_sound (hc : c.Serves) : ∀ {ns : List Node} {keys : Option (List Expr)}
    {parts parts' : Parts} {items : List (Item (List Instr))} {scope : List (List DataType)}
    {outer : List (List (List DataType))},
    Node.emitAll c keys parts ns = .ok (items, parts') → Node.TypedAll c (scope :: outer) ns →
    Node.keysAgreeAll keys ns = true → parts.Sound c now scope outer →
    List.Forall₂ (Item.Rel (fun instrs t => Code.Sound c now scope outer keys ⟨instrs, parts'⟩ t))
      items (ns.map Node.typed) ∧ parts'.Sound c now scope outer
  | [], keys, parts, parts', items, scope, outer, h, _, _, hparts => by
    obtain ⟨rfl, rfl⟩ := Prod.mk.inj (Except.ok.inj h)
    exact ⟨.nil, hparts⟩
  | n :: ns, keys, parts, parts', items, scope, outer, h, htyped, hagree, hparts => by
    obtain ⟨item, mid, rest, hitem, hrest, rfl⟩ := Node.emitAll_cons h
    obtain ⟨hn, hns⟩ := Bool.and_eq_true_iff.1 hagree
    obtain ⟨hfirst, hmid⟩ := Node.emit_sound hc hitem htyped.1 hn hparts
    obtain ⟨hmore, hparts'⟩ := Node.emitAll_sound hc hrest htyped.2 hns hmid
    exact ⟨.cons (hfirst.imp fun _ _ hcode => hcode.of_le (Node.emitAll_le hrest)) hmore, hparts'⟩

theorem Call.emit_sound (hc : c.Serves) : ∀ {f : Call} {keys : Option (List Expr)}
    {parts : Parts} {code : Code} {scope : List (List DataType)}
    {outer : List (List (List DataType))},
    f.emit c keys parts = .ok code → f.Typed c (scope :: outer) → f.keysAgree keys = true →
    parts.Sound c now scope outer →
    Code.Sound c now scope outer keys code f.type ∧ code.parts.Sound c now scope outer
  | ⟨_, arguments, _, _, _, _⟩, keys, parts, code, scope, outer, h, htyped, hagree, hparts => by
    obtain ⟨hargs, o, v, ho, hv, haccepts, rfl, haggregate⟩ := htyped
    cases Call.emit_cases h with
    | @aggregate _ _ target _ _ programs hsome hprograms =>
      obtain rfl := Option.some.inj ho
      obtain ⟨f, hf⟩ := Variant.exists_aggregate haggregate
      -- the slot comes behind those that are there
      have hsound := Expr.programs_sound hc hprograms hargs hagree
      have htype : Slot.type c (Slot.mk target programs) = v.result := by
        simp only [Slot.type, hv, Option.map_some, Option.getD_some]
      refine ⟨htype ▸ Code.sound_aggregate hsome, fun slot hslot => ?_⟩
      rcases List.mem_append.1 hslot with hslot | hslot
      · exact hparts slot hslot
      · obtain rfl := List.mem_singleton.1 hslot
        exact ⟨v, f, hv, hf, _, haccepts, hsound⟩
    | scalar hcode =>
      obtain rfl := Option.some.inj ho
      obtain ⟨f, hf⟩ := Variant.exists_scalar haggregate
      obtain ⟨hsound, hparts'⟩ := Expr.emitAll_sound hc hcode hargs hagree hparts
      have hcall := hsound.call hc.functions hv hf haccepts
      rw [List.length_map] at hcall
      exact ⟨hcall, hparts'⟩

theorem Expr.emitAll_sound (hc : c.Serves) : ∀ {es : List Expr} {keys : Option (List Expr)}
    {parts : Parts} {code : Code} {scope : List (List DataType)}
    {outer : List (List (List DataType))},
    Expr.emitAll c keys parts es = .ok code → Expr.TypedAll c (scope :: outer) es →
    Expr.keysAgreeAll keys es = true → parts.Sound c now scope outer →
    Code.SoundAll c now scope outer keys code (es.map Expr.type) ∧
      code.parts.Sound c now scope outer
  | [], keys, parts, code, scope, outer, h, _, _, hparts => by
    obtain rfl := Except.ok.inj h
    exact ⟨Code.soundAll_nil, hparts⟩
  | e :: es, keys, parts, code, scope, outer, h, htyped, hagree, hparts => by
    obtain ⟨first, more, hfirst, hmore, rfl⟩ := Expr.emitAll_cons h
    obtain ⟨he, hes⟩ := Bool.and_eq_true_iff.1 hagree
    obtain ⟨hcode, hmid⟩ := Expr.emit_sound hc hfirst htyped.1 he hparts
    obtain ⟨hrest, hparts'⟩ := Expr.emitAll_sound hc hmore htyped.2 hes hmid
    exact ⟨hcode.cons hrest (Expr.emitAll_le hmore), hparts'⟩

theorem Expr.programs_sound (hc : c.Serves) : ∀ {es : List Expr} {programs : List (Program Plan)}
    {scope : List (List DataType)} {outer : List (List (List DataType))},
    Expr.programs c es = .ok programs → Expr.TypedAll c (scope :: outer) es →
    Expr.keysAgreeAll none es = true →
    List.Forall₂ (Program.Sound c now scope outer) programs (es.map Expr.type)
  | [], programs, scope, outer, h, _, _ => by
    obtain rfl := Except.ok.inj h
    exact .nil
  | e :: es, programs, scope, outer, h, htyped, hagree => by
    obtain ⟨code, rest, hcode, hrest, rfl⟩ := Expr.programs_cons h
    obtain ⟨he, hes⟩ := Bool.and_eq_true_iff.1 hagree
    obtain ⟨hsound, -⟩ := Expr.emit_sound hc hcode htyped.1 he Parts.sound_empty
    exact .cons hsound.program (Expr.programs_sound hc hrest htyped.2 hes)

theorem Expr.programOption_sound (hc : c.Serves) : ∀ {e : Option Expr} {p : Option (Program Plan)}
    {scope : List (List DataType)} {outer : List (List (List DataType))},
    Expr.programOption c e = .ok p → Expr.TypedOption c (scope :: outer) e →
    Expr.keysAgreeOption e = true → Program.SoundOption c now scope outer p
  | none, p, scope, outer, h, _, _ => by
    obtain rfl := Except.ok.inj h
    nofun
  | some e, p, scope, outer, h, htyped, hagree => by
    simp only [Expr.programOption, bind_eq_ok_iff] at h
    obtain ⟨code, hcode, h⟩ := h
    obtain rfl := Except.ok.inj h
    obtain ⟨hsound, -⟩ := Expr.emit_sound hc hcode htyped hagree Parts.sound_empty
    intro q hq
    obtain rfl := Option.some.inj hq
    exact ⟨e.type, hsound.program⟩

theorem Expr.outputPrograms_sound (hc : c.Serves) : ∀ {es : List Expr} {keys : Option (List Expr)}
    {slots slots' : List (Slot Plan)} {programs : List (Program Plan)}
    {scope : List (List DataType)} {outer : List (List (List DataType))},
    Expr.outputPrograms c keys slots es = .ok (programs, slots') →
    Expr.TypedAll c (scope :: outer) es → Expr.keysAgreeAll keys es = true →
    (∀ slot ∈ slots, slot.Sound c now scope outer) →
    List.Forall₂ (Program.Writes c now scope outer keys slots') programs (es.map Expr.type) ∧
      ∀ slot ∈ slots', slot.Sound c now scope outer
  | [], keys, slots, slots', programs, scope, outer, h, _, _, hslots => by
    obtain ⟨rfl, rfl⟩ := Prod.mk.inj (Except.ok.inj h)
    exact ⟨.nil, hslots⟩
  | e :: es, keys, slots, slots', programs, scope, outer, h, htyped, hagree, hslots => by
    obtain ⟨code, rest, hcode, hrest, rfl⟩ := Expr.outputPrograms_cons h
    obtain ⟨he, hes⟩ := Bool.and_eq_true_iff.1 hagree
    have hparts : Parts.Sound c now scope outer ⟨[], slots⟩ := hslots
    obtain ⟨hwrites, hmid⟩ := Expr.outputCode_sound htyped.1 hslots
      (fun _ hvalue => Expr.emit_sound hc hvalue htyped.1 he hparts) hcode
    obtain ⟨hmore, hslots'⟩ := Expr.outputPrograms_sound hc hrest htyped.2 hes hmid
    exact ⟨.cons (hwrites.of_le (Expr.outputPrograms_le hrest)) hmore, hslots'⟩

theorem OrderKey.sortKeys_sound (hc : c.Serves) : ∀ {ks : List OrderKey} {keys : Option (List Expr)}
    {slots slots' : List (Slot Plan)} {sortKeys : List (SortKey Plan)}
    {scope : List (List DataType)} {outer : List (List (List DataType))},
    OrderKey.sortKeys c keys slots ks = .ok (sortKeys, slots') →
    OrderKey.TypedAll c (scope :: outer) ks → OrderKey.keysAgreeAll keys ks = true →
    (∀ slot ∈ slots, slot.Sound c now scope outer) →
    (∀ k ∈ sortKeys, k.Sound c now scope outer keys slots') ∧
      ∀ slot ∈ slots', slot.Sound c now scope outer
  | [], keys, slots, slots', sortKeys, scope, outer, h, _, _, hslots => by
    obtain ⟨rfl, rfl⟩ := Prod.mk.inj (Except.ok.inj h)
    exact ⟨nofun, hslots⟩
  | ⟨e, ascending⟩ :: ks, keys, slots, slots', sortKeys, scope, outer, h, htyped, hagree,
      hslots => by
    obtain ⟨code, rest, hcode, hrest, rfl⟩ := OrderKey.sortKeys_cons h
    obtain ⟨he, hks⟩ := Bool.and_eq_true_iff.1 hagree
    obtain ⟨hsound, hmid⟩ := Expr.emit_sound hc hcode htyped.1 he hslots
    obtain ⟨hmore, hslots'⟩ := OrderKey.sortKeys_sound hc hrest htyped.2 hks hmid
    exact ⟨List.forall_mem_cons.2
      ⟨(hsound.sortKey ascending).of_le (OrderKey.sortKeys_le hrest), hmore⟩, hslots'⟩

theorem Source.supply_sound (hc : c.Serves) : ∀ {s : Source} {supply : Supply Plan}
    {outer : List (List (List DataType))}, s.supply c = .ok supply → s.Typed c outer →
    s.keysAgree = true → Supply.Sound c now outer supply (s.types c)
  | s, supply, outer, h, htyped, hagree => by
    cases Source.supply_cases h with
    | @table name aliasName id offset t ht =>
      have htypes : (Source.table name aliasName (some id) offset).types c =
          t.columns.map Column.type := by
        simp only [Source.types, Source.scopeSource, Option.bind_some, ht]
      rw [htypes]
      exact hc.provider ht
    | @select s aliasName offset plan hs =>
      have htypes : (Source.select s aliasName offset).types c = s.output.map Expr.type := by
        simp only [Source.types, Source.scopeSource, List.map_map]
        rfl
      rw [htypes]
      exact Select.compile_sound hc hs htyped hagree

theorem Source.supplies_sound (hc : c.Serves) : ∀ {s : Option Source}
    {supplies : List (Supply Plan)} {outer : List (List (List DataType))},
    Source.supplies c s = .ok supplies →
    Source.TypedOption c outer s → Source.keysAgreeOption s = true →
    List.Forall₂ (Supply.Sound c now outer) supplies (s.toList.map (Source.types c))
  | none, supplies, outer, h, _, _ => by
    obtain rfl := Except.ok.inj h
    exact .nil
  | some s, supplies, outer, h, htyped, hagree => by
    simp only [Source.supplies, bind_eq_ok_iff] at h
    obtain ⟨supply, hsupply, h⟩ := h
    obtain rfl := Except.ok.inj h
    exact .cons (Source.supply_sound hc hsupply htyped hagree) .nil

theorem Join.supplies_sound (hc : c.Serves) : ∀ {js : List Join} {supplies : List (Supply Plan)}
    {scope : List (List DataType)} {outer : List (List (List DataType))} {visible : Nat},
    Join.supplies c js = .ok supplies → Join.TypedAll c scope outer visible js →
    Join.keysAgreeAll js = true →
    List.Forall₂ (Supply.Sound c now outer) supplies ((js.map Join.source).map (Source.types c))
  | [], supplies, scope, outer, visible, h, _, _ => by
    obtain rfl := Except.ok.inj h
    exact .nil
  | ⟨source, kind, condition⟩ :: js, supplies, scope, outer, visible, h, htyped, hagree => by
    obtain ⟨supply, rest, hsupply, hrest, rfl⟩ := Join.supplies_cons h
    obtain ⟨hhere, hjs⟩ := Bool.and_eq_true_iff.1 hagree
    obtain ⟨hsource, -⟩ := Bool.and_eq_true_iff.1 hhere
    exact .cons (Source.supply_sound hc hsupply htyped.1 hsource)
      (Join.supplies_sound hc hrest htyped.2.2 hjs)

theorem Join.steps_sound (hc : c.Serves) : ∀ {js : List Join} {steps : List (JoinStep Plan)}
    {scope : List (List DataType)} {outer : List (List (List DataType))} {visible : Nat},
    Join.steps c js = .ok steps → Join.TypedAll c scope outer visible js →
    Join.keysAgreeAll js = true →
    ∀ j ∈ steps, Program.SoundOption c now scope outer j.condition
  | [], steps, scope, outer, visible, h, _, _ => by
    obtain rfl := Except.ok.inj h
    nofun
  | ⟨source, kind, condition⟩ :: js, steps, scope, outer, visible, h, htyped, hagree => by
    obtain ⟨p, rest, hp, hrest, rfl⟩ := Join.steps_cons h
    obtain ⟨hhere, hjs⟩ := Bool.and_eq_true_iff.1 hagree
    obtain ⟨-, hcondition⟩ := Bool.and_eq_true_iff.1 hhere
    have hsound := Expr.programOption_sound hc hp htyped.2.1 hcondition
    exact List.forall_mem_cons.2 ⟨hsound.of_take, Join.steps_sound hc hrest htyped.2.2 hjs⟩

/-- **A typed SELECT that compiles is sound**, when what reads a group key has its type. -/
theorem Select.compile_sound (hc : c.Serves) : ∀ {s : Select} {plan : Plan}
    {outer : List (List (List DataType))},
    s.compile c = .ok plan → s.Typed c outer → s.keysAgree = true →
    plan.Sound c now outer (s.output.map Expr.type)
  | ⟨text, distinct, output, origin, joins, filter, groupBy, orderBy, limit, offset⟩, plan, outer,
      h, htyped, hagree => by
    obtain ⟨stages, rfl, hstages⟩ := Select.compile_eq_ok h
    obtain ⟨⟨first, more, hfirst, hmore, hsources⟩, hjoins, hfilter, hgroup,
      ⟨slots, houtputs, horder⟩, -, haggregated⟩ := hstages
    obtain ⟨hOrigin, hJoins, hNone, hOutput, hFilter, hGroup, hOrder⟩ := htyped
    simp only [Select.keysAgree, Bool.and_eq_true] at hagree
    obtain ⟨⟨⟨⟨⟨hkOrigin, hkJoins⟩, hkFilter⟩, hkGroup⟩, hkOutput⟩, hkOrder⟩ := hagree
    have hkeys : (Select.mk text distinct output origin joins filter groupBy orderBy limit
        offset).groupKeys = if stages.aggregated then some groupBy else none := by
      rw [haggregated]
      rfl
    obtain ⟨hwrites, hslots⟩ :=
      Expr.outputPrograms_sound hc houtputs hOutput hkOutput Parts.sound_empty
    obtain ⟨hsort, hslots'⟩ := OrderKey.sortKeys_sound hc horder hOrder hkOrder hslots
    -- the first source, and those of the joins
    have hsources' : List.Forall₂ (Supply.Sound c now outer) stages.sources
        ((origin.toList ++ joins.map Join.source).map (Source.types c)) := by
      rw [hsources, List.map_append]
      exact List.rel_append (Source.supplies_sound hc hfirst hOrigin hkOrigin)
        (Join.supplies_sound hc hmore hJoins hkJoins)
    have hjoined : (origin.toList ++ joins.map Join.source).map (Source.types c) = [] ∨
        ((origin.toList ++ joins.map Join.source).map (Source.types c)).length =
          stages.joins.length + 1 := by
      rw [Join.length_steps hjoins]
      cases origin with
      | none =>
        obtain rfl := hNone rfl
        exact .inl rfl
      | some origin => exact .inr (by simp)
    have hsound : stages.Sound c now _ outer groupBy (output.map Expr.type) :=
      ⟨hsources', hjoined, Join.steps_sound hc hjoins hJoins hkJoins,
        Expr.programOption_sound hc hfilter hFilter hkFilter,
        Expr.programs_sound hc hgroup hGroup hkGroup, hslots',
        hkeys ▸ hwrites.imp fun p t hp => hp.of_le (OrderKey.sortKeys_le horder), hkeys ▸ hsort⟩
    exact hsound.plan hc.functions

end

end Soundness

end SqlEngine
