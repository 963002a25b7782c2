import SqlEngine.Plan.Compiler
import SqlEngine.Proofs.Program.Run

/-!
# Plans — how code is emitted

One inversion lemma for each emitter of the compiler: what its result is made of, when it has one;
for a SELECT as a whole these are the stages of its plan (`Select.Compiles`).
The code of a formula is that of its operator tree (`formulaCode_eq_ok_iff`).  Emitting adds nested
plans and slots behind those that were there (`Parts.Le`), so instructions keep their meaning when
more code follows.
-/

namespace SqlEngine

open Formula (tree?)

variable {c : Catalog} {keys : Option (List Expr)} {parts parts' : Parts}

/-! ### Formulas -/

theorem Formula.Tree.flatMap_steps {f : Step (List Instr) → List Instr}
    (hvalue : ∀ code, f (.value code) = code) (hop : ∀ op, f (.operator op) = [.operator op])
    (t : Formula.Tree (List Instr)) : t.steps.flatMap f = t.code := by
  induction t with
  | leaf instrs => simp [steps, code, hvalue]
  | group t ih => exact ih
  | node op left right ihl ihr => simp [steps, code, hop, ihl, ihr]

theorem formulaCode_eq_ok_iff {items : List (Item (List Instr))} {code : List Instr} :
    formulaCode items = .ok code ↔ ∃ t, tree? items = some t ∧ t.code = code := by
  constructor
  · intro h
    cases hl : Formula.linearize items with
    | error f => simp [formulaCode, hl] at h
    | ok steps =>
      obtain ⟨t, ht, rfl⟩ := Formula.linearize_eq_ok_iff.1 hl
      simp only [formulaCode, hl] at h
      exact ⟨t, ht, (Formula.Tree.flatMap_steps (fun _ => rfl) (fun _ => rfl) t).symm.trans
        (Except.ok.inj h)⟩
  · rintro ⟨t, ht, rfl⟩
    simp only [formulaCode, Formula.linearize_eq_ok_iff.2 ⟨t, ht, rfl⟩]
    exact congrArg Except.ok (Formula.Tree.flatMap_steps (fun _ => rfl) (fun _ => rfl) t)

/-! ### Inversion -/

/-- The ways in which an expression is emitted: as a group key, or as its formula. -/
inductive Expr.Emits (c : Catalog) (keys : Option (List Expr)) (parts : Parts) (e : Expr) :
    Code → Prop
  | key {i : Nat} (hi : e.keyIndex? keys = some i) : Emits c keys parts e ⟨[.groupKey i], parts⟩
  | formula {items : List (Item (List Instr))} {parts' : Parts} {t : Formula.Tree (List Instr)}
      (hi : e.keyIndex? keys = none)
      (hitems : Node.emitAll c keys parts e.nodes = .ok (items, parts'))
      (ht : tree? items = some t) : Emits c keys parts e ⟨t.code, parts'⟩

theorem Expr.emit_cases {e : Expr} {code : Code} (h : e.emit c keys parts = .ok code) :
    e.Emits c keys parts code := by
  obtain ⟨nodes, type, isBoolean, hasAggregate, source, aliasName, offset⟩ := e
  rw [Expr.emit] at h
  split at h
  next i hi =>
    obtain rfl := Except.ok.inj h
    exact .key hi
  next hi =>
    simp only [bind_eq_ok_iff, formulaCode_eq_ok_iff] at h
    obtain ⟨⟨items, parts'⟩, hitems, _, ⟨t, ht, rfl⟩, h⟩ := h
    obtain rfl := Except.ok.inj h
    exact .formula hi hitems ht

/-- The ways in which an output is written: as a column of the statement itself, or as its value. -/
inductive Expr.Outs (keys : Option (List Expr)) (slots : List (Slot Plan)) (e : Expr)
    (value : Except Error Code) : Code → Prop
  | column {r : ColumnRef} {i : Instr} (hi : e.keyIndex? keys = none) (hr : e.column? = some r)
      (hlevel : (r.level == 0) = true) (h : r.outInstr = .ok i) :
      Outs keys slots e value ⟨[i], ⟨[], slots⟩⟩
  | value {code : Code} (h : value = .ok code) : Outs keys slots e value (code.andThen .out)

theorem Expr.ownColumn?_eq_some {e : Expr} {r : ColumnRef} (h : e.ownColumn? keys = some r) :
    e.keyIndex? keys = none ∧ e.column? = some r ∧ (r.level == 0) = true := by
  simp only [Expr.ownColumn?] at h
  split at h
  next => cases h
  next hi => exact ⟨Option.not_isSome_iff_eq_none.1 hi, Option.filter_eq_some_iff.1 h⟩

theorem Expr.outputCode_cases {e : Expr} {slots : List (Slot Plan)} {value : Except Error Code}
    {code : Code} (h : e.outputCode keys slots value = .ok code) : e.Outs keys slots value code := by
  simp only [Expr.outputCode] at h
  split at h
  next r hown =>
    obtain ⟨hi, hr, hlevel⟩ := Expr.ownColumn?_eq_some hown
    obtain ⟨i, hinstr, rfl⟩ := map_eq_ok_iff.1 h
    exact .column hi hr hlevel hinstr
  next =>
    obtain ⟨code, hcode, rfl⟩ := map_eq_ok_iff.1 h
    exact .value hcode

/-- The ways in which a node is emitted; a value that is a group key reads the key. -/
inductive Node.Emits (c : Catalog) (keys : Option (List Expr)) (parts : Parts) :
    Node → Item (List Instr) → Parts → Prop
  | operator (op : Operator) : Emits c keys parts (.operator op) (.operator op) parts
  | openParen : Emits c keys parts .openParen .openParen parts
  | closeParen : Emits c keys parts .closeParen .closeParen parts
  | key {n : Node} {i : Nat} (hn : n.isValue = true) (hi : n.keyIndex? keys = some i) :
      Emits c keys parts n (.value [.groupKey i]) parts
  | number (x : Float) : Emits c keys parts (.number x) (.value [.number x]) parts
  | text (s : String) : Emits c keys parts (.text s) (.value [.text s]) parts
  | boolean (b : Bool) : Emits c keys parts (.boolean b) (.value [.boolean b]) parts
  | null : Emits c keys parts .null (.value [.null]) parts
  | column {r : ColumnRef} {i : Instr} (hi : r.instr = .ok i) :
      Emits c keys parts (.column r) (.value [i]) parts
  | call {f : Call} {code : Code} (hi : (Node.call f).keyIndex? keys = none)
      (h : f.emit c keys parts = .ok code) :
      Emits c keys parts (.call f) (.value code.instrs) code.parts
  | select {s : Select} {plan : Plan} (hi : (Node.select s).keyIndex? keys = none)
      (h : s.compile c = .ok plan) :
      Emits c keys parts (.select s) (.value [.select parts.queries.length])
        { parts with queries := parts.queries ++ [plan] }

theorem Node.emit_cases {n : Node} {item : Item (List Instr)}
    (h : n.emit c keys parts = .ok (item, parts')) : n.Emits c keys parts item parts' := by
  cases n with
  | operator op => obtain ⟨rfl, rfl⟩ := Prod.mk.inj (Except.ok.inj h); exact .operator op
  | openParen => obtain ⟨rfl, rfl⟩ := Prod.mk.inj (Except.ok.inj h); exact .openParen
  | closeParen => obtain ⟨rfl, rfl⟩ := Prod.mk.inj (Except.ok.inj h); exact .closeParen
  | number | text | boolean | null | column | call | select =>
    rw [Node.emit] at h
    split at h
    next i hi =>
      obtain ⟨rfl, rfl⟩ := Prod.mk.inj (Except.ok.inj h)
      exact .key rfl hi
    next hi =>
      simp only [bind_eq_ok_iff, Except.ok.injEq, Prod.mk.injEq] at h
      first
      | obtain ⟨rfl, rfl⟩ := h
        constructor
      | obtain ⟨x, hx, rfl, rfl⟩ := h
        first
        | exact .column hx
        | exact .call hi hx
        | exact .select hi hx

/-- A call is that of an aggregate, which becomes a slot, or that of a scalar function, which is
called after its arguments. -/
inductive Call.Emits (c : Catalog) (keys : Option (List Expr)) (parts : Parts) :
    Call → Code → Prop
  | aggregate {function : String} {arguments : List Expr} {target : Overload} {type : DataType}
      {offset : Nat} {programs : List (Program Plan)} (hkeys : keys.isSome = true)
      (h : Expr.programs c arguments = .ok programs) :
      Emits c keys parts ⟨function, arguments, some target, type, true, offset⟩
        ⟨[.aggregate parts.slots.length],
          { parts with slots := parts.slots ++ [⟨target, programs⟩] }⟩
  | scalar {function : String} {arguments : List Expr} {target : Overload} {type : DataType}
      {offset : Nat} {code : Code} (h : Expr.emitAll c keys parts arguments = .ok code) :
      Emits c keys parts ⟨function, arguments, some target, type, false, offset⟩
        (code.andThen (.call target arguments.length))

theorem Call.emit_cases {f : Call} {code : Code} (h : f.emit c keys parts = .ok code) :
    f.Emits c keys parts code := by
  obtain ⟨function, arguments, target, type, isAggregate, offset⟩ := f
  cases target with
  | none => cases isAggregate <;> cases h
  | some target =>
    cases isAggregate with
    | true =>
      simp only [Call.emit, bind_eq_ok_iff] at h
      obtain ⟨programs, hp, h⟩ := h
      cases hkeys : keys with
      | none => simp [hkeys, throw, throwThe, MonadExceptOf.throw] at h
      | some ks =>
        simp only [hkeys] at h
        obtain rfl := Except.ok.inj h
        exact .aggregate rfl hp
    | false =>
      simp only [Call.emit, bind_eq_ok_iff] at h
      obtain ⟨code', hcode, h⟩ := h
      obtain rfl := Except.ok.inj h
      exact .scalar hcode

theorem Node.emitAll_cons {n : Node} {ns : List Node} {items : List (Item (List Instr))}
    (h : Node.emitAll c keys parts (n :: ns) = .ok (items, parts')) :
    ∃ item mid rest, n.emit c keys parts = .ok (item, mid) ∧
      Node.emitAll c keys mid ns = .ok (rest, parts') ∧ items = item :: rest := by
  simp only [Node.emitAll, bind_eq_ok_iff] at h
  obtain ⟨⟨item, mid⟩, hitem, ⟨rest, last⟩, hrest, h⟩ := h
  obtain ⟨rfl, rfl⟩ := Prod.mk.inj (Except.ok.inj h)
  exact ⟨item, mid, rest, hitem, hrest, rfl⟩

theorem Expr.emitAll_cons {e : Expr} {es : List Expr} {code : Code}
    (h : Expr.emitAll c keys parts (e :: es) = .ok code) :
    ∃ first more, e.emit c keys parts = .ok first ∧
      Expr.emitAll c keys first.parts es = .ok more ∧
      code = ⟨first.instrs ++ more.instrs, more.parts⟩ := by
  simp only [Expr.emitAll, bind_eq_ok_iff] at h
  obtain ⟨first, hfirst, more, hmore, h⟩ := h
  obtain rfl := Except.ok.inj h
  exact ⟨first, more, hfirst, hmore, rfl⟩

theorem Expr.programs_cons {e : Expr} {es : List Expr} {programs : List (Program Plan)}
    (h : Expr.programs c (e :: es) = .ok programs) :
    ∃ code rest, e.emit c none ⟨[], []⟩ = .ok code ∧ Expr.programs c es = .ok rest ∧
      programs = code.program :: rest := by
  simp only [Expr.programs, bind_eq_ok_iff] at h
  obtain ⟨code, hcode, rest, hrest, h⟩ := h
  obtain rfl := Except.ok.inj h
  exact ⟨code, rest, hcode, hrest, rfl⟩

/-! ### SELECT -/

theorem Expr.outputPrograms_cons {slots slots' : List (Slot Plan)} {e : Expr} {es : List Expr}
    {programs : List (Program Plan)}
    (h : Expr.outputPrograms c keys slots (e :: es) = .ok (programs, slots')) :
    ∃ code rest, e.outputCode keys slots (e.emit c keys ⟨[], slots⟩) = .ok code ∧
      Expr.outputPrograms c keys code.parts.slots es = .ok (rest, slots') ∧
      programs = code.program :: rest := by
  simp only [Expr.outputPrograms] at h
  split at h
  · cases h
  simp only [bind_eq_ok_iff] at h
  obtain ⟨code, hcode, ⟨rest, last⟩, hrest, h⟩ := h
  obtain ⟨rfl, rfl⟩ := Prod.mk.inj (Except.ok.inj h)
  exact ⟨code, rest, hcode, hrest, rfl⟩

theorem OrderKey.sortKeys_cons {slots slots' : List (Slot Plan)} {e : Expr} {ascending : Bool}
    {ks : List OrderKey} {sortKeys : List (SortKey Plan)}
    (h : OrderKey.sortKeys c keys slots (⟨e, ascending⟩ :: ks) = .ok (sortKeys, slots')) :
    ∃ code rest, e.emit c keys ⟨[], slots⟩ = .ok code ∧
      OrderKey.sortKeys c keys code.parts.slots ks = .ok (rest, slots') ∧
      sortKeys = ⟨code.program, ascending⟩ :: rest := by
  simp only [OrderKey.sortKeys, bind_eq_ok_iff] at h
  obtain ⟨code, hcode, ⟨rest, last⟩, hrest, h⟩ := h
  obtain ⟨rfl, rfl⟩ := Prod.mk.inj (Except.ok.inj h)
  exact ⟨code, rest, hcode, hrest, rfl⟩

/-- A source becomes its table, or the plan of its SELECT. -/
inductive Source.Supplies (c : Catalog) : Source → Supply Plan → Prop
  | table {name : String} {aliasName : Option String} {id offset : Nat} {t : Table}
      (h : c.tables[id]? = some t) :
      Supplies c (.table name aliasName (some id) offset) (.table id t.columns.length)
  | select {s : Select} {aliasName : Option String} {offset : Nat} {plan : Plan}
      (h : s.compile c = .ok plan) :
      Supplies c (.select s aliasName offset) (.query plan plan.stages.columns.length)

theorem Source.supply_cases {s : Source} {supply : Supply Plan} (h : s.supply c = .ok supply) :
    s.Supplies c supply := by
  cases s with
  | table name aliasName id offset =>
    simp only [Source.supply] at h
    split at h
    next i t hfind =>
      obtain rfl := Except.ok.inj h
      obtain ⟨i', rfl, hi⟩ := Option.bind_eq_some_iff.1 hfind
      obtain ⟨t', ht, heq⟩ := Option.map_eq_some_iff.1 hi
      obtain ⟨rfl, rfl⟩ := Prod.mk.inj heq
      exact .table ht
    next => cases h
  | select s aliasName offset =>
    simp only [Source.supply, bind_eq_ok_iff] at h
    obtain ⟨plan, hplan, h⟩ := h
    obtain rfl := Except.ok.inj h
    exact .select hplan

theorem Join.supplies_cons {j : Join} {js : List Join} {supplies : List (Supply Plan)}
    (h : Join.supplies c (j :: js) = .ok supplies) :
    ∃ supply rest, j.source.supply c = .ok supply ∧ Join.supplies c js = .ok rest ∧
      supplies = supply :: rest := by
  obtain ⟨source, kind, condition⟩ := j
  simp only [Join.supplies, bind_eq_ok_iff] at h
  obtain ⟨supply, hsupply, rest, hrest, h⟩ := h
  exact ⟨supply, rest, hsupply, hrest, (Except.ok.inj h).symm⟩

theorem Join.steps_cons {j : Join} {js : List Join} {steps : List (JoinStep Plan)}
    (h : Join.steps c (j :: js) = .ok steps) :
    ∃ condition rest, Expr.programOption c j.condition = .ok condition ∧
      Join.steps c js = .ok rest ∧ steps = ⟨j.kind, condition⟩ :: rest := by
  obtain ⟨source, kind, condition⟩ := j
  simp only [Join.steps, bind_eq_ok_iff] at h
  obtain ⟨condition, hcondition, rest, hrest, h⟩ := h
  exact ⟨condition, rest, hcondition, hrest, (Except.ok.inj h).symm⟩

theorem Join.length_steps : ∀ {js : List Join} {steps : List (JoinStep Plan)},
    Join.steps c js = .ok steps → steps.length = js.length
  | [], steps, h => by
    obtain rfl := Except.ok.inj h
    rfl
  | j :: js, steps, h => by
    obtain ⟨condition, rest, -, hrest, rfl⟩ := Join.steps_cons h
    simp [Join.length_steps hrest]

/-- The group keys that outputs and sort keys may read. -/
def Select.groupKeys (s : Select) : Option (List Expr) :=
  if s.isAggregate then some s.groupBy else none

/-- The stages of a SELECT, each with the emitter that gave it. -/
structure Select.Compiles (c : Catalog) (s : Select) (stages : Stages Plan) : Prop where
  sources : ∃ first more, Source.supplies c s.origin = .ok first ∧
    Join.supplies c s.joins = .ok more ∧ stages.sources = first ++ more
  joins : Join.steps c s.joins = .ok stages.joins
  filter : Expr.programOption c s.filter = .ok stages.filter
  groupBy : Expr.programs c s.groupBy = .ok stages.groupBy
  projection : ∃ slots,
    Expr.outputPrograms c s.groupKeys [] s.output = .ok (stages.outputs, slots) ∧
    OrderKey.sortKeys c s.groupKeys slots s.orderBy = .ok (stages.orderBy, stages.aggregates)
  columns : stages.columns = s.output.map fun e => ⟨e.name, e.type⟩
  aggregated : stages.aggregated = s.isAggregate

theorem Select.compile_eq_ok {s : Select} {plan : Plan} (h : s.compile c = .ok plan) :
    ∃ stages, plan = .of stages ∧ s.Compiles c stages := by
  obtain ⟨text, distinct, output, origin, joins, filter, groupBy, orderBy, limit, offset⟩ := s
  simp only [Select.compile, bind_eq_ok_iff] at h
  obtain ⟨first, hfirst, more, hmore, steps, hsteps, filter', hfilter, groups, hgroups,
    ⟨outputs, slots⟩, houtputs, ⟨order, slots'⟩, horder, h⟩ := h
  obtain rfl := Except.ok.inj h
  exact ⟨_, rfl, ⟨first, more, hfirst, hmore, rfl⟩, hsteps, hfilter, hgroups,
    ⟨slots, houtputs, horder⟩, rfl, rfl⟩

theorem Join.supplies_rel : ∀ {js : List Join} {supplies : List (Supply Plan)},
    Join.supplies c js = .ok supplies →
    List.Forall₂ (Source.Supplies c) (js.map Join.source) supplies
  | [], supplies, h => by
    obtain rfl := Except.ok.inj h
    exact .nil
  | j :: js, supplies, h => by
    obtain ⟨supply, rest, hsupply, hrest, rfl⟩ := Join.supplies_cons h
    exact .cons (Source.supply_cases hsupply) (Join.supplies_rel hrest)

/-- The sources of a plan are those of the SELECT, in their order. -/
theorem Select.Compiles.supplies {s : Select} {stages : Stages Plan} (h : s.Compiles c stages) :
    List.Forall₂ (Source.Supplies c) s.sources stages.sources := by
  obtain ⟨first, more, hfirst, hmore, hsources⟩ := h.sources
  rw [hsources]
  refine List.rel_append ?_ (Join.supplies_rel hmore)
  cases horigin : s.origin with
  | none =>
    rw [horigin] at hfirst
    obtain rfl := Except.ok.inj hfirst
    exact .nil
  | some source =>
    simp only [horigin, Source.supplies, bind_eq_ok_iff] at hfirst
    obtain ⟨supply, hsupply, hfirst⟩ := hfirst
    obtain rfl := Except.ok.inj hfirst
    exact .cons (Source.supply_cases hsupply) .nil

/-! ### Parts are only added -/

/-- The nested plans and the slots of `p` come first in those of `q`. -/
structure Parts.Le (p q : Parts) : Prop where
  queries : p.queries <+: q.queries
  slots : p.slots <+: q.slots

theorem Parts.Le.refl (p : Parts) : p.Le p :=
  ⟨List.prefix_rfl, List.prefix_rfl⟩

theorem Parts.Le.trans {p q r : Parts} (h : p.Le q) (h' : q.Le r) : p.Le r :=
  ⟨h.queries.trans h'.queries, h.slots.trans h'.slots⟩

mutual

theorem Expr.emit_le : ∀ {e : Expr} {parts : Parts} {code : Code},
    e.emit c keys parts = .ok code → parts.Le code.parts
  | ⟨nodes, _, _, _, _, _, _⟩, parts, code, h => by
    cases Expr.emit_cases h with
    | key => exact .refl _
    | formula _ hitems _ => exact Node.emitAll_le hitems

theorem Node.emit_le : ∀ {n : Node} {parts parts' : Parts} {item : Item (List Instr)},
    n.emit c keys parts = .ok (item, parts') → parts.Le parts'
  | n, parts, parts', item, h => by
    cases Node.emit_cases h with
    | call _ hf => exact Call.emit_le hf
    | select => exact ⟨List.prefix_append _ _, List.prefix_rfl⟩
    | _ => exact .refl _

theorem Node.emitAll_le : ∀ {ns : List Node} {parts parts' : Parts}
    {items : List (Item (List Instr))},
    Node.emitAll c keys parts ns = .ok (items, parts') → parts.Le parts'
  | [], parts, parts', items, h => by
    obtain ⟨-, rfl⟩ := Prod.mk.inj (Except.ok.inj h)
    exact .refl _
  | n :: ns, parts, parts', items, h => by
    obtain ⟨item, mid, rest, hitem, hrest, rfl⟩ := Node.emitAll_cons h
    exact (Node.emit_le hitem).trans (Node.emitAll_le hrest)

theorem Call.emit_le : ∀ {f : Call} {parts : Parts} {code : Code},
    f.emit c keys parts = .ok code → parts.Le code.parts
  | ⟨_, arguments, _, _, _, _⟩, parts, code, h => by
    cases Call.emit_cases h with
    | aggregate => exact ⟨List.prefix_rfl, List.prefix_append _ _⟩
    | scalar hargs => exact (Expr.emitAll_le hargs :)

theorem Expr.emitAll_le : ∀ {es : List Expr} {parts : Parts} {code : Code},
    Expr.emitAll c keys parts es = .ok code → parts.Le code.parts
  | [], parts, code, h => by
    obtain rfl := Except.ok.inj h
    exact .refl _
  | e :: es, parts, code, h => by
    obtain ⟨first, more, hfirst, hmore, rfl⟩ := Expr.emitAll_cons h
    have hle := Expr.emitAll_le hmore
    exact (Expr.emit_le hfirst).trans hle

end

theorem Expr.outputCode_le {slots : List (Slot Plan)} {e : Expr} {code : Code}
    (h : e.outputCode keys slots (e.emit c keys ⟨[], slots⟩) = .ok code) :
    slots <+: code.parts.slots := by
  cases Expr.outputCode_cases h with
  | column => exact List.prefix_rfl
  | value hvalue => exact (Expr.emit_le hvalue).slots

theorem Expr.outputPrograms_le : ∀ {es : List Expr} {slots slots' : List (Slot Plan)}
    {programs : List (Program Plan)},
    Expr.outputPrograms c keys slots es = .ok (programs, slots') → slots <+: slots'
  | [], slots, slots', programs, h => by
    obtain ⟨-, rfl⟩ := Prod.mk.inj (Except.ok.inj h)
    exact List.prefix_rfl
  | e :: es, slots, slots', programs, h => by
    obtain ⟨code, rest, hcode, hrest, -⟩ := Expr.outputPrograms_cons h
    exact (Expr.outputCode_le hcode).trans (Expr.outputPrograms_le hrest)

theorem OrderKey.sortKeys_le : ∀ {ks : List OrderKey} {slots slots' : List (Slot Plan)}
    {sortKeys : List (SortKey Plan)},
    OrderKey.sortKeys c keys slots ks = .ok (sortKeys, slots') → slots <+: slots'
  | [], slots, slots', sortKeys, h => by
    obtain ⟨-, rfl⟩ := Prod.mk.inj (Except.ok.inj h)
    exact List.prefix_rfl
  | ⟨e, ascending⟩ :: ks, slots, slots', sortKeys, h => by
    obtain ⟨code, rest, hcode, hrest, -⟩ := OrderKey.sortKeys_cons h
    exact (Expr.emit_le hcode).slots.trans (OrderKey.sortKeys_le hrest)

end SqlEngine
