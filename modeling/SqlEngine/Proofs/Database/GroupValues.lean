import SqlEngine.Proofs.Database.Grouping
import SqlEngine.Proofs.Plan.Environments
import SqlEngine.Proofs.Plan.Groups
import SqlEngine.Proofs.Plan.Numbering

/-!
# Databases — the values of a group

An output or a sort key of an aggregating SELECT has one value for each group, said on the
expression as it is written (`Expr.groupValue`): what is equal to a group key has the value of the
key, and an aggregate call has the result of an accumulator of its own, fed with the arguments of
the call on each member of the group.  Compiled, all calls of all expressions share one list of
slots.  An expression finds its own slots there, because slots are only added behind those that were
there.

* `Expr.emit_inGroup`: the code of an expression yields its value for the group.
* `Select.Compiles.showsGroup`: the row of a group.
* `Select.groups_projected`: the rows of an aggregating SELECT.
-/

namespace SqlEngine

open Formula (tree?)

/-! ### Values for a group -/

/-- What a group gives to the expressions that are projected from it: its key, the environment on
its first member, and the values of aggregate calls. -/
structure GroupView where
  groupBy : List Expr
  key : List Value
  env : Env
  aggregate : Overload → List Expr → Except Error Value

namespace GroupView

/-- The value of a group key. -/
def keyValue (g : GroupView) (i : Nat) : Except Error Value :=
  match g.key[i]? with
  | some v => .ok v
  | none   => .error (.internal (.noGroupKey i))

/-- The node with the value of the key that it is equal to; without one, with its own. -/
def orKey (g : GroupView) (n : Node) (value : Except Error Value) : Item (Except Error Value) :=
  match n.keyIndex? (some g.groupBy) with
  | some i => .value (g.keyValue i)
  | none   => .value value

end GroupView

mutual

/-- The value of an expression for a group. -/
def Expr.groupValue (c : Catalog) (g : GroupView) : Expr → Except Error Value
  | e@⟨nodes, _, _, _, _, _, _⟩ =>
    match e.keyIndex? (some g.groupBy) with
    | some i => g.keyValue i
    | none   =>
      match tree? (Node.groupResults c g nodes) with
      | some t => t.value
      | none   => .error (.internal .noOperand)

/-- The node with the result of its value for a group. -/
def Node.groupResult (c : Catalog) (g : GroupView) : Node → Item (Except Error Value)
  | .operator op => .operator op
  | .openParen   => .openParen
  | .closeParen  => .closeParen
  | .number x    => g.orKey (.number x) (.ok (.number x))
  | .text s      => g.orKey (.text s) (.ok (.text s))
  | .boolean b   => g.orKey (.boolean b) (.ok (.boolean b))
  | .null        => g.orKey .null (.ok .null)
  | .column r    => g.orKey (.column r) (r.value g.env)
  | .call f      => g.orKey (.call f) (f.groupValue c g)
  | .select s    => g.orKey (.select s) (s.value c g.env)

def Node.groupResults (c : Catalog) (g : GroupView) : List Node → List (Item (Except Error Value))
  | []      => []
  | n :: ns => n.groupResult c g :: Node.groupResults c g ns

/-- The result of a call for a group; only the arguments of a scalar function have values for the
group. -/
def Call.groupValue (c : Catalog) (g : GroupView) : Call → Except Error Value
  | ⟨function, _, none, _, _, _⟩              => .error (.internal (.unresolvedCall function))
  | ⟨_, arguments, some target, _, true, _⟩  => g.aggregate target arguments
  | ⟨_, arguments, some target, _, false, _⟩ => do
    target.call g.env (← Expr.groupValues c g arguments)

def Expr.groupValues (c : Catalog) (g : GroupView) : List Expr → Except Error (List Value)
  | []      => .ok []
  | e :: es => do
    let v ← e.groupValue c g
    .ok (v :: (← Expr.groupValues c g es))

end

/-! ### Code of expressions -/

variable {c : Catalog} {g : GroupView} {results : List Value} {slots : List (Slot Plan)}

/-- The result at the place of a slot is the value of the call that the slot was made for. -/
def GroupView.Fills (g : GroupView) (c : Catalog) (slots : List (Slot Plan))
    (results : List Value) : Prop :=
  ∀ (i : Nat) (slot : Slot Plan), slots[i]? = some slot →
    ∀ arguments, Expr.programs c arguments = .ok slot.arguments →
    ∃ v, results[i]? = some v ∧ g.aggregate slot.target arguments = .ok v

/-- The environment that the group is projected in. -/
def GroupView.envWith (g : GroupView) (results : List Value) : Env :=
  g.env.inGroup g.key results

theorem GroupView.yields_key (i : Nat) (queries : List Query) :
    Yields (g.envWith results) queries [.groupKey i] (g.keyValue i) := by
  refine .of_step fun m => ?_
  have hkeys : (g.envWith results).keys = g.key := rfl
  rw [Instr.step, hkeys, keyValue]
  cases g.key[i]? with
  | none => exact ⟨rfl, rfl⟩
  | some v => exact m.gives_push v

/-- A value that is equal to no group key has its own code. -/
theorem GroupView.rel_orKey {n : Node} (hn : n.keyIndex? (some g.groupBy) = none) {env : Env}
    {queries : List Query} {code : List Instr} {value : Except Error Value}
    (h : Yields env queries code value) :
    Item.Rel (Yields env queries) (.value code) (g.orKey n value) := by
  rw [orKey, hn]
  exact .value h

/-- A value that is equal to a group key reads the key, and has its value. -/
theorem Node.emit_key {n : Node} {i : Nat} (hn : n.isValue = true)
    (hi : n.keyIndex? (some g.groupBy) = some i) (parts : Parts) :
    n.emit c (some g.groupBy) parts = .ok (.value [.groupKey i], parts) ∧
      n.groupResult c g = .value (g.keyValue i) := by
  cases n with
  | operator | openParen | closeParen => cases hn
  | _ => simp only [Node.emit, Node.groupResult, GroupView.orKey, hi, and_self]

theorem Expr.length_groupValues : ∀ {es : List Expr} {vs : List Value},
    Expr.groupValues c g es = .ok vs → vs.length = es.length
  | [], vs, h => by
    obtain rfl := Except.ok.inj h
    rfl
  | e :: es, vs, h => by
    simp only [Expr.groupValues, bind_eq_ok_iff] at h
    obtain ⟨v, -, ws, hws, h⟩ := h
    rw [← Except.ok.inj h, List.length_cons, List.length_cons, Expr.length_groupValues hws]

mutual

theorem Expr.emit_inGroup (hslots : g.Fills c slots results) : ∀ {e : Expr} {parts : Parts}
    {code : Code}, e.emit c (some g.groupBy) parts = .ok code → code.parts.slots <+: slots →
    ∀ {plans : List Plan}, code.parts.queries <+: plans →
    Yields (g.envWith results) (Plan.queryAll g.env.catalog g.env.now plans) code.instrs
      (e.groupValue c g)
  | ⟨nodes, _, _, _, _, _, _⟩, parts, code, h, hle, plans, hplans => by
    cases Expr.emit_cases h with
    | key hi =>
      simp only [Expr.groupValue, hi]
      exact GroupView.yields_key _ _
    | formula hi hitems ht =>
      obtain ⟨u, hu, hrel⟩ := Formula.tree?_rel (Node.emitAll_inGroup hslots hitems hle hplans) ht
      simp only [Expr.groupValue, hi, hu]
      exact Formula.Tree.yields_code hrel

theorem Node.emit_inGroup (hslots : g.Fills c slots results) : ∀ {n : Node} {parts parts' : Parts}
    {item : Item (List Instr)}, n.emit c (some g.groupBy) parts = .ok (item, parts') →
    parts'.slots <+: slots → ∀ {plans : List Plan}, parts'.queries <+: plans →
    Item.Rel (Yields (g.envWith results) (Plan.queryAll g.env.catalog g.env.now plans)) item
      (n.groupResult c g)
  | n, parts, parts', item, h, hle, plans, hplans => by
    cases hi : n.keyIndex? (some g.groupBy) with
    | some i =>
      cases n with
      -- what is no value stays what it is, whatever its index
      | operator | openParen | closeParen =>
        obtain ⟨rfl, rfl⟩ := Prod.mk.inj (Except.ok.inj h)
        constructor
      | _ =>
        obtain ⟨hemit, hresult⟩ := Node.emit_key rfl hi parts
        obtain ⟨rfl, rfl⟩ := Prod.mk.inj (Except.ok.inj (hemit.symm.trans h))
        exact hresult ▸ .value (GroupView.yields_key i _)
    | none =>
      cases Node.emit_cases h with
      | operator op => exact .operator op
      | openParen => exact .openParen
      | closeParen => exact .closeParen
      | key hn hi' => exact absurd (hi.symm.trans hi') (Option.some_ne_none _).symm
      | number x => exact GroupView.rel_orKey hi (.of_step fun m => m.gives_push _)
      | text s => exact GroupView.rel_orKey hi (.of_step fun m => m.gives_push _)
      | boolean b => exact GroupView.rel_orKey hi (.of_step fun m => m.gives_push _)
      | null => exact GroupView.rel_orKey hi (.of_step fun m => m.gives_push _)
      | column hr => exact GroupView.rel_orKey hi (ColumnRef.yields hr _)
      | call hi hf => exact GroupView.rel_orKey hi (Call.emit_inGroup hslots hf hle hplans)
      | @select s plan hi hs =>
        have hselect : s.value c g.env =
            plan.query g.env.catalog g.env.now (g.env.frame :: g.env.outer) >>= nestedValue := by
          simp only [Select.value, hs, ok_bind]
        refine GroupView.rel_orKey hi ?_
        rw [hselect]
        exact @yields_select (g.envWith results) _ _ _ (getElem?_of_append_le hplans)

theorem Node.emitAll_inGroup (hslots : g.Fills c slots results) : ∀ {ns : List Node}
    {parts parts' : Parts} {items : List (Item (List Instr))},
    Node.emitAll c (some g.groupBy) parts ns = .ok (items, parts') → parts'.slots <+: slots →
    ∀ {plans : List Plan}, parts'.queries <+: plans →
    List.Forall₂
      (Item.Rel (Yields (g.envWith results) (Plan.queryAll g.env.catalog g.env.now plans))) items
      (Node.groupResults c g ns)
  | [], parts, parts', items, h, hle, plans, hplans => by
    obtain ⟨rfl, -⟩ := Prod.mk.inj (Except.ok.inj h)
    exact .nil
  | n :: ns, parts, parts', items, h, hle, plans, hplans => by
    obtain ⟨item, mid, rest, hitem, hrest, rfl⟩ := Node.emitAll_cons h
    have hmid := Node.emitAll_le hrest
    exact .cons (Node.emit_inGroup hslots hitem (hmid.slots.trans hle) (hmid.queries.trans hplans))
      (Node.emitAll_inGroup hslots hrest hle hplans)

theorem Call.emit_inGroup (hslots : g.Fills c slots results) : ∀ {f : Call} {parts : Parts}
    {code : Code}, f.emit c (some g.groupBy) parts = .ok code → code.parts.slots <+: slots →
    ∀ {plans : List Plan}, code.parts.queries <+: plans →
    Yields (g.envWith results) (Plan.queryAll g.env.catalog g.env.now plans) code.instrs
      (f.groupValue c g)
  | ⟨_, arguments, _, _, _, _⟩, parts, code, h, hle, plans, hplans => by
    cases Call.emit_cases h with
    | aggregate hkeys hprograms =>
      -- the slot of the call is the one behind those of earlier calls
      obtain ⟨v, hv, hvalue⟩ := hslots _ _ (getElem?_of_append_le hle) arguments hprograms
      rw [Call.groupValue, hvalue]
      refine .of_step fun m => ?_
      have hresults : (g.envWith results).results[parts.slots.length]? = some v := hv
      rw [Instr.step, hresults]
      exact m.gives_push v
    | scalar hargs =>
      exact (Expr.emitAll_inGroup hslots hargs hle hplans).call _ fun vs hvs =>
        Expr.length_groupValues hvs

theorem Expr.emitAll_inGroup (hslots : g.Fills c slots results) : ∀ {es : List Expr}
    {parts : Parts} {code : Code}, Expr.emitAll c (some g.groupBy) parts es = .ok code →
    code.parts.slots <+: slots → ∀ {plans : List Plan}, code.parts.queries <+: plans →
    YieldsAll (g.envWith results) (Plan.queryAll g.env.catalog g.env.now plans) code.instrs
      (Expr.groupValues c g es)
  | [], parts, code, h, hle, plans, hplans => by
    obtain rfl := Except.ok.inj h
    exact .nil
  | e :: es, parts, code, h, hle, plans, hplans => by
    obtain ⟨first, more, hfirst, hmore, rfl⟩ := Expr.emitAll_cons h
    have hfirstLe := Expr.emitAll_le hmore
    exact .cons
      (Expr.emit_inGroup hslots hfirst (hfirstLe.slots.trans hle) (hfirstLe.queries.trans hplans))
      (Expr.emitAll_inGroup hslots hmore hle hplans)

end

/-- An output that is one column, and no group key, has the value of the column. -/
theorem Expr.groupValue_of_column? {e : Expr} {r : ColumnRef}
    (hi : e.keyIndex? (some g.groupBy) = none) (hr : e.column? = some r) :
    e.groupValue c g = r.value g.env := by
  have hnode : (Node.column r).keyIndex? (some g.groupBy) = none :=
    (Expr.indexIn?_of_column? hr).symm.trans hi
  obtain ⟨nodes, _, _, _, _, _, _⟩ := e
  match nodes, hr with
  | [.column _], hr =>
    obtain rfl := Option.some.inj hr
    simp only [Expr.groupValue, hi, Node.groupResults, Node.groupResult, GroupView.orKey, hnode]
    rfl

theorem Expr.outputPrograms_inGroup (hslots : g.Fills c slots results) : ∀ {es : List Expr}
    {before after : List (Slot Plan)} {programs : List (Program Plan)},
    Expr.outputPrograms c (some g.groupBy) before es = .ok (programs, after) → after <+: slots →
    List.Forall₂ (fun p e => Program.Appends p (g.envWith results) (e.groupValue c g))
      (programs.map (Program.withQueries g.env.catalog g.env.now)) es
  | [], before, after, programs, h, _ => by
    obtain ⟨rfl, -⟩ := Prod.mk.inj (Except.ok.inj h)
    exact .nil
  | e :: es, before, after, programs, h, hle => by
    obtain ⟨code, rest, hcode, hrest, rfl⟩ := Expr.outputPrograms_cons h
    have hcodeLe := (Expr.outputPrograms_le hrest).trans hle
    refine .cons ?_ (Expr.outputPrograms_inGroup hslots hrest hle)
    cases Expr.outputCode_cases hcode with
    | column hi hr hlevel hinstr =>
      rw [Expr.groupValue_of_column? hi hr]
      exact ColumnRef.appends_outInstr hinstr hlevel (g.envWith results) []
    | value hvalue => exact (Expr.emit_inGroup hslots hvalue hcodeLe List.prefix_rfl).appends

theorem OrderKey.sortKeys_inGroup (hslots : g.Fills c slots results) : ∀ {ks : List OrderKey}
    {before after : List (Slot Plan)} {sortKeys : List (SortKey Plan)},
    OrderKey.sortKeys c (some g.groupBy) before ks = .ok (sortKeys, after) → after <+: slots →
    List.Forall₂ (fun k e =>
        Program.value (k.program.withQueries g.env.catalog g.env.now) (g.envWith results) =
          e.groupValue c g)
      sortKeys (ks.map OrderKey.expr)
  | [], before, after, sortKeys, h, _ => by
    obtain ⟨rfl, -⟩ := Prod.mk.inj (Except.ok.inj h)
    exact .nil
  | ⟨e, ascending⟩ :: ks, before, after, sortKeys, h, hle => by
    obtain ⟨code, rest, hcode, hrest, rfl⟩ := OrderKey.sortKeys_cons h
    have hcodeLe := (OrderKey.sortKeys_le hrest).trans hle
    exact .cons (Expr.emit_inGroup hslots hcode hcodeLe List.prefix_rfl).evaluates.value
      (OrderKey.sortKeys_inGroup hslots hrest hle)

/-! ### The row of a group -/

variable {here : Setting} {q : Select} {stages : Stages Plan} {outer : List Frame}
  {now : Date.Instant} {kept : List Combination}

/-- The value of an aggregate call for the members of a group: that of an accumulator that has taken
in the arguments of the call on each member, and nothing else. -/
def Setting.aggregate (here : Setting) (members : List Combination) (number : Nat) (id : RowId)
    (target : Overload) (arguments : List Expr) : Except Error Value := do
  let f ← Slot.function here.catalog ⟨target, []⟩
  let rows ← members.mapM fun row => do
    let env := here.env (← locateAll here.providers row) number id
    arguments.mapM (Expr.value here.catalog env)
  .ok (← (Accumulator.empty f).addAll rows).result

/-- The first member of a group; a group without members has no rows. -/
def Group.first (g : Group Combination) : Combination :=
  g.members.head?.getD []

/-- What a group gives to the outputs and the sort keys: `number` groups are before it, and `id` is
the id of the last one's row. -/
def Select.groupView (q : Select) (here : Setting) (g : Group Combination) (number : Nat)
    (id : RowId) (positions : List Position) : GroupView where
  groupBy := q.groupBy
  key := g.key
  env := here.env positions (number + 1) g.first.primary
  aggregate := here.aggregate g.members number id

/-- The output row and the sort keys of a group, `done` being the rows of the groups before it. -/
def Select.ShowsGroup (q : Select) (here : Setting) (done : List Projected) (g : Group Combination)
    (p : Projected) : Prop :=
  ∃ positions, locateAll here.providers g.first = .ok positions ∧
    let view := q.groupView here g done.length (Stages.lastId done) positions
    p.row.id = g.first.primary ∧
    q.output.mapM (Expr.groupValue here.catalog view) = .ok p.row.values ∧
    (q.orderBy.map OrderKey.expr).mapM (Expr.groupValue here.catalog view) = .ok p.keys

/-- The arguments of a slot are those of the call that it was made for. -/
theorem Stages.slotRows_eq {arguments : List Expr} {slot : Slot Plan}
    (h : Expr.programs here.catalog arguments = .ok slot.arguments) (number : Nat) (id : RowId)
    (members : List Combination) :
    Stages.slotRows here number id
        ⟨slot.target, slot.arguments.map (Program.withQueries here.catalog here.now)⟩ members =
      (members.mapM fun row => do
        let env := here.env (← locateAll here.providers row) number id
        arguments.mapM (Expr.value here.catalog env)) := by
  refine mapM_congr_forall₂ (List.forall₂_same.2 fun row _ => bind_congr_ok fun positions _ => ?_)
  exact Expr.mapM_programs h (here.env positions number id)

/-- **Each slot has the result of its own call.** -/
theorem Setting.fills {members : List Combination} {number : Nat} {id : RowId}
    {functions : List AggregateFunction} {rows : List (List (List Value))}
    (hview : g.aggregate = here.aggregate members number id)
    (hfunctions : (Slot.queriesAll here.catalog here.now slots).mapM (Slot.function here.catalog) =
      .ok functions)
    (hrows : (Slot.queriesAll here.catalog here.now slots).mapM (fun slot =>
      Stages.slotRows here number id slot members) = .ok rows)
    (hresults : ((functions.zip rows).mapM fun p => do
      .ok (← (Accumulator.empty p.1).addAll p.2).result) = .ok results) :
    g.Fills here.catalog slots results := by
  intro i slot hslot arguments harguments
  have hslot' : (Slot.queriesAll here.catalog here.now slots)[i]? =
      some ⟨slot.target, slot.arguments.map (Program.withQueries here.catalog here.now)⟩ := by
    rw [Slot.queriesAll_eq_map, List.getElem?_map, hslot]
    rfl
  -- accumulators, arguments and results stand at the place of their slot
  obtain ⟨f, hf, hfunction⟩ := forall₂_getElem? (mapM_eq_ok_iff.1 hfunctions).flip hslot'
  obtain ⟨row, hrow, hslotRows⟩ := forall₂_getElem? (mapM_eq_ok_iff.1 hrows).flip hslot'
  have hzip : (functions.zip rows)[i]? = some (f, row) := List.getElem?_zip_eq_some.2 ⟨hf, hrow⟩
  obtain ⟨v, hv, hresult⟩ := forall₂_getElem? (mapM_eq_ok_iff.1 hresults).flip hzip
  refine ⟨v, hv, ?_⟩
  rw [Stages.slotRows_eq harguments] at hslotRows
  have hfunction' : Slot.function here.catalog ⟨slot.target, []⟩ = .ok f := hfunction
  simp only [hview, Setting.aggregate, hfunction', ok_bind, hslotRows]
  exact hresult

theorem primaryId_first {g : Group Combination} (hg : ∀ row ∈ g.members, Workspace.Covers here row)
    {positions : List Position} (h : locateAll here.providers g.first = .ok positions) :
    primaryId positions = g.first.primary := by
  rw [Group.first] at h ⊢
  cases hmembers : g.members with
  | nil =>
    rw [hmembers, List.head?_nil, Option.getD_none, locateAll_nil] at h
    rw [← Except.ok.inj h]
    cases here.providers <;> rfl
  | cons row members =>
    rw [hmembers] at h hg
    exact primaryId_eq (hg row List.mem_cons_self) h

/-- The row of a group has the values of the outputs for the group. -/
theorem Select.Compiles.showsGroup (h : q.Compiles here.catalog stages)
    (haggregate : q.isAggregate = true) {functions : List AggregateFunction}
    (hfunctions : (Stages.queries here.catalog here.now stages).aggregates.mapM
      (Slot.function here.catalog) = .ok functions)
    {done : List Projected} {g : Group Combination} {p : Projected}
    (hg : ∀ row ∈ g.members, Workspace.Covers here row)
    (hp : (Stages.queries here.catalog here.now stages).projectGroup here functions done g =
      .ok p) : q.ShowsGroup here done g p := by
  obtain ⟨rows, hrows, hp⟩ := bind_eq_ok_iff.1 hp
  obtain ⟨results, hresults, hp⟩ := bind_eq_ok_iff.1 hp
  obtain ⟨positions, hpositions, hp⟩ := bind_eq_ok_iff.1 hp
  rw [primaryId_first hg hpositions] at hp
  obtain ⟨slots, houtputs, horder⟩ := h.projection
  have hkeys : q.groupKeys = some q.groupBy := by rw [Select.groupKeys, haggregate]; rfl
  rw [hkeys] at houtputs horder
  let view := q.groupView here g done.length (Stages.lastId done) positions
  have haggregates : (Stages.queries here.catalog here.now stages).aggregates =
      Slot.queriesAll here.catalog here.now stages.aggregates := by
    rw [Stages.queries_eq, Slot.queriesAll_eq_map]
  rw [haggregates] at hfunctions hrows
  -- outputs and sort keys read one list of results, which is that of all their slots
  have hfills : view.Fills here.catalog stages.aggregates results :=
    Setting.fills rfl hfunctions hrows hresults
  have hproject : (Stages.queries here.catalog here.now stages).project (view.envWith results) = (do
      let values ← q.output.mapM (Expr.groupValue here.catalog view)
      let keys ← (q.orderBy.map OrderKey.expr).mapM (Expr.groupValue here.catalog view)
      .ok ⟨⟨view.env.rowId, values⟩, keys⟩) := by
    refine Stages.project_eq_of ?_ ?_
    · rw [Stages.queries_eq]
      exact Expr.outputPrograms_inGroup hfills houtputs (OrderKey.sortKeys_le horder)
    · rw [Stages.queries_eq]
      exact List.forall₂_map_left_iff.2 (OrderKey.sortKeys_inGroup hfills horder List.prefix_rfl)
  obtain ⟨values, hvalues, hrest⟩ := bind_eq_ok_iff.1 (hproject.symm.trans hp)
  obtain ⟨keys, hkeys, hrest⟩ := bind_eq_ok_iff.1 hrest
  rw [← Except.ok.inj hrest]
  exact ⟨positions, hpositions, rfl, hvalues, hkeys⟩

/-- Each group has its row, in which the rows of the groups before it can be seen. -/
theorem Stages.projectGroups_eq_ok {s : Stages Query} {functions : List AggregateFunction} :
    ∀ {gs : List (Group Combination)} {done projected : List Projected},
    s.projectGroups here functions done gs = .ok projected →
    ∃ rows, projected = done ++ rows ∧ rows.length = gs.length ∧
      ∀ (k : Nat) (g : Group Combination) (p : Projected), gs[k]? = some g → rows[k]? = some p →
        s.projectGroup here functions (done ++ rows.take k) g = .ok p
  | [], done, projected, h => by
    obtain rfl := Except.ok.inj h
    exact ⟨[], (List.append_nil _).symm, rfl, fun k g p hg => by cases hg⟩
  | g :: gs, done, projected, h => by
    obtain ⟨row, hrow, h⟩ := bind_eq_ok_iff.1 h
    obtain ⟨rows, rfl, hlength, hrows⟩ := Stages.projectGroups_eq_ok h
    refine ⟨row :: rows, List.append_assoc done [row] rows, congrArg (· + 1) hlength,
      fun k g' p hg hp => ?_⟩
    cases k with
    | zero =>
      obtain rfl := Option.some.inj hg
      obtain rfl := Option.some.inj hp
      rwa [List.take_zero, List.append_nil]
    | succ k =>
      rw [List.take_succ_cons, ← List.singleton_append, ← List.append_assoc]
      exact hrows k g' p hg hp

/-! ### The rows of a SELECT -/

/-- A combination with its group key. -/
def Select.keyed (q : Select) (here : Setting) (row : Combination) :
    Except Error (List Value × Combination) := do
  let env ← here.envAt row
  .ok (← q.groupBy.mapM (Expr.value here.catalog env), row)

/-- The groups of combinations with their keys; without GROUP BY there is exactly one. -/
def Select.groupsOf (q : Select) (keyed : List (List Value × Combination)) :
    List (Group Combination) :=
  if (groupRows keyed).isEmpty && q.groupBy.isEmpty then [⟨[], []⟩] else groupRows keyed

theorem Select.Compiles.collect_eq (h : q.Compiles here.catalog stages) (kept : List Combination) :
    (Stages.queries here.catalog here.now stages).collect here kept =
      (kept.mapM (q.keyed here)).map q.groupsOf := by
  have hlength := (Expr.programs_values h.groupBy).length_eq
  have hempty : (stages.groupBy.map (Program.withQueries here.catalog here.now)).isEmpty =
      q.groupBy.isEmpty := by
    rw [List.isEmpty_map, Bool.eq_iff_iff, List.isEmpty_iff_length_eq_zero,
      List.isEmpty_iff_length_eq_zero, hlength]
  have hkeyed : q.keyed here = fun row => (do
      let env ← here.envAt row
      let key ← (stages.groupBy.map (Program.withQueries here.catalog here.now)).mapM fun p =>
        p.value env
      .ok (key, row)) := by
    funext row
    refine bind_congr_ok fun env henv => ?_
    obtain ⟨positions, -, henv⟩ := bind_eq_ok_iff.1 henv
    obtain rfl := Except.ok.inj henv
    rw [← Expr.mapM_programs h.groupBy (here.env positions 0 beforeFirst)]
    rfl
  rw [Stages.collect, Stages.queries_eq, hkeyed]
  simp only [hempty]
  rfl

/-- The members of groups are among the combinations that are grouped. -/
theorem Select.covers_of_keyed {keyed : List (List Value × Combination)}
    (hkept : ∀ row ∈ kept, Workspace.Covers here row)
    (hkeyed : kept.mapM (q.keyed here) = .ok keyed) :
    ∀ g ∈ q.groupsOf keyed, ∀ row ∈ g.members, Workspace.Covers here row := by
  have hcovers : ∀ r ∈ keyed, Workspace.Covers here r.2 := by
    intro r hr
    obtain ⟨row, hrow, h⟩ := exists_mem_of_forall₂ (mapM_eq_ok_iff.1 hkeyed) hr
    obtain ⟨env, -, h⟩ := bind_eq_ok_iff.1 h
    obtain ⟨key, -, h⟩ := bind_eq_ok_iff.1 h
    rw [← Except.ok.inj h]
    exact hkept row hrow
  intro g hg
  rw [Select.groupsOf] at hg
  split at hg
  · rw [List.mem_singleton.1 hg]
    exact List.forall_mem_nil _
  · exact Workspace.covers_of_groupRows hcovers g hg

/-- **Each group has one row, made of its own values.**  The combinations that WHERE keeps are
grouped by the values of the GROUP BY expressions.  Each group has one output row, with the id of
the first source's row in its first member.  The outputs and the sort keys have their values for the
group: what equals a GROUP BY expression is replaced by the value of the key, and each aggregate
call by the result of an accumulator that has taken in the arguments of this call on each member, in
their order, and nothing else.  Then the row of NULLs that aggregates give for no rows is dropped,
and DISTINCT, ORDER BY and LIMIT follow.  So it is too when the accumulators are reset and used
again for each group. -/
theorem Select.groups_projected {rows : List OutputRow} (hplan : q.compile c = .ok (.of stages))
    (haggregate : q.isAggregate = true) (hrows : (Plan.of stages).query c now outer = .ok rows) :
    ∃ here cs kept keyed projected,
      (Stages.queries c now stages).setting c now outer = .ok here ∧
      combine here (Stages.queries c now stages).joins = .ok cs ∧
      q.Keeps c here cs kept ∧
      kept.mapM (q.keyed here) = .ok keyed ∧
      projected.length = (q.groupsOf keyed).length ∧
      (∀ k g p, (q.groupsOf keyed)[k]? = some g → projected[k]? = some p →
        q.ShowsGroup here (projected.take k) g p) ∧
      rows = arrange q.distinct (q.orderBy.map OrderKey.ascending) q.limit
        (dropBlank kept.isEmpty projected) ∧
      ∀ hash start, start.map Cursor.provider = here.providers →
        Workspace.run hash here (Stages.queries c now stages) start cs = .ok rows := by
  obtain ⟨here, cs, kept, projected, hhere, hcs, hkept, hprojected, harrange⟩ :=
    Select.rows_eq_ok hplan hrows
  obtain ⟨stages', hstages', hcompiles⟩ := Select.compile_eq_ok hplan
  obtain rfl := Plan.of.inj hstages'
  have hcovers := hcompiles.covers hhere hcs
  have hrun := hcompiles.run_eq hhere hcs
  obtain ⟨rfl, rfl, rfl⟩ := Stages.fields_of_setting hhere
  have haggregated : (Stages.queries here.catalog here.now stages).aggregated = true := by
    rw [Stages.queries_eq]
    exact hcompiles.aggregated.trans haggregate
  rw [Stages.projectAll, haggregated, if_pos rfl] at hprojected
  obtain ⟨groups, hgroups, hprojected⟩ := bind_eq_ok_iff.1 hprojected
  obtain ⟨functions, hfunctions, hprojected⟩ := bind_eq_ok_iff.1 hprojected
  rw [hcompiles.collect_eq kept] at hgroups
  obtain ⟨keyed, hkeyed, rfl⟩ := map_eq_ok_iff.1 hgroups
  have hmembers := Select.covers_of_keyed
    (fun row hrow => hcovers row ((keep_sublist hkept).subset hrow)) hkeyed
  obtain ⟨_, rfl, hlength, hshows⟩ := Stages.projectGroups_eq_ok hprojected
  refine ⟨here, cs, kept, keyed, projected, hhere, hcs, hcompiles.keeps hcovers hkept, hkeyed,
    hlength, fun k g p hg hp => ?_, harrange,
    fun hash start hstart => (hrun hash hstart).trans hrows⟩
  exact hcompiles.showsGroup haggregate hfunctions (hmembers g (List.mem_of_getElem? hg))
    (hshows k g p hg hp)

/-- A table of words, of which two are short. -/
def Catalog.words : Catalog :=
  let rows := [(0, [.text "ox", .boolean true]), (1, [.text "zebra", .boolean false]),
    (2, [.text "ant", .boolean true])]
  ⟨"wooby", [⟨"words", [⟨"word", .text⟩, ⟨"short", .boolean⟩], some (.memory ⟨rows, 2, 3⟩)⟩],
    Function.builtins⟩

/-- `SELECT short, UPPER(MIN(word)) FROM words GROUP BY short ORDER BY MAX(word)`, with names
bound. -/
def Select.shortWords : Select :=
  let word : Expr := .ofColumn ⟨none, "word", .text, 0, some ⟨0, 0⟩, 0⟩
  let short : Expr := .ofColumn ⟨none, "short", .boolean, 0, some ⟨0, 1⟩, 0⟩
  let least : Expr := .ofNodes [.call ⟨"MIN", [word], some ⟨12, 1⟩, .text, true, 0⟩] "" 0
  let upper : Expr := .ofNodes [.call ⟨"UPPER", [least], some ⟨5, 0⟩, .text, false, 0⟩] "" 0
  let greatest : Expr := .ofNodes [.call ⟨"MAX", [word], some ⟨13, 1⟩, .text, true, 0⟩] "" 0
  ⟨"", false, [short, upper], some (.table "words" none (some 0) 0), [], none, [short],
    [⟨greatest, true⟩], none, 0⟩

theorem Select.shortWords_projected :
    ∃ stages here cs kept keyed projected,
      Select.shortWords.compile .words = .ok (.of stages) ∧
      combine here (Stages.queries .words ⟨0, 0⟩ stages).joins = .ok cs ∧
      Select.shortWords.Keeps .words here cs kept ∧
      kept.mapM (Select.shortWords.keyed here) = .ok keyed ∧
      projected.length = (Select.shortWords.groupsOf keyed).length ∧
      (∀ k g p, (Select.shortWords.groupsOf keyed)[k]? = some g → projected[k]? = some p →
        Select.shortWords.ShowsGroup here (projected.take k) g p) ∧
      arrange false [true] none (dropBlank kept.isEmpty projected) =
        [⟨0, [.boolean true, .text "ANT"]⟩, ⟨1, [.boolean false, .text "ZEBRA"]⟩] := by
  have hanswer : (do (← Select.shortWords.compile .words).query .words ⟨0, 0⟩ []) =
      .ok [⟨0, [.boolean true, .text "ANT"]⟩, ⟨1, [.boolean false, .text "ZEBRA"]⟩] := by
    cbv
  obtain ⟨plan, hplan, hrows⟩ := bind_eq_ok_iff.1 hanswer
  obtain ⟨stages, rfl, -⟩ := Select.compile_eq_ok hplan
  obtain ⟨here, cs, kept, keyed, projected, -, hcs, hkeeps, hkeyed, hlength, hshows, harrange, -⟩ :=
    Select.groups_projected hplan rfl hrows
  exact ⟨stages, here, cs, kept, keyed, projected, hplan, hcs, hkeeps, hkeyed, hlength, hshows,
    harrange.symm⟩

end SqlEngine
