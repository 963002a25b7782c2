import SqlEngine.Proofs.Plan.Meaning
import SqlEngine.Proofs.Plan.Rows
import SqlEngine.Proofs.Resolution.Typing

/-!
# Plans — code of a type

An environment *fits* scopes when every column of theirs can be read and has a value of its type
(`Env.Fits`).  Code is *sound* for a type when in every fitting environment it leaves a value of the
type on the stack or ends with an expected error (`Code.Sound`).  What reads a group key or an
aggregate may rely on the group that is being projected (`Env.Groups`).

* `Env.Fits.column`: typed columns can be read.
* `Code.sound_tree`: the code of a typed formula is sound when that of its values is.
* `Code.Sound.call`, `Code.sound_aggregate`, `Code.sound_select`: the other kinds of code.
-/

namespace SqlEngine

open Value (HaveTypes)

variable {c : Catalog} {now : Date.Instant} {scope : List (List DataType)}
variable {outer : List (List (List DataType))} {keys : Option (List Expr)}
variable {env : Env} {parts parts' : Parts} {t : DataType}

/-! ### Environments -/

/-- The values that are read have the types of the columns. -/
def Position.Fits (p : Position) (types : List DataType) : Prop :=
  ∀ (j : Nat) (t : DataType), types[j]? = some t → (p.read j).HasType t

def Frame.Fits (f : Frame) (scope : List (List DataType)) : Prop :=
  ∀ (i j : Nat) (types : List DataType) (t : DataType), scope[i]? = some types →
    types[j]? = some t → (f.read i j).HasType t

/-- The environment is one for expressions that are typed under the scopes. -/
structure Env.Fits (env : Env) (c : Catalog) (now : Date.Instant) (scope : List (List DataType))
    (outer : List (List (List DataType))) : Prop where
  catalog : env.catalog = c
  now : env.now = now
  positions : ∀ (i : Nat) (types : List DataType), scope[i]? = some types →
    ∃ p : Position, env.positions[i]? = some p ∧ p.Fits types
  outer : List.Forall₂ Frame.Fits env.outer outer

theorem Position.On.fits {position : Position} {p : Provider} {types : List DataType}
    (h : position.On p) (hp : p.Holds types) : position.Fits types := by
  intro j t ht
  cases position with
  | none => exact Value.hasType_null t
  | some e => exact (hp.typed e.1 e.2 (h e.1 e.2 rfl)).read ht

/-- The environments of a query fit its sources, and the rows around it. -/
theorem Setting.Reads.fits {here : Setting} {frames : List Frame}
    (hhere : here.Of c now frames scope) (hframes : List.Forall₂ Frame.Fits frames outer)
    (h : here.Reads env) : env.Fits c now scope outer where
  catalog := h.catalog.trans hhere.catalog
  now := h.now.trans hhere.now
  positions i types hi := by
    obtain ⟨p, hp, hholds⟩ := forall₂_getElem? hhere.providers hi
    obtain ⟨position, hposition, hon⟩ := forall₂_getElem? h.positions hp
    exact ⟨position, hposition, hon.fits hholds⟩
  outer := by
    rw [h.outer, hhere.outer]
    exact hframes

namespace Env.Fits

/-- The condition of a join sees the first sources only. -/
theorem take (h : env.Fits c now scope outer) (n : Nat) : env.Fits c now (scope.take n) outer where
  catalog := h.catalog
  now := h.now
  positions i types hi := h.positions i types (getElem?_of_le (List.take_prefix n scope) hi)
  outer := h.outer

/-- What nested queries see of the current rows. -/
theorem frames (h : env.Fits c now scope outer) :
    List.Forall₂ Frame.Fits (env.frame :: env.outer) (scope :: outer) := by
  refine .cons (fun i j types t hi hj => ?_) h.outer
  obtain ⟨p, hp, hfits⟩ := h.positions i types hi
  simp only [Env.frame, Frame.read, List.getElem?_map, hp, Option.map_some]
  cases p with
  | none => exact Value.hasType_null t
  | some e => exact hfits j t hj

/-- **A typed column can be read**, whether it is of the statement itself or of one around it. -/
theorem column (h : env.Fits c now scope outer) {r : ColumnRef} (hr : r.Typed (scope :: outer)) :
    Safe (·.HasType r.type) (r.value env) := by
  obtain ⟨b, around, types, hbinding, haround, hsource, hcolumn⟩ := hr
  simp only [ColumnRef.value, hbinding]
  -- the current rows, or a frame of a statement further out
  cases hlevel : r.level with
  | zero =>
    rw [hlevel] at haround
    obtain rfl := Option.some.inj haround
    obtain ⟨p, hp, hfits⟩ := h.positions b.source types hsource
    simp only [hp]
    exact hfits b.column r.type hcolumn
  | succ level =>
    rw [hlevel] at haround
    have houter : outer[level]? = some around := haround
    obtain ⟨f, hf, hfits⟩ := forall₂_getElem? h.outer houter
    simp only [Env.frame?, Nat.add_sub_cancel, hf]
    exact hfits b.source b.column types r.type hsource hcolumn

end Env.Fits

/-- The group that is being projected has keys of the types of the group keys, and a result of the
right type for each slot.  Without group keys nothing is asked. -/
def Env.Groups (env : Env) (c : Catalog) (keys : Option (List Expr)) (slots : List (Slot Plan)) :
    Prop :=
  ∀ ks, keys = some ks → HaveTypes env.keys (ks.map Expr.type) ∧
    ∀ (i : Nat) (slot : Slot Plan), slots[i]? = some slot →
      ∃ v : Value, env.results[i]? = some v ∧ v.HasType (slot.type c)

theorem Env.groups_none (env : Env) (c : Catalog) (slots : List (Slot Plan)) :
    env.Groups c none slots :=
  nofun

theorem Env.Groups.of_le {slots slots' : List (Slot Plan)} (h : env.Groups c keys slots')
    (hle : slots <+: slots') : env.Groups c keys slots :=
  fun ks hks => ⟨(h ks hks).1, fun i slot hslot => (h ks hks).2 i slot (getElem?_of_le hle hslot)⟩

/-! ### Sound code -/

/-- In every fitting environment the code leaves a value of the type, or ends with an expected
error. -/
def Code.Sound (c : Catalog) (now : Date.Instant) (scope : List (List DataType))
    (outer : List (List (List DataType))) (keys : Option (List Expr)) (code : Code)
    (t : DataType) : Prop :=
  ∀ env plans, env.Fits c now scope outer → env.Groups c keys code.parts.slots →
    code.parts.queries <+: plans →
    ∃ r, Yields env (Plan.queryAll c now plans) code.instrs r ∧ Safe (·.HasType t) r

/-- The same for code that leaves several values. -/
def Code.SoundAll (c : Catalog) (now : Date.Instant) (scope : List (List DataType))
    (outer : List (List (List DataType))) (keys : Option (List Expr)) (code : Code)
    (types : List DataType) : Prop :=
  ∀ env plans, env.Fits c now scope outer → env.Groups c keys code.parts.slots →
    code.parts.queries <+: plans →
    ∃ r, YieldsAll env (Plan.queryAll c now plans) code.instrs r ∧ Safe (HaveTypes · types) r

/-- The program of sound code, which has no group to rely on. -/
def Program.Sound (c : Catalog) (now : Date.Instant) (scope : List (List DataType))
    (outer : List (List (List DataType))) (p : Program Plan) (t : DataType) : Prop :=
  ∀ env, env.Fits c now scope outer → Safe (·.HasType t) ((p.withQueries c now).value env)

/-- In every fitting environment with a group for the slots the program adds a value of the type to
the output row, or ends with an expected error. -/
def Program.Writes (c : Catalog) (now : Date.Instant) (scope : List (List DataType))
    (outer : List (List (List DataType))) (keys : Option (List Expr)) (slots : List (Slot Plan))
    (p : Program Plan) (t : DataType) : Prop :=
  ∀ env, env.Fits c now scope outer → env.Groups c keys slots → ∀ row,
    Safe (fun row' => ∃ v : Value, row' = row ++ [v] ∧ v.HasType t)
      ((p.withQueries c now).write env row)

/-- In every fitting environment with a group for the slots the sort key has a value, or ends with
an expected error. -/
def SortKey.Sound (c : Catalog) (now : Date.Instant) (scope : List (List DataType))
    (outer : List (List (List DataType))) (keys : Option (List Expr)) (slots : List (Slot Plan))
    (k : SortKey Plan) : Prop :=
  ∀ env, env.Fits c now scope outer → env.Groups c keys slots →
    Safe (fun _ => True) ((k.program.withQueries c now).value env)

/-- A slot for an aggregate that takes its arguments, whose programs are sound. -/
def Slot.Sound (c : Catalog) (now : Date.Instant) (scope : List (List DataType))
    (outer : List (List (List DataType))) (slot : Slot Plan) : Prop :=
  ∃ v f, c.variant? slot.target = some v ∧ v.implementation = .aggregate f ∧
    ∃ types, v.acceptsLoosely types = true ∧
      List.Forall₂ (Program.Sound c now scope outer) slot.arguments types

/-- All slots among the parts are sound. -/
def Parts.Sound (c : Catalog) (now : Date.Instant) (scope : List (List DataType))
    (outer : List (List (List DataType))) (parts : Parts) : Prop :=
  ∀ slot ∈ parts.slots, slot.Sound c now scope outer

theorem Parts.sound_empty : Parts.Sound c now scope outer ⟨[], []⟩ :=
  List.forall_mem_nil _

/-- For all frames that fit the scopes around it, the plan gives rows of the types, or an expected
error. -/
def Plan.Sound (c : Catalog) (now : Date.Instant) (outer : List (List (List DataType)))
    (plan : Plan) (types : List DataType) : Prop :=
  ∀ frames, List.Forall₂ Frame.Fits frames outer →
    Safe (fun rows : List OutputRow => ∀ row ∈ rows, HaveTypes row.values types)
      (plan.query c now frames)

theorem Program.Writes.of_le {slots slots' : List (Slot Plan)} {p : Program Plan}
    (h : p.Writes c now scope outer keys slots t) (hle : slots <+: slots') :
    p.Writes c now scope outer keys slots' t :=
  fun env henv hgroups => h env henv (hgroups.of_le hle)

theorem SortKey.Sound.of_le {slots slots' : List (Slot Plan)} {k : SortKey Plan}
    (h : k.Sound c now scope outer keys slots) (hle : slots <+: slots') :
    k.Sound c now scope outer keys slots' :=
  fun env henv hgroups => h env henv (hgroups.of_le hle)

namespace Code

/-- Code stays sound when more parts are added. -/
theorem Sound.of_le {instrs : List Instr} (h : Code.Sound c now scope outer keys ⟨instrs, parts⟩ t)
    (hle : parts.Le parts') : Code.Sound c now scope outer keys ⟨instrs, parts'⟩ t :=
  fun env plans henv hgroups hplans =>
    h env plans henv (hgroups.of_le hle.slots) (hle.queries.trans hplans)

theorem Sound.mono {code : Code} {t' : DataType} (h : Code.Sound c now scope outer keys code t)
    (ht : ∀ v : Value, v.HasType t → v.HasType t') : Code.Sound c now scope outer keys code t' := by
  intro env plans henv hgroups hplans
  obtain ⟨r, hr, hrType⟩ := h env plans henv hgroups hplans
  exact ⟨r, hr, hrType.mono ht⟩

/-- An instruction that pushes a value of the type. -/
theorem sound_push {i : Instr} {v : Value}
    (h : ∀ env queries (m : Machine), i.step env queries m = .ok (m.push v)) (hv : v.HasType t) :
    Code.Sound c now scope outer keys ⟨[i], parts⟩ t := by
  intro env plans henv hgroups hplans
  exact ⟨.ok v, .of_step fun m => h env _ m ▸ m.gives_push v, hv⟩

theorem sound_column {r : ColumnRef} (hr : r.Typed (scope :: outer)) {i : Instr}
    (hi : r.instr = .ok i) : Code.Sound c now scope outer keys ⟨[i], parts⟩ r.type :=
  fun env _ henv _ _ => ⟨r.value env, ColumnRef.yields hi _, henv.column hr⟩

theorem sound_groupKey {ks : List Expr} {k : Expr} {i : Nat} (hkeys : keys = some ks)
    (hk : ks[i]? = some k) : Code.Sound c now scope outer keys ⟨[.groupKey i], parts⟩ k.type := by
  intro env plans henv hgroups hplans
  have htype : (ks.map Expr.type)[i]? = some k.type := by
    rw [List.getElem?_map, hk]
    rfl
  obtain ⟨v, hv, hvtype⟩ := forall₂_getElem? (hgroups ks hkeys).1 htype
  refine ⟨.ok v, .of_step fun m => ?_, hvtype⟩
  simp only [Instr.step, hv]
  exact m.gives_push v

theorem sound_aggregate {slot : Slot Plan} (hkeys : keys.isSome = true) :
    Code.Sound c now scope outer keys
      ⟨[.aggregate parts.slots.length], { parts with slots := parts.slots ++ [slot] }⟩
      (slot.type c) := by
  intro env plans henv hgroups hplans
  obtain ⟨ks, hks⟩ := Option.isSome_iff_exists.1 hkeys
  obtain ⟨v, hv, hvtype⟩ := (hgroups ks hks).2 parts.slots.length slot List.getElem?_concat_length
  refine ⟨.ok v, .of_step fun m => ?_, hvtype⟩
  simp only [Instr.step, hv]
  exact m.gives_push v

/-- A nested plan with one column gives a value of the type of this column. -/
theorem sound_select {plan : Plan} (h : plan.Sound c now (scope :: outer) [t]) :
    Code.Sound c now scope outer keys
      ⟨[.select parts.queries.length], { parts with queries := parts.queries ++ [plan] }⟩ t := by
  intro env plans henv hgroups hplans
  obtain ⟨rfl, rfl⟩ : env.catalog = c ∧ env.now = now := ⟨henv.catalog, henv.now⟩
  refine ⟨_, yields_select (getElem?_of_append_le hplans), ?_⟩
  refine (h _ henv.frames).bind fun rows hrows => ?_
  match rows, hrows with
  | [], _ => exact Value.hasType_null t
  | [row], hrows =>
    obtain ⟨v, _, hv, -, hvalues⟩ := List.forall₂_cons_right_iff.1 (hrows row List.mem_cons_self)
    simp only [nestedValue, hvalues, List.head?_cons, Option.getD_some]
    exact hv
  | row :: row' :: rest, _ => exact .subSelectRows _

/-- **The code of a typed formula is sound** when the code of each of its values is. -/
theorem sound_tree {tree : Formula.Tree (List Instr)} {types : Formula.Tree DataType}
    (h : Formula.Tree.Rel (fun instrs t => Code.Sound c now scope outer keys ⟨instrs, parts⟩ t)
      tree types)
    (ht : types.type = .ok t) : Code.Sound c now scope outer keys ⟨tree.code, parts⟩ t := by
  induction h generalizing t with
  | leaf h =>
    obtain rfl := Except.ok.inj ht
    exact h
  | group _ ih => exact ih ht
  | node op _ _ ihl ihr =>
    simp only [Formula.Tree.type, bind_eq_ok_iff] at ht
    obtain ⟨a, ha, b, hb, ht⟩ := ht
    intro env plans henv hgroups hplans
    obtain ⟨left, hleft, hleftType⟩ := ihl ha env plans henv hgroups hplans
    obtain ⟨right, hright, hrightType⟩ := ihr hb env plans henv hgroups hplans
    refine ⟨_, hleft.operator op hright, ?_⟩
    refine hleftType.bind fun x hx => hrightType.bind fun y hy => ?_
    split at ht
    next u hu =>
      obtain rfl := Except.ok.inj ht
      exact Value.apply_safe hu hx hy
    next => cases ht

/-! ### Calls -/

theorem soundAll_nil : Code.SoundAll c now scope outer keys ⟨[], parts⟩ [] :=
  fun _ _ _ _ _ => ⟨.ok [], .nil, .nil⟩

theorem Sound.cons {code more : Code} {types : List DataType}
    (h : Code.Sound c now scope outer keys code t)
    (hmore : Code.SoundAll c now scope outer keys more types) (hle : code.parts.Le more.parts) :
    Code.SoundAll c now scope outer keys ⟨code.instrs ++ more.instrs, more.parts⟩ (t :: types) := by
  intro env plans henv hgroups hplans
  obtain ⟨r, hr, hrType⟩ := h.of_le hle env plans henv hgroups hplans
  obtain ⟨rs, hrs, hrsType⟩ := hmore env plans henv hgroups hplans
  refine ⟨_, .cons hr hrs, ?_⟩
  exact hrType.bind fun v hv => hrsType.bind fun vs hvs => .cons hv hvs

/-- The call of a scalar function after the code of its arguments. -/
theorem SoundAll.call {code : Code} {types : List DataType} (hc : c.functions = Function.builtins)
    (h : Code.SoundAll c now scope outer keys code types) {target : Overload} {v : Variant}
    {f : ScalarFunction} (hv : c.variant? target = some v) (hf : v.implementation = .scalar f)
    (haccepts : v.acceptsLoosely types = true) :
    Code.Sound c now scope outer keys (code.andThen (.call target types.length)) v.result := by
  intro env plans henv hgroups hplans
  obtain ⟨r, hr, hrType⟩ := h env plans henv hgroups hplans
  refine ⟨_, hr.call target fun vs hvs => ?_, hrType.bind fun vs hvs => ?_⟩
  · rw [hvs] at hrType
    exact List.Forall₂.length_eq hrType
  · obtain ⟨hsound, hknown⟩ := Catalog.variant?_sound hc hv
    simp only [Variant.Sound, hf] at hsound
    simp only [Overload.call, henv.catalog, hv, Option.map_some, hf]
    exact hsound _ vs (Variant.haveTypes_arguments hknown haccepts hvs)

/-! ### Programs -/

theorem Sound.value {code : Code} (h : Code.Sound c now scope outer keys code t)
    (henv : env.Fits c now scope outer) (hgroups : env.Groups c keys code.parts.slots) :
    Safe (·.HasType t) ((code.program.withQueries c now).value env) := by
  obtain ⟨r, hr, hrType⟩ := h env _ henv hgroups List.prefix_rfl
  rw [show (code.program.withQueries c now).value env = r from hr.evaluates.value]
  exact hrType

theorem Sound.program {code : Code} (h : Code.Sound c now scope outer none code t) :
    code.program.Sound c now scope outer t :=
  fun env henv => h.value henv (env.groups_none c _)

theorem Sound.sortKey {code : Code} (h : Code.Sound c now scope outer keys code t)
    (ascending : Bool) :
    SortKey.Sound c now scope outer keys code.parts.slots ⟨code.program, ascending⟩ :=
  fun _ henv hgroups => (h.value henv hgroups).mono fun _ _ => trivial

theorem Sound.writes {code : Code} (h : Code.Sound c now scope outer keys code t) :
    (code.andThen .out).program.Writes c now scope outer keys code.parts.slots t := by
  intro env henv hgroups row
  obtain ⟨r, hr, hrType⟩ := h env _ henv hgroups List.prefix_rfl
  rw [show ((code.andThen .out).program.withQueries c now).write env row = _ from
    hr.appends.write row]
  exact hrType.bind fun v hv => ⟨v, rfl, hv⟩

end Code

/-- The column that is written at once has the type of the column. -/
theorem ColumnRef.writes {r : ColumnRef} (hr : r.Typed (scope :: outer))
    (hlevel : (r.level == 0) = true) {i : Instr} (hi : r.outInstr = .ok i)
    (slots : List (Slot Plan)) :
    Program.Writes c now scope outer keys slots ⟨[i], []⟩ r.type := by
  intro env henv hgroups row
  rw [show (Program.withQueries c now ⟨[i], []⟩).write env row = _ from
    (ColumnRef.appends_outInstr hi hlevel env []).write row]
  exact (henv.column hr).bind fun v hv => ⟨v, rfl, hv⟩

/-- A typed expression that is one column has the type of the column. -/
theorem Expr.Typed.column {e : Expr} (h : e.Typed c (scope :: outer)) {r : ColumnRef}
    (hr : e.column? = some r) : r.Typed (scope :: outer) ∧ e.type = r.type := by
  obtain ⟨nodes, type, isBoolean, hasAggregate, source, aliasName, offset⟩ := e
  match nodes, hr with
  | [.column _], hr =>
    obtain rfl := Option.some.inj hr
    obtain ⟨⟨htyped, -⟩, htype⟩ := h
    exact ⟨htyped, (Except.ok.inj htype).symm⟩

/-- The program that writes a typed expression to the output row, with the short form for a single
column or without, when the code for its value is sound. -/
theorem Expr.outputCode_sound {e : Expr} (he : e.Typed c (scope :: outer))
    {slots : List (Slot Plan)} (hslots : ∀ slot ∈ slots, slot.Sound c now scope outer)
    {value : Except Error Code}
    (hvalue : ∀ code, value = .ok code →
      Code.Sound c now scope outer keys code e.type ∧ code.parts.Sound c now scope outer)
    {code : Code} (h : e.outputCode keys slots value = .ok code) :
    Program.Writes c now scope outer keys code.parts.slots code.program e.type ∧
      code.parts.Sound c now scope outer := by
  cases Expr.outputCode_cases h with
  | column _ hr hlevel hi =>
    obtain ⟨hrTyped, htype⟩ := he.column hr
    exact ⟨htype ▸ ColumnRef.writes hrTyped hlevel hi slots, hslots⟩
  | value hcode =>
    obtain ⟨hsound, hparts⟩ := hvalue _ hcode
    exact ⟨hsound.writes, hparts⟩

end SqlEngine
