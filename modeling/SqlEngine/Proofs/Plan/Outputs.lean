import SqlEngine.Proofs.Plan.Meaning
import SqlEngine.Proofs.Plan.Soundness

/-!
# Plans — output rows

Each output adds one value to the output row or fails, also where group keys and aggregates are read
(`Expr.outputPrograms_appends`), so that the values of a projected row are those of its outputs
(`Stages.values_of_project`).
-/

namespace SqlEngine

open Formula (tree?)

variable {c : Catalog} {keys : Option (List Expr)} {env : Env} {queries : List Query}

/-! ### Code of expressions with groups -/

/-- In every environment, and with any nested queries, the code pushes one value or fails. -/
def PushesOne (code : List Instr) : Prop :=
  ∀ env queries, ∃ r, Yields env queries code r

/-- The code pushes as many values, or fails. -/
def Pushes (code : List Instr) (count : Nat) : Prop :=
  ∀ env queries, ∃ r, YieldsAll env queries code r ∧ ∀ vs, r = .ok vs → vs.length = count

theorem PushesOne.of_step {i : Instr}
    (h : ∀ env queries, ∃ r, ∀ m : Machine, m.Gives r (i.step env queries m)) : PushesOne [i] := by
  intro env queries
  obtain ⟨r, hr⟩ := h env queries
  exact ⟨r, .of_step hr⟩

/-- An instruction that pushes what may be missing. -/
theorem PushesOne.pushOr {i : Instr} {fault : InternalFault} {v : Env → Option Value}
    (h : ∀ env queries (m : Machine), i.step env queries m = m.pushOr fault (v env)) :
    PushesOne [i] := by
  refine .of_step fun env queries => ?_
  cases hv : v env with
  | some x =>
    refine ⟨.ok x, fun m => ?_⟩
    rw [h, hv]
    exact m.gives_push x
  | none =>
    refine ⟨.error (.internal fault), fun m => ?_⟩
    rw [h, hv]
    exact ⟨rfl, rfl⟩

theorem PushesOne.push {i : Instr} {v : Value}
    (h : ∀ env queries (m : Machine), i.step env queries m = .ok (m.push v)) : PushesOne [i] :=
  .of_step fun env queries => ⟨.ok v, fun m => h env queries m ▸ m.gives_push v⟩

theorem pushesOne_select (i : Nat) : PushesOne [.select i] := by
  refine .of_step fun env queries => ?_
  cases hquery : queries[i]? with
  | none =>
    refine ⟨.error (.internal (.noSubSelect i)), fun m => ?_⟩
    simp only [Instr.step, hquery]
    exact ⟨rfl, rfl⟩
  | some query =>
    refine ⟨query (env.frame :: env.outer) >>= nestedValue, fun m => ?_⟩
    simp only [Instr.step, hquery]
    exact m.gives_pushResult _

theorem pushesOne_tree {t : Formula.Tree (List Instr)}
    (h : ∀ code, .value code ∈ t.items → PushesOne code) : PushesOne t.code := by
  induction t with
  | leaf instrs => exact h instrs (List.mem_singleton_self _)
  | group t ih => exact ih fun code hcode => h code (by simp [Formula.Tree.items, hcode])
  | node op left right ihl ihr =>
    intro env queries
    obtain ⟨a, ha⟩ :=
      ihl (fun code hcode => h code (by simp [Formula.Tree.items, hcode])) env queries
    obtain ⟨b, hb⟩ :=
      ihr (fun code hcode => h code (by simp [Formula.Tree.items, hcode])) env queries
    exact ⟨_, ha.operator op hb⟩

theorem ColumnRef.pushesOne {r : ColumnRef} {i : Instr} (h : r.instr = .ok i) : PushesOne [i] :=
  fun env queries => ⟨r.value env, ColumnRef.yields h queries⟩

mutual

theorem Expr.emit_pushesOne : ∀ {e : Expr} {parts : Parts} {code : Code},
    e.emit c keys parts = .ok code → PushesOne code.instrs
  | ⟨nodes, _, _, _, _, _, _⟩, parts, code, h => by
    cases Expr.emit_cases h with
    | key hi => exact .pushOr fun _ _ _ => rfl
    | formula hi hitems ht =>
      obtain ⟨-, htree⟩ := Formula.tree?_eq_some_iff.1 ht
      refine pushesOne_tree fun code hcode => ?_
      rw [htree] at hcode
      exact Node.emitAll_pushesOne hitems code hcode

theorem Node.emit_pushesOne : ∀ {n : Node} {parts parts' : Parts} {code : List Instr},
    n.emit c keys parts = .ok (.value code, parts') → PushesOne code
  | n, parts, parts', code, h => by
    cases Node.emit_cases h with
    | key hn hi => exact .pushOr fun _ _ _ => rfl
    | number | text | boolean | null => exact .push fun _ _ _ => rfl
    | column hi => exact ColumnRef.pushesOne hi
    | call hi hf => exact Call.emit_pushesOne hf
    | select => exact pushesOne_select _

theorem Node.emitAll_pushesOne : ∀ {ns : List Node} {parts parts' : Parts}
    {items : List (Item (List Instr))}, Node.emitAll c keys parts ns = .ok (items, parts') →
    ∀ code, .value code ∈ items → PushesOne code
  | [], parts, parts', items, h, code, hcode => by
    obtain ⟨rfl, -⟩ := Prod.mk.inj (Except.ok.inj h)
    cases hcode
  | n :: ns, parts, parts', items, h, code, hcode => by
    obtain ⟨item, mid, rest, hitem, hrest, rfl⟩ := Node.emitAll_cons h
    rcases List.mem_cons.1 hcode with rfl | hcode
    · exact Node.emit_pushesOne hitem
    · exact Node.emitAll_pushesOne hrest code hcode

theorem Call.emit_pushesOne : ∀ {f : Call} {parts : Parts} {code : Code},
    f.emit c keys parts = .ok code → PushesOne code.instrs
  | ⟨_, arguments, _, _, _, _⟩, parts, code, h => by
    cases Call.emit_cases h with
    | aggregate hkeys => exact .pushOr fun _ _ _ => rfl
    | scalar hargs =>
      intro env queries
      obtain ⟨r, hr, hlength⟩ := Expr.emitAll_pushes hargs env queries
      exact ⟨_, hr.call _ hlength⟩

theorem Expr.emitAll_pushes : ∀ {es : List Expr} {parts : Parts} {code : Code},
    Expr.emitAll c keys parts es = .ok code → Pushes code.instrs es.length
  | [], parts, code, h => by
    obtain rfl := Except.ok.inj h
    exact fun _ _ => ⟨.ok [], .nil, fun vs hvs => by rw [← Except.ok.inj hvs]; rfl⟩
  | e :: es, parts, code, h => by
    obtain ⟨first, more, hfirst, hmore, rfl⟩ := Expr.emitAll_cons h
    intro env queries
    obtain ⟨r, hr⟩ := Expr.emit_pushesOne hfirst env queries
    obtain ⟨rs, hrs, hlength⟩ := Expr.emitAll_pushes hmore env queries
    refine ⟨_, YieldsAll.cons hr hrs, fun vs hvs => ?_⟩
    simp only [bind_eq_ok_iff] at hvs
    obtain ⟨v, -, vs', hvs', hvs⟩ := hvs
    rw [← Except.ok.inj hvs, List.length_cons, hlength vs' hvs', List.length_cons]

end

/-! ### Outputs -/

/-- In every environment the program adds one value to the output row, or fails. -/
def Program.AppendsOne (p : Program Query) : Prop :=
  ∀ env, ∃ r, p.Appends env r

theorem Expr.outputCode_appendsOne {e : Expr} {slots : List (Slot Plan)} {code : Code}
    (h : e.outputCode keys slots (e.emit c keys ⟨[], slots⟩) = .ok code) (c' : Catalog)
    (now : Date.Instant) : (code.program.withQueries c' now).AppendsOne := by
  intro env
  cases Expr.outputCode_cases h with
  | column _ _ hlevel hi => exact ⟨_, ColumnRef.appends_outInstr hi hlevel env []⟩
  | value hcode =>
    obtain ⟨r, hr⟩ := Expr.emit_pushesOne hcode env _
    exact ⟨r, hr.appends⟩

/-- An output whose code is known, before other ones. -/
theorem Expr.outputPrograms_of_code {e : Expr} {slots : List (Slot Plan)} {code : Code}
    (hwildcard : e.containsWildcard = false)
    (hcode : e.outputCode keys slots (e.emit c keys ⟨[], slots⟩) = .ok code) (es : List Expr) :
    Expr.outputPrograms c keys slots (e :: es) =
      (Expr.outputPrograms c keys code.parts.slots es).map fun p =>
        (code.program :: p.1, p.2) := by
  simp only [Expr.outputPrograms, hwildcard, hcode, Bool.false_eq_true, if_false, ok_bind]
  cases Expr.outputPrograms c keys code.parts.slots es <;> rfl

/-- **Each output adds one value to the output row, or fails.** -/
theorem Expr.outputPrograms_appends : ∀ {es : List Expr} {slots slots' : List (Slot Plan)}
    {programs : List (Program Plan)},
    Expr.outputPrograms c keys slots es = .ok (programs, slots') → ∀ c' now,
    ∀ p ∈ programs.map (Program.withQueries c' now), p.AppendsOne
  | [], slots, slots', programs, h, c', now => by
    obtain ⟨rfl, -⟩ := Prod.mk.inj (Except.ok.inj h)
    nofun
  | e :: es, slots, slots', programs, h, c', now => by
    obtain ⟨code, rest, hcode, hrest, rfl⟩ := Expr.outputPrograms_cons h
    exact List.forall_mem_cons.2
      ⟨Expr.outputCode_appendsOne hcode c' now, Expr.outputPrograms_appends hrest c' now⟩

/-- The outputs add their values to a row, unless one of them fails. -/
theorem foldlM_write {α : Type} {programs : List (Program Query)} {f : α → Except Error Value}
    {as : List α} (h : List.Forall₂ (fun p a => Program.Appends p env (f a)) programs as) :
    ∀ row : List Value, programs.foldlM (fun row p => p.write env row) row =
      (as.mapM f).map (row ++ ·) := by
  induction h with
  | nil => exact fun row => congrArg Except.ok (List.append_nil row).symm
  | @cons p a programs as hp _ ih =>
    intro row
    rw [List.foldlM_cons, List.mapM_cons, hp.write]
    cases f a with
    | error e => rfl
    | ok v =>
      simp only [ok_bind, ih, bind_map, List.append_assoc]
      cases as.mapM f <;> rfl

/-- A value that is pushed by one instruction is added. -/
theorem Program.appends_of_push {i : Instr} {v : Value}
    (h : ∀ queries (m : Machine), i.step env queries m = .ok (m.push v)) :
    Program.Appends ⟨[i, .out], []⟩ env (.ok v) :=
  have hyields : Yields env [] [i] (.ok v) := .of_step fun m => h [] m ▸ m.gives_push v
  hyields.appends

/-- What was added to a row are the values of the programs, in their order. -/
theorem foldlM_write_eq_ok {programs : List (Program Query)} {row row' : List Value}
    (hs : ∀ p ∈ programs, p.AppendsOne)
    (h : programs.foldlM (fun row p => p.write env row) row = .ok row') :
    ∃ vs, row' = row ++ vs ∧
      List.Forall₂ (fun p v => Program.Appends p env (.ok v)) programs vs := by
  induction programs generalizing row with
  | nil =>
    obtain rfl := Except.ok.inj h
    exact ⟨[], (List.append_nil row).symm, .nil⟩
  | cons p programs ih =>
    obtain ⟨hp, hps⟩ := List.forall_mem_cons.1 hs
    obtain ⟨r, hr⟩ := hp env
    rw [List.foldlM_cons, hr.write] at h
    cases r with
    | error e => cases h
    | ok v =>
      obtain ⟨vs, rfl, hvs⟩ := ih hps h
      exact ⟨v :: vs, List.append_assoc row [v] vs, .cons hr hvs⟩

/-- **The values of a projected row** are those that the outputs add. -/
theorem Stages.values_of_project {s : Stages Query} (hs : ∀ p ∈ s.outputs, p.AppendsOne)
    {row : Projected} (h : s.project env = .ok row) :
    List.Forall₂ (fun p v => Program.Appends p env (.ok v)) s.outputs row.row.values := by
  obtain ⟨values, hvalues, h⟩ := bind_eq_ok_iff.1 h
  obtain ⟨keys, -, h⟩ := bind_eq_ok_iff.1 h
  obtain rfl := Except.ok.inj h
  obtain ⟨vs, rfl, hvs⟩ := foldlM_write_eq_ok hs hvalues
  exact hvs

/-- A program adds only one value. -/
theorem Program.Appends.unique {p : Program Query} {v w : Value} (hv : p.Appends env (.ok v))
    (hw : p.Appends env (.ok w)) : v = w := by
  have h := (hv.write []).symm.trans (hw.write [])
  exact List.head_eq_of_cons_eq (Except.ok.inj h)

end SqlEngine
