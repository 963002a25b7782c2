import SqlEngine.Proofs.Database.Wildcards

/-!
# Databases — where aggregates stand

The resolver lets aggregates through in the outputs and sort keys of a SELECT and nowhere else, and
not in the arguments of an aggregate.  It notes on each call whether its overload is an aggregate,
and on each expression whether one is called in it; sub-selects have aggregates of their own.  The
notes are what the plan of a SELECT is made by, so it folds rows exactly when there is something to
fold them for, and the compiler meets no aggregate where it has no slots for one.

* `Local.aggregates_placed`: what follows from the notes for each part of a statement.
* `Select.compile_avoids`: the compiler never stops at an aggregate outside of groups.
* `Statement.prepare_places`: where a prepared statement has aggregates.
-/

namespace SqlEngine

variable {α : Type} {c : Catalog} {L : Local}

/-! ### Notes on aggregates -/

/-- The overload of the call is an aggregate. -/
def Call.OfAggregate (c : Catalog) (f : Call) : Prop :=
  ∃ o v, f.target = some o ∧ c.variant? o = some v ∧ v.isAggregate = true

/-- An aggregate is called in the expression, apart from its sub-selects. -/
def Expr.Aggregates (c : Catalog) (e : Expr) : Prop :=
  ∃ f ∈ e.calls, f.OfAggregate c

/-- It is noted on each call whether its overload is an aggregate. -/
def Local.noted (c : Catalog) : Local :=
  ⟨fun _ => True, fun f => f.isAggregate = true ↔ f.OfAggregate c, fun _ => True⟩

theorem Call.choose_noted {id : Nat} {g : Function} {aggregates : Bool} {call f : Call}
    (hg : c.functions[id]? = some g) (h : Call.choose id g aggregates call = .ok f) :
    f.isAggregate = true ↔ f.OfAggregate c := by
  simp only [Call.choose] at h
  split at h
  · cases h
  next i hi =>
    split at h
    · cases h
    next v hv =>
      split at h
      · cases h
      have hvariant : c.variant? ⟨id, i⟩ = some v := by
        simp only [Catalog.variant?, hg, Option.bind_some, hv]
      obtain rfl := Except.ok.inj h
      refine ⟨fun haggregate => ⟨_, v, rfl, hvariant, haggregate⟩, ?_⟩
      rintro ⟨o, v', ho, hv', haggregate⟩
      obtain rfl := Option.some.inj ho
      obtain rfl := Option.some.inj (hvariant.symm.trans hv')
      exact haggregate

theorem Catalog.ensures_noted (c : Catalog) : c.Ensures (.noted c) where
  resolved := fun _ => trivial
  expanded := fun _ _ _ => trivial
  unnamed := fun _ => trivial
  call := by
    rintro ⟨function, arguments, _, _, _, _⟩ f scopes aggregates h
    simp only [Call.resolve] at h
    split at h
    · cases h
    next id g hfind =>
      obtain ⟨_, -, h⟩ := bind_eq_ok_iff.1 h
      exact Call.choose_noted (Catalog.getElem?_of_findFunction? hfind) h
  bare := by
    intro r f aggregates h
    simp only [ColumnRef.asCall] at h
    split at h
    · cases h
    split at h
    · cases h
    next id g hfind =>
      split at h
      · exact Call.choose_noted (Catalog.getElem?_of_findFunction? hfind) h
      · cases h
  select := fun _ _ => trivial

/-- On an expression it is noted whether an aggregate is called in it. -/
theorem Expr.hasAggregate_iff {e : Expr} (h : e.Everywhere (.resolved c))
    (hnoted : e.Everywhere (.noted c)) : e.hasAggregate = true ↔ e.Aggregates c := by
  have hcalls := Expr.forall_calls hnoted
  rw [h.self.aggregate, List.any_eq_true]
  constructor
  · rintro ⟨f, hf, haggregate⟩
    exact ⟨f, hf, (hcalls f hf).1 haggregate⟩
  · rintro ⟨f, hf, haggregate⟩
    exact ⟨f, hf, (hcalls f hf).2 haggregate⟩

/-! ### Errors of the compiler -/

/-- The error of the compiler for an aggregate where it has no slots for one. -/
abbrev stray (function : String) : Error :=
  .internal (.strayAggregate function)

variable {function : String}

section Formula

open Formula

theorem Formula.Group.expectOperand_avoids (g : Group) :
    Avoids (.strayAggregate function) g.expectOperand := by
  rw [expectOperand]
  split
  · exact .error (by simp)
  · exact .ok ()

theorem Formula.Group.expectNoneDue_avoids (g : Group) :
    Avoids (.strayAggregate function) g.expectNoneDue := by
  rw [expectNoneDue]
  split
  · exact .error (by simp)
  · exact .ok ()

theorem Formula.State.read_avoids (s : State α) (item : Item α) :
    Avoids (.strayAggregate function) (s.read item) := by
  cases item with
  | value a => exact s.group.expectOperand_avoids.bind fun _ => .ok _
  | openParen => exact s.group.expectOperand_avoids.bind fun _ => .ok _
  | closeParen =>
    refine s.group.expectNoneDue_avoids.bind fun _ => ?_
    cases s.outer with
    | nil => exact .error (by simp)
    | cons around rest =>
      dsimp only
      split
      · exact .ok _
      · exact .error (by simp)
  | operator op =>
    refine s.group.expectNoneDue_avoids.bind fun _ => ?_
    dsimp only
    split
    · exact .error (by simp)
    split <;> exact .ok _

theorem Formula.State.run_avoids : ∀ (items : List (Item α)) (s : State α),
    Avoids (.strayAggregate function) (s.run items)
  | [], s => by
    refine s.group.expectNoneDue_avoids.bind fun _ => ?_
    split
    · exact .error (by simp)
    split
    · exact .error (by simp)
    · exact .ok _
  | item :: items, s => (s.read_avoids item).bind fun s => run_avoids items s

theorem formulaCode_avoids (items : List (Item (List Instr))) :
    Avoids (stray function) (formulaCode items) := by
  have hlinear : Avoids (.strayAggregate function) (linearize items) :=
    Formula.State.run_avoids items _
  rw [formulaCode]
  split
  next fault hfault =>
    refine .error fun heq => hlinear ?_
    rw [hfault, Error.internal.inj heq]
  next => exact .ok _

end Formula

theorem ColumnRef.expectBinding_avoids (r : ColumnRef) :
    Avoids (stray function) r.expectBinding := by
  rw [expectBinding]
  split
  · exact .ok _
  · exact .error (by simp)

theorem Expr.outputCode_avoids {keys : Option (List Expr)} {slots : List (Slot Plan)} {e : Expr}
    {value : Except Error Code} (h : Avoids (stray function) value) :
    Avoids (stray function) (e.outputCode keys slots value) := by
  rw [outputCode]
  split
  next r _ => exact (r.expectBinding_avoids.bind fun _ => .ok _).map _
  next => exact h.map _

/-! ### Compiling -/

mutual

theorem Expr.emit_avoids : ∀ {e : Expr} (keys : Option (List Expr)) (parts : Parts),
    e.Everywhere (.resolved c) → Fit keys e.calls → Avoids (stray function) (e.emit c keys parts)
  | ⟨nodes, _, _, _, _, _, _⟩, keys, parts, h, hfit => by
    rw [Expr.emit]
    split
    · exact .ok _
    · exact (Node.emitAll_avoids keys parts h.2 hfit).bind fun p =>
        (formulaCode_avoids p.1).bind fun _ => .ok _

theorem Node.emit_avoids : ∀ {n : Node} (keys : Option (List Expr)) (parts : Parts),
    n.Everywhere (.resolved c) → Fit keys (Node.callsOf [n]) →
    Avoids (stray function) (n.emit c keys parts)
  | .operator _, _, _, _, _ | .openParen, _, _, _, _ | .closeParen, _, _, _, _ => .ok _
  | .number _, _, _, _, _ | .text _, _, _, _, _ | .boolean _, _, _, _, _ | .null, _, _, _, _ => by
    rw [Node.emit]
    split <;> exact .ok _
  | .column r, _, _, _, _ => by
    rw [Node.emit]
    split
    · exact .ok _
    · exact (r.expectBinding_avoids.bind fun _ => .ok _).bind fun _ => .ok _
  | .call f, keys, parts, h, hfit => by
    rw [Node.emit]
    split
    · exact .ok _
    · exact (Call.emit_avoids keys parts h hfit).bind fun _ => .ok _
  | .select s, _, _, h, _ => by
    rw [Node.emit]
    split
    · exact .ok _
    · exact (Select.compile_avoids h).bind fun _ => .ok _

theorem Node.emitAll_avoids : ∀ {ns : List Node} (keys : Option (List Expr)) (parts : Parts),
    Node.EverywhereAll (.resolved c) ns → Fit keys (Node.callsOf ns) →
    Avoids (stray function) (Node.emitAll c keys parts ns)
  | [], _, _, _, _ => .ok _
  | n :: ns, keys, parts, h, hfit => by
    rw [Node.callsOf_cons] at hfit
    exact (Node.emit_avoids keys parts h.1 hfit.left).bind fun p =>
      (Node.emitAll_avoids keys p.2 h.2 hfit.right).bind fun _ => .ok _

theorem Call.emit_avoids : ∀ {f : Call} (keys : Option (List Expr)) (parts : Parts),
    f.Everywhere (.resolved c) → Fit keys (Node.callsOf [.call f]) →
    Avoids (stray function) (f.emit c keys parts)
  | ⟨_, _, none, _, _, _⟩, keys, parts, _, _ => .error (by simp)
  | ⟨name, arguments, some target, type, true, offset⟩, keys, parts, ⟨hf, harguments⟩, hfit => by
    refine (Expr.programs_avoids harguments (hf.1.nested rfl)).bind fun programs => ?_
    -- an aggregate fits only where there are group keys
    cases keys with
    | none => exact absurd (hfit rfl) (by simp [Node.callsOf])
    | some keys => exact .ok _
  | ⟨name, arguments, some target, type, false, offset⟩, keys, parts, ⟨_, harguments⟩, hfit => by
    have hargs : Fit keys (Expr.callsOf arguments) := by
      intro hkeys
      have := hfit hkeys
      simpa [Node.callsOf, Call.nested] using this
    exact (Expr.emitAll_avoids keys parts harguments hargs).bind fun _ => .ok _

theorem Expr.emitAll_avoids : ∀ {es : List Expr} (keys : Option (List Expr)) (parts : Parts),
    Expr.EverywhereAll (.resolved c) es → Fit keys (Expr.callsOf es) →
    Avoids (stray function) (Expr.emitAll c keys parts es)
  | [], _, _, _, _ => .ok _
  | _ :: _, keys, parts, h, hfit =>
    (Expr.emit_avoids keys parts h.1 hfit.left).bind fun code =>
      (Expr.emitAll_avoids keys code.parts h.2 hfit.right).bind fun _ => .ok _

theorem Expr.programs_avoids : ∀ {es : List Expr}, Expr.EverywhereAll (.resolved c) es →
    (∀ e ∈ es, e.hasAggregate = false) → Avoids (stray function) (Expr.programs c es)
  | [], _, _ => .ok _
  | e :: es, h, hplain => by
    obtain ⟨he, hes⟩ := List.forall_mem_cons.1 hplain
    exact (Expr.emit_avoids none ⟨[], []⟩ h.1 (h.1.self.fit fun _ => he)).bind fun code =>
      (Expr.programs_avoids h.2 hes).bind fun _ => .ok _

theorem Expr.programOption_avoids : ∀ {e : Option Expr},
    Expr.EverywhereOption (.resolved c) e → (∀ e' ∈ e, e'.hasAggregate = false) →
    Avoids (stray function) (Expr.programOption c e)
  | none, _, _ => .ok _
  | some e, h, hplain =>
    (Expr.emit_avoids none ⟨[], []⟩ h (h.self.fit fun _ => hplain e rfl)).bind fun _ => .ok _

theorem Expr.outputPrograms_avoids : ∀ {es : List Expr} (keys : Option (List Expr))
    (slots : List (Slot Plan)), Expr.EverywhereAll (.resolved c) es →
    (∀ e ∈ es, Fit keys e.calls) → Avoids (stray function) (Expr.outputPrograms c keys slots es)
  | [], _, _, _, _ => .ok _
  | e :: es, keys, slots, h, hfit => by
    obtain ⟨he, hes⟩ := List.forall_mem_cons.1 hfit
    rw [Expr.outputPrograms]
    split
    · exact .error (by simp)
    · have hcode : Avoids (stray function)
          (e.outputCode keys slots (e.emit c keys ⟨[], slots⟩)) :=
        Expr.outputCode_avoids (Expr.emit_avoids keys ⟨[], slots⟩ h.1 he)
      exact hcode.bind fun code =>
        (Expr.outputPrograms_avoids keys code.parts.slots h.2 hes).bind fun _ => .ok _

theorem OrderKey.sortKeys_avoids : ∀ {ks : List OrderKey} (keys : Option (List Expr))
    (slots : List (Slot Plan)), OrderKey.EverywhereAll (.resolved c) ks →
    (∀ k ∈ ks, Fit keys k.expr.calls) →
    Avoids (stray function) (OrderKey.sortKeys c keys slots ks)
  | [], _, _, _, _ => .ok _
  | ⟨e, ascending⟩ :: ks, keys, slots, h, hfit => by
    obtain ⟨he, hks⟩ := List.forall_mem_cons.1 hfit
    exact (Expr.emit_avoids keys ⟨[], slots⟩ h.1 he).bind fun code =>
      (OrderKey.sortKeys_avoids keys code.parts.slots h.2 hks).bind fun _ => .ok _

theorem Source.supply_avoids : ∀ {s : Source}, s.Everywhere (.resolved c) →
    Avoids (stray function) (s.supply c)
  | .table .., _ => by
    rw [Source.supply]
    split
    · exact .ok _
    · exact .error (by simp)
  | .select _ _ _, h => (Select.compile_avoids h).bind fun _ => .ok _

theorem Source.supplies_avoids : ∀ {s : Option Source}, Source.EverywhereOption (.resolved c) s →
    Avoids (stray function) (Source.supplies c s)
  | none, _ => .ok _
  | some _, h => (Source.supply_avoids h).bind fun _ => .ok _

theorem Join.supplies_avoids : ∀ {js : List Join}, Join.EverywhereAll (.resolved c) js →
    Avoids (stray function) (Join.supplies c js)
  | [], _ => .ok _
  | ⟨_, _, _⟩ :: _, h =>
    (Source.supply_avoids h.1).bind fun _ => (Join.supplies_avoids h.2.2).bind fun _ => .ok _

theorem Join.steps_avoids : ∀ {js : List Join}, Join.EverywhereAll (.resolved c) js →
    (∀ e ∈ js.filterMap Join.condition, e.hasAggregate = false) →
    Avoids (stray function) (Join.steps c js)
  | [], _, _ => .ok _
  | ⟨source, kind, condition⟩ :: js, h, hplain => by
    have hhere : ∀ e ∈ condition, e.hasAggregate = false := fun e he =>
      hplain e (List.mem_filterMap.2 ⟨_, List.mem_cons_self, he⟩)
    have hjs : ∀ e ∈ js.filterMap Join.condition, e.hasAggregate = false := by
      intro e he
      obtain ⟨j, hj, heq⟩ := List.mem_filterMap.1 he
      exact hplain e (List.mem_filterMap.2 ⟨j, List.mem_cons_of_mem _ hj, heq⟩)
    exact (Expr.programOption_avoids h.2.1 hhere).bind fun _ =>
      (Join.steps_avoids h.2.2 hjs).bind fun _ => .ok _

/-- **The compiler never stops at an aggregate outside of groups**, if all parts of a SELECT are
resolved. -/
theorem Select.compile_avoids : ∀ {s : Select}, s.Everywhere (.resolved c) →
    Avoids (stray function) (s.compile c)
  | ⟨text, distinct, output, origin, joins, filter, groupBy, orderBy, limit, offset⟩,
      ⟨hs, houtput, horigin, hjoins, hfilter, hgroup, horder⟩ => by
    have hkeys := Select.fit ⟨text, distinct, output, origin, joins, filter, groupBy, orderBy,
      limit, offset⟩
    have hplain := fun e he => (hs.rowExprs e he).2
    simp only [Select.rowExprs, List.forall_mem_append, Option.mem_toList] at hplain
    obtain ⟨⟨hplainJoins, hplainFilter⟩, hplainGroup⟩ := hplain
    refine (Source.supplies_avoids horigin).bind fun _ => (Join.supplies_avoids hjoins).bind fun _ =>
      (Join.steps_avoids hjoins hplainJoins).bind fun _ =>
      (Expr.programOption_avoids hfilter hplainFilter).bind fun _ =>
      (Expr.programs_avoids hgroup hplainGroup).bind fun _ => ?_
    refine (Expr.outputPrograms_avoids _ [] houtput fun e he =>
      hkeys e (Expr.everywhereAll_iff.1 houtput e he).self (.inl he)).bind fun p => ?_
    refine (OrderKey.sortKeys_avoids _ p.2 horder fun k hk =>
      hkeys k.expr (OrderKey.everywhereAll_iff.1 horder k hk).self
        (.inr (List.mem_map_of_mem hk))).bind fun _ => .ok _

end

/-! ### Where aggregates stand -/

/-- What holds everywhere in a SELECT holds everywhere in its clauses. -/
theorem Select.Everywhere.clauses {s : Select} (h : s.Everywhere L) :
    ∀ e ∈ s.clauses, e.Everywhere L := by
  obtain ⟨_, _, _, _, _, _, _, _, _, _⟩ := s
  obtain ⟨-, houtput, -, hjoins, hfilter, hgroup, horder⟩ := h
  simp only [Select.clauses, Select.rowExprs, List.forall_mem_append, Option.mem_toList]
  exact ⟨⟨Expr.everywhereAll_iff.1 houtput, ⟨hjoins.conditions, Expr.everywhereOption_iff.1 hfilter⟩,
    Expr.everywhereAll_iff.1 hgroup⟩, List.forall_mem_map.2 (OrderKey.everywhereAll_iff.1 horder)⟩

/-- A SELECT with aggregates in its outputs and sort keys only.  It folds rows if it has group keys
or if there is an aggregate, its plan does so too, and making the plan never stops at an aggregate
outside of groups. -/
structure Select.Places (c : Catalog) (s : Select) : Prop where
  rowExprs : ∀ e ∈ s.rowExprs, ¬ e.Aggregates c
  aggregating : s.isAggregate = true ↔
    s.groupBy ≠ [] ∨ ∃ e ∈ s.output ++ s.orderBy.map OrderKey.expr, e.Aggregates c
  aggregated : ∀ stages, s.compile c = .ok (.of stages) → stages.aggregated = s.isAggregate
  compiled : ∀ function, s.compile c ≠ .error (.internal (.strayAggregate function))

/-- Aggregates are in their places: it is noted on expressions and calls where they are, they are
not in the arguments of one another, and every SELECT has them where it may. -/
def Local.placed (c : Catalog) : Local :=
  ⟨fun e => e.hasAggregate = true ↔ e.Aggregates c,
    fun f => (f.isAggregate = true ↔ f.OfAggregate c) ∧
      (f.OfAggregate c → ∀ a ∈ f.arguments, ¬ a.Aggregates c),
    Select.Places c⟩

/-- What follows from the notes. -/
theorem Local.aggregates_placed :
    (Local.resolved c).deep.Give (Local.noted c).deep (.placed c) where
  expr := Expr.hasAggregate_iff
  call := by
    intro f h hnoted
    refine ⟨hnoted.self, fun haggregate a ha => ?_⟩
    rw [← Expr.hasAggregate_iff (h.arguments a ha) (hnoted.arguments a ha),
      h.self.1.nested (hnoted.self.2 haggregate) a ha]
    exact Bool.false_ne_true
  select := by
    intro s h hnoted
    have hiff : ∀ e ∈ s.clauses, (e.hasAggregate = true ↔ e.Aggregates c) := fun e he =>
      Expr.hasAggregate_iff (h.clauses e he) (hnoted.clauses e he)
    simp only [Select.clauses, List.forall_mem_append] at hiff
    obtain ⟨⟨houtput, hrow⟩, horder⟩ := hiff
    refine ⟨fun e he => ?_, ?_, fun stages hstages => ?_, fun function => Select.compile_avoids h⟩
    · rw [← hrow e he, (h.self.rowExprs e he).2]
      exact Bool.false_ne_true
    · have hfolded : s.isAggregate = true ↔ s.groupBy ≠ [] ∨
          ∃ e ∈ s.output ++ s.orderBy.map OrderKey.expr, e.hasAggregate = true := by
        simp [Select.isAggregate, or_assoc, or_and_right, exists_or]
      rw [hfolded]
      refine or_congr_right (exists_congr fun e => and_congr_right fun he => ?_)
      exact (List.forall_mem_append.2 ⟨houtput, horder⟩) e he
    · obtain ⟨stages', heq, hcompiles⟩ := Select.compile_eq_ok hstages
      obtain rfl := Plan.of.inj heq
      exact hcompiles.aggregated

/-- The expressions of a statement that are evaluated row by row: ON, WHERE and GROUP BY of a SELECT,
and all expressions of the statements that change a table. -/
def Statement.rowExprs : Statement → List Expr
  | .select s => s.rowExprs
  | .insert s => s.rows.flatten
  | .update s => s.assignments.map Assignment.value ++ s.filter.toList
  | .delete s => s.filter.toList
  | .create _ => []

theorem Statement.Everywhere.rowExprs {s : Statement} (h : s.Everywhere L) :
    ∀ e ∈ s.rowExprs, e.Everywhere L := by
  cases s with
  | select s =>
    exact fun e he => Select.Everywhere.clauses h e
      (List.mem_append_left _ (List.mem_append_right _ he))
  | insert s =>
    intro e he
    obtain ⟨row, hrow, he⟩ := List.mem_flatten.1 he
    exact Expr.everywhereAll_iff.1 (h row hrow) e he
  | update s =>
    refine List.forall_mem_append.2 ⟨List.forall_mem_map.2 h.1, fun e he => ?_⟩
    exact Expr.everywhereOption_iff.1 h.2 e (Option.mem_toList.1 he)
  | delete s =>
    exact fun e he => Expr.everywhereOption_iff.1 h e (Option.mem_toList.1 he)
  | create s => exact List.forall_mem_nil _

theorem Insert.resolveRow_plain {t : Table} : ∀ {positions : List Nat} {es es' : List Expr},
    Insert.resolveRow c t positions es = .ok es' → ∀ e ∈ es', e.hasAggregate = false
  | [], _, es', h | _ :: _, [], es', h => by
    obtain rfl := Except.ok.inj h
    exact List.forall_mem_nil _
  | i :: positions, e :: es, es', h => by
    simp only [Insert.resolveRow, bind_eq_ok_iff] at h
    obtain ⟨e', he, -, -, rest, hrest, h⟩ := h
    obtain rfl := Except.ok.inj h
    exact List.forall_mem_cons.2 ⟨(Expr.resolve_row he).2, Insert.resolveRow_plain hrest⟩

/-- What is evaluated row by row has no aggregates. -/
theorem Statement.resolve_rowExprs {written s : Statement} (h : written.resolve c = .ok s) :
    ∀ e ∈ s.rowExprs, e.hasAggregate = false := by
  have hrow : ∀ (scopes : List Scope) (e e' : Expr), e.resolve c scopes false = .ok e' →
      e'.hasAggregate = false := fun _ _ _ he => (Expr.resolve_row he).2
  cases written with
  | select q =>
    obtain ⟨q', hq, h⟩ := bind_eq_ok_iff.1 h
    obtain rfl := Except.ok.inj h
    obtain ⟨scope, joined, conditions, listed, hresolves⟩ := Select.resolve_eq_ok hq
    exact fun e he => (hresolves.rowExprs e he).2
  | insert q =>
    obtain ⟨q', hq, h⟩ := bind_eq_ok_iff.1 h
    obtain rfl := Except.ok.inj h
    obtain ⟨_, t, -, -, -, hrows⟩ := Insert.resolve_eq_ok hq
    intro e he
    obtain ⟨row, hmem, he⟩ := List.mem_flatten.1 he
    obtain ⟨row', -, -, hresolved⟩ := exists_mem_of_forall₂ hrows hmem
    exact Insert.resolveRow_plain hresolved e he
  | update q =>
    obtain ⟨q', hq, h⟩ := bind_eq_ok_iff.1 h
    obtain rfl := Except.ok.inj h
    obtain ⟨_, t, -, -, hassignments, hfilter⟩ := Update.resolve_eq_ok hq
    refine List.forall_mem_append.2 ⟨List.forall_mem_map.2 fun a ha => ?_, fun e he => ?_⟩
    · obtain ⟨a', -, hresolved⟩ := exists_mem_of_forall₂ hassignments ha
      exact hrow _ _ _ (Assignment.resolve_eq_ok hresolved).2.1
    · exact Expr.resolveFilter_forall (hrow _) hfilter e (Option.mem_toList.1 he)
  | delete q =>
    obtain ⟨q', hq, h⟩ := bind_eq_ok_iff.1 h
    obtain rfl := Except.ok.inj h
    obtain ⟨_, t, -, -, hfilter⟩ := Delete.resolve_eq_ok hq
    exact fun e he => Expr.resolveFilter_forall (hrow _) hfilter e (Option.mem_toList.1 he)
  | create q =>
    obtain ⟨q', -, h⟩ := bind_eq_ok_iff.1 h
    obtain rfl := Except.ok.inj h
    exact List.forall_mem_nil _

/-- **Aggregates stay where they may be.**  In a prepared statement, at any depth, it is noted on
each expression whether an aggregate is called in it, apart from its sub-selects.  No aggregate is
called in ON, WHERE and GROUP BY, in the values of INSERT and UPDATE or in the arguments of another
one.  A SELECT folds rows exactly if it has group keys or an aggregate in its outputs or sort keys,
and so does its plan; and the compiler never comes to an aggregate that it has no slots for. -/
theorem Statement.prepare_places {o : ParserOptions} {text : String} {s : Statement}
    (h : Statement.prepare o c text = .ok s) :
    s.Everywhere (.placed c) ∧ ∀ e ∈ s.rowExprs, ¬ e.Aggregates c ∧
      ∀ function, e.program c ≠ .error (.internal (.strayAggregate function)) := by
  have hresolved := Statement.prepare_everywhere c.ensures_resolved h
  have hnoted := Statement.prepare_everywhere c.ensures_noted h
  refine ⟨hresolved.deep.give Local.aggregates_placed hnoted.deep, fun e he => ?_⟩
  obtain ⟨written, -, hresolve⟩ := bind_eq_ok_iff.1 h
  have hplain := Statement.resolve_rowExprs hresolve e he
  have hevery := hresolved.rowExprs e he
  constructor
  · rw [← Expr.hasAggregate_iff hevery (hnoted.rowExprs e he), hplain]
    exact Bool.false_ne_true
  · intro function
    exact (Expr.emit_avoids none ⟨[], []⟩ hevery (hevery.self.fit fun _ => hplain)).map _

namespace Database

/-- An aggregate in an argument, and one among the sort keys of a sub-select in WHERE. -/
def leastLoud : String :=
  "SELECT UPPER(MIN(a)) FROM t WHERE b = (SELECT b FROM t GROUP BY b ORDER BY COUNT(*))"

theorem leastLoud_places :
    ∃ s, greetings.prepare leastLoud = .ok (.select s) ∧
      s.Everywhere (.placed greetings.catalog) ∧ s.isAggregate = true ∧ s.groupBy = [] ∧
      (∃ e ∈ s.output, e.Aggregates greetings.catalog) ∧
      ∀ e ∈ s.filter, ¬ e.Aggregates greetings.catalog := by
  have hselect : greetings.isSelect leastLoud
      (fun s => s.isAggregate && s.groupBy.isEmpty && s.orderBy.isEmpty) = true := by
    cbv
  obtain ⟨s, hs, hfolds⟩ := exists_of_isSelect hselect
  simp only [Bool.and_eq_true, List.isEmpty_iff] at hfolds
  obtain ⟨⟨haggregate, hgroup⟩, horder⟩ := hfolds
  obtain ⟨hplaced, hrow⟩ := Statement.prepare_places hs
  have hplaces := Select.Everywhere.self hplaced
  refine ⟨s, hs, hplaced, haggregate, hgroup, ?_, fun e he => ?_⟩
  · obtain hgrouped | ⟨e, he, haggregates⟩ := hplaces.aggregating.1 haggregate
    · exact absurd hgroup hgrouped
    · rw [horder, List.map_nil, List.append_nil] at he
      exact ⟨e, he, haggregates⟩
  · have hmem : e ∈ s.rowExprs :=
      List.mem_append_left _ (List.mem_append_right _ (Option.mem_toList.2 he))
    exact (hrow e hmem).1

end Database

end SqlEngine
