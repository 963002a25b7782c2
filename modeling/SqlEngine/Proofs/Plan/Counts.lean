import SqlEngine.Proofs.Plan.Outputs
import SqlEngine.Proofs.Plan.Phases

/-!
# Plans — counting rows

Without group keys all kept combinations are in one group, also when there are none.  The slot of a
`COUNT()` has no arguments to evaluate, so that its result is the number of the kept combinations,
whatever the other slots and outputs of the query are.

* `Stages.length_of_numbers`: a query of one literal has a row for each kept combination.
* `Stages.finish_count`: a query of `COUNT()` has one row, which is their number.
* `Stages.count_of_finish`: the same value beside other outputs.
-/

namespace SqlEngine

variable {s : Stages Query} {here : Setting} {kept : List Combination}

/-! ### One group -/

theorem groupRows_of_nil {α : Type} (rows : List α) :
    groupRows (rows.map fun a => (([] : List Value), a)) =
      if rows.isEmpty then [] else [⟨[], rows⟩] := by
  have hfold : ∀ (rows members : List α),
      (rows.map fun a => (([] : List Value), a)).foldl
        (fun gs r => insertIntoGroup r.1 r.2 gs) [⟨[], members⟩] = [⟨[], members ++ rows⟩] := by
    intro rows
    induction rows with
    | nil => simp
    | cons a rows ih =>
      intro members
      have hinsert : insertIntoGroup [] a [⟨[], members⟩] = [⟨[], members ++ [a]⟩] := rfl
      rw [List.map_cons, List.foldl_cons, hinsert, ih, List.append_assoc, List.singleton_append]
  cases rows with
  | nil => rfl
  | cons a rows => exact hfold rows [a]

/-- **Without keys there is one group** of all rows. -/
theorem Stages.collect_ungrouped (hs : s.groupBy = [])
    (hkept : ∀ c ∈ kept, c.Known here.providers) : s.collect here kept = .ok [⟨[], kept⟩] := by
  have hkeyed : kept.mapM (fun c => do
      let env ← here.envAt c
      Except.ok (← s.groupBy.mapM fun p => Program.value p env, c)) =
        .ok (kept.map fun c => ([], c)) := by
    rw [mapM_eq_ok_iff, List.forall₂_map_right_iff, List.forall₂_same]
    intro c hc
    obtain ⟨env, henv, -⟩ := Setting.exists_envAt (hkept c hc)
    rw [henv, hs]
    rfl
  rw [collect, hkeyed, ok_bind, groupRows_of_nil, hs]
  cases kept <;> rfl

/-! ### The slot of COUNT -/

theorem Accumulator.addAll_count (n k : Nat) :
    (Accumulator.count n).addAll (List.replicate k []) = .ok (.count (n + k)) := by
  induction k generalizing n with
  | zero => rfl
  | succ k ih =>
    rw [List.replicate_succ]
    exact (ih (n + 1)).trans (by rw [Nat.add_right_comm, Nat.add_assoc])

/-- A slot for COUNT without arguments. -/
structure Slot.IsCount (c : Catalog) (slot : Slot Query) : Prop where
  function : slot.function c = .ok .count
  arguments : slot.arguments = []

theorem Slot.IsCount.slotRows {slot : Slot Query} {c : Catalog} (h : slot.IsCount c)
    (hkept : ∀ c ∈ kept, c.Known here.providers) (number : Nat) (id : RowId) :
    Stages.slotRows here number id slot kept = .ok (List.replicate kept.length []) := by
  rw [← List.map_const', Stages.slotRows, mapM_eq_ok_iff, List.forall₂_map_right_iff,
    List.forall₂_same]
  intro c hc
  obtain ⟨positions, hpositions, -⟩ := exists_locateAll (hkept c hc)
  rw [hpositions, h.arguments]
  rfl

/-- The program that writes the result of a slot. -/
def Program.ofSlot {Q : Type} (i : Nat) : Program Q :=
  ⟨[.aggregate i, .out], []⟩

theorem Program.ofSlot_appends {env : Env} {i : Nat} {v : Value} (h : env.results[i]? = some v) :
    (Program.ofSlot i).Appends env (.ok v) :=
  Program.appends_of_push fun queries m => by simp only [Instr.step, h, Machine.pushOr]

/-! ### The query -/

/-- A query that aggregates all rows, and neither sorts nor cuts. -/
structure Stages.Totals (s : Stages Query) : Prop where
  aggregated : s.aggregated = true
  groupBy : s.groupBy = []
  orderBy : s.orderBy = []
  distinct : s.distinct = false
  limit : s.limit = none

theorem Stages.Totals.finish (hs : s.Totals) (hkept : ∀ c ∈ kept, c.Known here.providers) :
    s.finish here kept = s.aggregates.mapM (Slot.function here.catalog) >>= fun functions =>
      (s.projectGroup here functions [] ⟨[], kept⟩).map fun row =>
        (dropBlank kept.isEmpty [row]).map Projected.row := by
  simp only [Stages.finish, projectAll, hs.aggregated, if_true, collect_ungrouped hs.groupBy hkept,
    ok_bind, projectGroups, bind_assoc, arrange, hs.orderBy, hs.distinct, hs.limit]
  refine bind_congr_ok fun functions _ => ?_
  cases s.projectGroup here functions [] ⟨[], kept⟩ <;> rfl

theorem dropBlank_of_value {row : Projected} {k : Nat} {v : Value}
    (h : row.row.values[k]? = some v) (hv : v.isNull = false) (nothingKept : Bool) :
    dropBlank nothingKept [row] = [row] := by
  have hblank : Row.isBlank row.row.values = false := by
    rw [Row.isBlank, List.all_eq_false]
    exact ⟨v, List.mem_of_getElem? h, by simp [hv]⟩
  simp only [dropBlank, hblank, Bool.and_false, Bool.false_eq_true, if_false]

/-- **The value of a COUNT is the number of the kept rows**, beside any outputs that succeed. -/
theorem Stages.count_of_finish (hs : s.Totals) (houtputs : ∀ p ∈ s.outputs, p.AppendsOne)
    {k i : Nat} (hk : s.outputs[k]? = some (.ofSlot i)) {slot : Slot Query}
    (hi : s.aggregates[i]? = some slot) (hslot : slot.IsCount here.catalog)
    (hkept : ∀ c ∈ kept, c.Known here.providers) {rows : List OutputRow}
    (h : s.finish here kept = .ok rows) :
    ∃ row, rows = [row] ∧ row.values[k]? = some (.number (Float.ofNat kept.length)) := by
  rw [hs.finish hkept] at h
  simp only [projectGroup, bind_eq_ok_iff, map_eq_ok_iff] at h
  obtain ⟨functions, hfunctions, row, ⟨arguments, harguments, results, hresults, positions, -, hrow⟩,
    rfl⟩ := h
  -- the result of the slot
  obtain ⟨f, hf, hfunction⟩ := forall₂_getElem? (mapM_eq_ok_iff.1 hfunctions).flip hi
  obtain ⟨lists, hlists, hlist⟩ := forall₂_getElem? (mapM_eq_ok_iff.1 harguments).flip hi
  obtain rfl := Except.ok.inj (hslot.function.symm.trans hfunction)
  obtain rfl := Except.ok.inj ((hslot.slotRows hkept _ _).symm.trans hlist)
  have hzip : (functions.zip arguments)[i]? = some (.count, List.replicate kept.length []) :=
    List.getElem?_zip_eq_some.2 ⟨hf, hlists⟩
  obtain ⟨v, hv, hresult⟩ := forall₂_getElem? (mapM_eq_ok_iff.1 hresults).flip hzip
  obtain rfl : Value.number (Float.ofNat (0 + kept.length)) = v := by
    simp only [Accumulator.empty, Accumulator.addAll_count, ok_bind] at hresult
    exact Except.ok.inj hresult
  rw [Nat.zero_add] at hv
  -- and the output that writes it
  obtain ⟨w, hw, happends⟩ := forall₂_getElem? (values_of_project houtputs hrow).flip hk
  obtain rfl := Program.Appends.unique happends (Program.ofSlot_appends hv)
  exact ⟨row.row, by rw [dropBlank_of_value hw rfl]; rfl, hw⟩

theorem Stages.project_ofSlot {i : Nat} (houtputs : s.outputs = [.ofSlot i])
    (horder : s.orderBy = []) {env : Env} {v : Value} (hv : env.results[i]? = some v) :
    s.project env = .ok ⟨⟨env.rowId, [v]⟩, []⟩ := by
  rw [project, houtputs, horder, List.foldlM_cons, (Program.ofSlot_appends hv).write]
  rfl

/-- **A query of COUNT alone has one row**, the number of the kept rows. -/
theorem Stages.finish_count (hs : s.Totals) (houtputs : s.outputs = [.ofSlot 0]) {slot : Slot Query}
    (haggregates : s.aggregates = [slot]) (hslot : slot.IsCount here.catalog)
    (hkept : ∀ c ∈ kept, c.Known here.providers) :
    ∃ id, s.finish here kept = .ok [⟨id, [.number (Float.ofNat kept.length)]⟩] := by
  -- the group is projected on its first row, or on no row when it is empty
  have hfirst : Combination.Known here.providers (kept.head?.getD []) := by
    cases kept with
    | nil => exact Combination.known_nil _
    | cons c kept => exact hkept c List.mem_cons_self
  obtain ⟨positions, hpositions, -⟩ := exists_locateAll hfirst
  have hcount := Accumulator.addAll_count 0 kept.length
  rw [Nat.zero_add] at hcount
  have hgroup : s.projectGroup here [.count] [] ⟨[], kept⟩ =
      .ok ⟨⟨primaryId positions, [.number (Float.ofNat kept.length)]⟩, []⟩ := by
    simp only [projectGroup, haggregates, List.mapM_cons, List.mapM_nil, hslot.slotRows hkept,
      ok_bind, pure_bind, hpositions, List.zip_cons_cons, List.zip_nil_left, Accumulator.empty,
      hcount, Accumulator.result]
    exact project_ofSlot houtputs hs.orderBy rfl
  have hdrop (row : Projected) (hrow : row.row.values = [.number (Float.ofNat kept.length)]) :
      dropBlank kept.isEmpty [row] = [row] :=
    dropBlank_of_value (k := 0) (by rw [hrow]; rfl) rfl _
  refine ⟨primaryId positions, ?_⟩
  rw [hs.finish hkept, haggregates, List.mapM_cons, hslot.function]
  simp only [ok_bind, List.mapM_nil, pure_bind, hgroup, Except.map, hdrop]
  rfl

/-! ### Rows of a literal -/

/-- A query that writes one number for each row, and does nothing else with the rows. -/
structure Stages.Enumerates (s : Stages Query) (x : Float) : Prop where
  outputs : s.outputs = [⟨[.number x, .out], []⟩]
  aggregated : s.aggregated = false
  orderBy : s.orderBy = []
  distinct : s.distinct = false
  limit : s.limit = none

theorem Stages.Enumerates.projectRows {x : Float} (hs : s.Enumerates x) :
    ∀ {kept : List Combination} (number : Nat), (∀ c ∈ kept, c.Known here.providers) →
    ∃ rows, s.projectRows here number kept = .ok rows ∧ rows.length = kept.length ∧
      ∀ row ∈ rows, row.row.values = [.number x]
  | [], _, _ => ⟨[], rfl, rfl, nofun⟩
  | c :: kept, number, hkept => by
    obtain ⟨hc, hkept⟩ := List.forall_mem_cons.1 hkept
    obtain ⟨env, henv, -⟩ := Setting.exists_envFor hc number
    obtain ⟨rows, hrows, hlength, hvalues⟩ := hs.projectRows (number + 1) hkept
    have hproject : s.project env = .ok ⟨⟨env.rowId, [.number x]⟩, []⟩ := by
      rw [project, hs.outputs, hs.orderBy]
      rfl
    refine ⟨⟨⟨env.rowId, [.number x]⟩, []⟩ :: rows, ?_, congrArg (· + 1) hlength,
      List.forall_mem_cons.2 ⟨rfl, hvalues⟩⟩
    simp only [Stages.projectRows, henv, ok_bind, hproject, hrows]

/-- **A query of one number has a row for each kept combination.** -/
theorem Stages.length_of_numbers {x : Float} (hs : s.Enumerates x)
    (hkept : ∀ c ∈ kept, c.Known here.providers) :
    ∃ rows, s.finish here kept = .ok rows ∧ rows.length = kept.length := by
  obtain ⟨rows, hrows, hlength, hvalues⟩ := hs.projectRows 1 hkept
  have hdrop : dropBlank kept.isEmpty rows = rows := by
    match rows, hvalues with
    | [], _ | _ :: _ :: _, _ => rfl
    | [row], hvalues =>
      exact dropBlank_of_value (k := 0) (by rw [hvalues row List.mem_cons_self]; rfl) rfl _
  refine ⟨rows.map Projected.row, ?_, (List.length_map _).trans hlength⟩
  simp only [finish, projectAll, hs.aggregated, Bool.false_eq_true, if_false, hrows, ok_bind, hdrop,
    arrange, hs.distinct, hs.orderBy, hs.limit]
  rfl

end SqlEngine
