import SqlEngine.Proofs.Plan.Outputs
import SqlEngine.Proofs.Plan.Phases

/-!
# Plans — DISTINCT and GROUP BY

With DISTINCT a query evaluates its outputs for each kept combination, and keeps the first of equal
rows.  A query that groups by the same values evaluates them for each kept combination too; a group
has the key of its first member, and its output row is the key.  Both go on with the first rows
(`firstRows`).

* `groupRows_shows`: the groups show the first rows.
* `Stages.Groups.finish`: a query that groups by all its outputs gives the rows of a query with
  DISTINCT.
-/

namespace SqlEngine

/-! ### The first of equal rows -/

section Rows

variable {α : Type}

/-- The rows whose keys differ from those of all rows before them, `seen` being the keys of earlier
rows. -/
def firstRows (seen : List (List Value)) : List (List Value × α) → List (List Value × α)
  | []        => []
  | r :: rows =>
    if seen.any fun key => Value.sameAll key r.1 then firstRows seen rows
    else r :: firstRows (seen ++ [r.1]) rows

theorem firstRows_sublist : ∀ {rows : List (List Value × α)} {seen : List (List Value)},
    (firstRows seen rows).Sublist rows
  | [], _ => .slnil
  | r :: rows, seen => by
    rw [firstRows]
    split
    · exact .cons r firstRows_sublist
    · exact .cons_cons r firstRows_sublist

/-- DISTINCT keeps the first rows. -/
theorem distinctRows_map {f : List Value × α → Projected} (hf : ∀ r, (f r).row.values = r.1) :
    ∀ (rows : List (List Value × α)) (seen : List (List Value)),
    distinctRows seen (rows.map f) = (firstRows seen rows).map f
  | [], _ => rfl
  | r :: rows, seen => by
    rw [List.map_cons, distinctRows, firstRows, hf]
    split
    · exact distinctRows_map hf rows seen
    · rw [distinctRows_map hf rows, List.map_cons]

theorem arrange_distinct {f : List Value × α → Projected} (hf : ∀ r, (f r).row.values = r.1)
    (rows : List (List Value × α)) (directions : List Bool) (limit : Option Nat) :
    arrange true directions limit (rows.map f) =
      arrange false directions limit ((firstRows [] rows).map f) := by
  rw [← distinctRows_map hf]
  rfl

/-- The key of the group is that of the row, which is its first member. -/
structure Group.Shows (g : Group α) (r : List Value × α) : Prop where
  key : g.key = r.1
  first : g.members.head? = some r.2

/-- A row that is in no group yet makes a new one; else the groups show what they did. -/
theorem insertIntoGroup_shows {gs : List (Group α)} {firsts : List (List Value × α)}
    (h : List.Forall₂ Group.Shows gs firsts) (r : List Value × α) :
    List.Forall₂ Group.Shows (insertIntoGroup r.1 r.2 gs)
      (if (firsts.map Prod.fst).any fun key => Value.sameAll key r.1 then firsts
        else firsts ++ [r]) := by
  induction h with
  | nil => exact .cons ⟨rfl, rfl⟩ .nil
  | @cons g first gs firsts hg hgs ih =>
    obtain ⟨hkey, hfirst⟩ := hg
    rw [insertIntoGroup, List.map_cons, List.any_cons, hkey]
    cases Value.sameAll first.1 r.1 with
    | true => exact .cons ⟨rfl, by simp [hfirst]⟩ hgs
    | false =>
      rw [Bool.false_or, if_neg Bool.false_ne_true]
      split at ih
      next hseen => rw [if_pos hseen]; exact .cons ⟨hkey, hfirst⟩ ih
      next hseen => rw [if_neg hseen]; exact .cons ⟨hkey, hfirst⟩ ih

theorem foldl_insertIntoGroup_shows : ∀ {rows : List (List Value × α)} {gs : List (Group α)}
    {firsts : List (List Value × α)}, List.Forall₂ Group.Shows gs firsts →
    List.Forall₂ Group.Shows (rows.foldl (fun gs r => insertIntoGroup r.1 r.2 gs) gs)
      (firsts ++ firstRows (firsts.map Prod.fst) rows)
  | [], gs, firsts, h => by rwa [firstRows, List.append_nil]
  | r :: rows, gs, firsts, h => by
    have hinsert := @foldl_insertIntoGroup_shows rows _ _ (insertIntoGroup_shows h r)
    rw [List.foldl_cons, firstRows]
    split at hinsert
    next hseen => rwa [if_pos hseen]
    next hseen =>
      rw [if_neg hseen]
      rwa [List.append_assoc, List.singleton_append, List.map_append] at hinsert

/-- **The groups show the first rows**, in their order. -/
theorem groupRows_shows (rows : List (List Value × α)) :
    List.Forall₂ Group.Shows (groupRows rows) (firstRows [] rows) :=
  foldl_insertIntoGroup_shows .nil

end Rows

/-! ### Queries -/

/-- A value that depends on the current rows. -/
abbrev RowValue := List Position → Except Error Value

variable {here : Setting} {s t : Stages Query} {fs : List RowValue}

/-- The values at the current rows, or the first error. -/
def RowValue.all (fs : List RowValue) (positions : List Position) : Except Error (List Value) :=
  fs.mapM fun f => f positions

/-- The combination with its values. -/
def Setting.keyed (here : Setting) (fs : List RowValue) (c : Combination) :
    Except Error (List Value × Combination) := do
  let positions ← locateAll here.providers c
  .ok (← RowValue.all fs positions, c)

/-- The output row of a combination with its values. -/
def Setting.rowOf (here : Setting) (r : List Value × Combination) : Projected :=
  ⟨⟨primaryId ((locateAll here.providers r.2).toOption.getD []), r.1⟩, []⟩

theorem Setting.rowOf_eq {r : List Value × Combination} {positions : List Position}
    (h : locateAll here.providers r.2 = .ok positions) :
    here.rowOf r = ⟨⟨primaryId positions, r.1⟩, []⟩ := by
  rw [rowOf, h]
  rfl

/-! ### DISTINCT -/

/-- The query has these values as its outputs, and drops repeated rows. -/
structure Stages.Selects (s : Stages Query) (here : Setting) (fs : List RowValue) : Prop where
  outputs : ∀ positions number id, List.Forall₂
    (fun p f => Program.Appends p (here.env positions number id) (f positions)) s.outputs fs
  aggregated : s.aggregated = false
  orderBy : s.orderBy = []
  distinct : s.distinct = true

theorem Stages.Selects.project (hs : s.Selects here fs) (positions : List Position) (number : Nat)
    (id : RowId) : s.project (here.env positions number id) =
      (RowValue.all fs positions).map fun vs => ⟨⟨id, vs⟩, []⟩ := by
  have hwrite := foldlM_write (f := fun f : RowValue => f positions)
    (hs.outputs positions number id) []
  rw [Stages.project, hs.orderBy, hwrite, RowValue.all]
  cases fs.mapM fun f => f positions <;> rfl

theorem Stages.Selects.projectRows (hs : s.Selects here fs) : ∀ (kept : List Combination)
    (number : Nat), s.projectRows here number kept =
      (kept.mapM (here.keyed fs)).map (List.map here.rowOf)
  | [], _ => rfl
  | c :: kept, number => by
    rw [Stages.projectRows, List.mapM_cons, Setting.keyed, Setting.envFor]
    cases hpositions : locateAll here.providers c with
    | error e => rfl
    | ok positions =>
      simp only [ok_bind, hs.project, hs.projectRows kept]
      cases RowValue.all fs positions with
      | error e => rfl
      | ok vs =>
        have hrow := Setting.rowOf_eq (r := (vs, c)) hpositions
        simp only [Except.map, ok_bind]
        cases kept.mapM (here.keyed fs) with
        | error e => rfl
        | ok rows =>
          show Except.ok (_ :: _) = Except.ok (here.rowOf (vs, c) :: rows.map here.rowOf)
          rw [hrow]

/-! ### GROUP BY -/

/-- The program that writes a group key. -/
def Program.ofKey {Q : Type} (i : Nat) : Program Q :=
  ⟨[.groupKey i, .out], []⟩

theorem Program.ofKey_appends {env : Env} {i : Nat} {v : Value} (h : env.keys[i]? = some v) :
    (Program.ofKey i).Appends env (.ok v) :=
  Program.appends_of_push fun queries m => by simp only [Instr.step, h, Machine.pushOr]

/-- The query groups by these values, and each output is a key that has its value. -/
structure Stages.Groups (s : Stages Query) (here : Setting) (fs : List RowValue) : Prop where
  groupBy : ∀ positions number id, List.Forall₂
    (fun p f => Program.value p (here.env positions number id) = f positions) s.groupBy fs
  outputs : List.Forall₂ (fun p f => ∃ i : Nat, p = Program.ofKey i ∧ fs[i]? = some f) s.outputs fs
  nonempty : fs ≠ []
  aggregates : s.aggregates = []
  aggregated : s.aggregated = true
  orderBy : s.orderBy = []
  distinct : s.distinct = false

theorem Stages.Groups.collect (ht : t.Groups here fs) (kept : List Combination) :
    t.collect here kept = (kept.mapM (here.keyed fs)).map groupRows := by
  have hkeyed : (fun c => do
      let env ← here.envAt c
      Except.ok (← t.groupBy.mapM fun p => Program.value p env, c)) = here.keyed fs := by
    funext c
    rw [Setting.keyed, Setting.envAt]
    cases locateAll here.providers c with
    | error e => rfl
    | ok positions =>
      have hvalues := mapM_congr_forall₂ (f := fun p => Program.value p (here.env positions 0 beforeFirst))
        (g := fun f : RowValue => f positions) ((ht.groupBy positions 0 beforeFirst).imp fun _ _ h => h.symm)
      simp only [ok_bind, RowValue.all, hvalues]
  have hgroupBy : t.groupBy.isEmpty = false := by
    refine List.isEmpty_eq_false_iff.2 fun hnil => ht.nonempty ?_
    have hvalues := ht.groupBy [] 0 beforeFirst
    rwa [hnil, List.forall₂_nil_left_iff] at hvalues
  rw [Stages.collect, hkeyed]
  cases kept.mapM (here.keyed fs) with
  | error e => rfl
  | ok rows => simp only [ok_bind, hgroupBy, Bool.and_false, Bool.false_eq_true, if_false]; rfl

theorem Stages.Groups.projectGroup (ht : t.Groups here fs) {g : Group Combination}
    {r : List Value × Combination} (hg : g.Shows r) (hr : here.keyed fs r.2 = .ok r)
    (done : List Projected) : t.projectGroup here [] done g = .ok (here.rowOf r) := by
  obtain ⟨positions, hpositions, hr⟩ := bind_eq_ok_iff.1 hr
  obtain ⟨vs, hvs, hr⟩ := bind_eq_ok_iff.1 hr
  have hkey : g.key = vs := hg.key.trans (congrArg Prod.fst (Except.ok.inj hr)).symm
  have hlocate : locateAll here.providers (g.members.head?.getD []) = .ok positions := by
    rw [hg.first]
    exact hpositions
  simp only [Stages.projectGroup, ht.aggregates, List.mapM_nil, pure_bind, hlocate, ok_bind,
    List.zip_nil_left]
  have hvalues := mapM_eq_ok_iff.1 hvs
  let env : Env := { here.env positions (done.length + 1) (primaryId positions) with keys := vs }
  have happends : List.Forall₂ (fun p (f : RowValue) => Program.Appends p env (f positions)) t.outputs fs := by
    refine ht.outputs.imp ?_
    rintro _ f ⟨i, rfl, hf⟩
    obtain ⟨v, hv, hfv⟩ := forall₂_getElem? hvalues.flip hf
    show (Program.ofKey i).Appends env (f positions)
    rw [show f positions = .ok v from hfv]
    exact Program.ofKey_appends hv
  have hproject : t.project env = .ok ⟨⟨primaryId positions, vs⟩, []⟩ := by
    have hwrite := foldlM_write (f := fun f : RowValue => f positions) happends []
    rw [Stages.project, ht.orderBy, hwrite, show fs.mapM (fun f => f positions) = .ok vs from hvs]
    rfl
  have hrow := Setting.rowOf_eq hpositions
  rw [← hg.key, hkey] at hrow
  rw [hrow, hkey]
  exact hproject

theorem Stages.Groups.projectGroups (ht : t.Groups here fs) {gs : List (Group Combination)}
    {rows : List (List Value × Combination)} (h : List.Forall₂ Group.Shows gs rows)
    (hrows : ∀ r ∈ rows, here.keyed fs r.2 = .ok r) : ∀ done : List Projected,
    t.projectGroups here [] done gs = .ok (done ++ rows.map here.rowOf) := by
  induction h with
  | nil => exact fun done => congrArg Except.ok (List.append_nil done).symm
  | @cons g r gs rows hg _ ih =>
    obtain ⟨hr, hrows⟩ := List.forall_mem_cons.1 hrows
    intro done
    rw [Stages.projectGroups, ht.projectGroup hg hr, ok_bind, ih hrows, List.append_assoc]
    rfl

theorem Setting.keyed_eq_ok {c : Combination} {r : List Value × Combination}
    (h : here.keyed fs c = .ok r) : r.2 = c := by
  obtain ⟨positions, -, h⟩ := bind_eq_ok_iff.1 h
  obtain ⟨vs, -, h⟩ := bind_eq_ok_iff.1 h
  rw [← Except.ok.inj h]

theorem dropBlank_of_kept {nothingKept : Bool} {rows : List Projected}
    (h : nothingKept = true → rows = []) : dropBlank nothingKept rows = rows := by
  cases nothingKept with
  | false => match rows with
    | [] | [_] | _ :: _ :: _ => rfl
  | true =>
    rw [h rfl]
    rfl

/-- **Grouping by all outputs gives the rows of DISTINCT**, or fails as it does. -/
theorem Stages.Groups.finish (ht : t.Groups here fs) (hs : s.Selects here fs)
    (hlimit : t.limit = s.limit) (kept : List Combination) :
    t.finish here kept = s.finish here kept := by
  simp only [Stages.finish, projectAll, ht.aggregated, hs.aggregated, if_true, Bool.false_eq_true,
    if_false, ht.collect, hs.projectRows, ht.aggregates, ht.orderBy, hs.orderBy, ht.distinct,
    hs.distinct, hlimit]
  cases hkeyed : kept.mapM (here.keyed fs) with
  | error e => rfl
  | ok rows =>
    have hlist := mapM_eq_ok_iff.1 hkeyed
    have hrows : ∀ r ∈ firstRows [] rows, here.keyed fs r.2 = .ok r := by
      intro r hr
      obtain ⟨c, -, hc⟩ := exists_mem_of_forall₂ hlist (firstRows_sublist.subset hr)
      rwa [Setting.keyed_eq_ok hc]
    have hgroups := ht.projectGroups (groupRows_shows rows) hrows []
    have hnone : kept.isEmpty = true → rows = [] := by
      intro hempty
      rwa [List.isEmpty_iff.1 hempty, List.forall₂_nil_left_iff] at hlist
    -- without kept combinations there are no rows to drop
    have hall : dropBlank kept.isEmpty (rows.map here.rowOf) = rows.map here.rowOf :=
      dropBlank_of_kept fun h => by rw [hnone h]; rfl
    have hfirst : dropBlank kept.isEmpty ((firstRows [] rows).map here.rowOf) =
        (firstRows [] rows).map here.rowOf := dropBlank_of_kept fun h => by rw [hnone h]; rfl
    simp only [Except.map, ok_bind, List.mapM_nil, pure_bind, hgroups, List.nil_append, hall, hfirst]
    rw [arrange_distinct fun _ => rfl]

end SqlEngine
