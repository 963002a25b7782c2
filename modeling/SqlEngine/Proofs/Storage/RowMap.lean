import Mathlib
import SqlEngine.Proofs.Storage.Table
import SqlEngine.Storage.Cursor

/-!
# Storage — tables as maps of rows

What a table in memory is for its users: a map from ids to rows, from which each call gets its
answer (`RowMap.Takes`).  A new row has an id above all that were handed out before, so ids are
never used again; a call that fails leaves the table as it is; and the order in which new values are
listed does not matter.

* `MemoryTable.Tidy.perform_refined`: what one call does to a table is what it does to the map.
* `MemoryTable.Tidy.walks`: a cursor comes to all rows, in the order of their ids.
* `MemoryTable.History.refines_rowMap`: tables after any calls.
-/

namespace SqlEngine

variable {w : Nat} {t : MemoryTable} {id : RowId} {row old new : Row} {es : Entries}
  {change change' : Change} {given : List RowId}

/-! ### Changes of one row -/

namespace Change

/-- No column is given twice. -/
def Distinct (change : Change) : Prop :=
  (change.map Prod.fst).Nodup

/-- All columns are among the first `w`. -/
def Within (change : Change) (w : Nat) : Prop :=
  ∀ p ∈ change, p.1 < w

end Change

/-- `new` has the given values in their columns, and those of `old` in the others. -/
structure Row.Changed (old : Row) (change : Change) (new : Row) : Prop where
  length : new.length = old.length
  given : ∀ p ∈ change, new[p.1]? = some p.2
  others : ∀ i, i ∉ change.map Prod.fst → new[i]? = old[i]?

namespace Row.Changed

theorem perm (h : old.Changed change new) (hperm : change.Perm change') :
    old.Changed change' new where
  length := h.length
  given p hp := h.given p (hperm.mem_iff.2 hp)
  others i hi := h.others i fun hmem => hi ((hperm.map Prod.fst).mem_iff.1 hmem)

/-- There is one such row. -/
theorem unique (h : old.Changed change new) (hrow : old.Changed change row) : new = row := by
  refine List.ext_getElem? fun i => ?_
  by_cases hi : i ∈ change.map Prod.fst
  · obtain ⟨p, hp, rfl⟩ := List.mem_map.1 hi
    rw [h.given p hp, hrow.given p hp]
  · rw [h.others i hi, hrow.others i hi]

/-- A value that is written before the others stands, as none of them is in its column. -/
theorem cons {i : Nat} {v : Value} (hi : i < old.length) (hnew : i ∉ change.map Prod.fst)
    (h : Row.Changed (old.set i v) change new) : old.Changed ((i, v) :: change) new where
  length := by rw [h.length, List.length_set]
  given := by
    refine List.forall_mem_cons.2 ⟨?_, h.given⟩
    rw [h.others i hnew, List.getElem?_set_self hi]
  others j hj := by
    obtain ⟨hji, hj⟩ := not_or.1 (List.mem_cons.not.1 hj)
    rw [h.others j hj, List.getElem?_set_ne (Ne.symm hji)]

end Row.Changed

/-- What writing to a row comes to: all columns are there and the row is changed, or one is not and
the error names it. -/
theorem MemoryTable.write_cases (change : Change) : ∀ {row : Row}, row.length = t.width →
    (change.Within t.width ∧ ∃ new, t.write row change = .ok new ∧
      (change.Distinct → row.Changed change new)) ∨
    ∃ p ∈ change, t.width ≤ p.1 ∧
      t.write row change = .error (.invalidArgument (.columnOutside p.1 t.width)) := by
  induction change with
  | nil => exact fun _ => .inl ⟨nofun, _, rfl, fun _ => ⟨rfl, nofun, fun _ _ => rfl⟩⟩
  | cons p change ih =>
    obtain ⟨i, v⟩ := p
    intro row hrow
    by_cases hi : t.width ≤ i
    · exact .inr ⟨(i, v), List.mem_cons_self, hi, by rw [write, if_pos hi]⟩
    · have hlt : i < row.length := by omega
      have hwrite : t.write row ((i, v) :: change) = t.write (row.set i v) change := by
        rw [write, if_neg hi, Row.put, if_pos hlt, ok_bind]
      rw [hwrite]
      have hset : (row.set i v).length = t.width := List.length_set.trans hrow
      rcases ih hset with
        ⟨hwithin, new, hnew, hchanged⟩ | ⟨q, hq, houtside, herror⟩
      · refine .inl ⟨List.forall_mem_cons.2 ⟨by omega, hwithin⟩, new, hnew, fun hdistinct => ?_⟩
        obtain ⟨hfresh, hdistinct⟩ := List.nodup_cons.1 hdistinct
        exact .cons hlt hfresh (hchanged hdistinct)
      · exact .inr ⟨q, List.mem_cons_of_mem _ hq, houtside, herror⟩

/-- The order in which values are written does not matter. -/
theorem MemoryTable.write_perm (hrow : row.length = t.width) (hdistinct : change.Distinct)
    (hperm : change.Perm change') (h : t.write row change = .ok new) :
    t.write row change' = .ok new := by
  have hdistinct' : change'.Distinct := (hperm.map Prod.fst).nodup_iff.1 hdistinct
  rcases write_cases change hrow with ⟨hwithin, _, hnew, hchanged⟩ | ⟨p, -, -, herror⟩
  · obtain rfl := Except.ok.inj (h.symm.trans hnew)
    rcases write_cases change' hrow with ⟨-, new', hnew', hchanged'⟩ | ⟨p, hp, houtside, -⟩
    · rw [hnew', ((hchanged hdistinct).perm hperm).unique (hchanged' hdistinct')]
    · exact absurd (hwithin p (hperm.mem_iff.2 hp)) (Nat.not_lt.2 houtside)
  · rw [h] at herror
    cases herror

/-! ### Ascending entries -/

namespace Entries

theorem at?_eq_none_iff : es.at? id = none ↔ id ∉ es.map Prod.fst := by
  constructor
  · intro h hmem
    obtain ⟨row, hrow⟩ := exists_at? hmem
    rw [h] at hrow
    cases hrow
  · intro h
    cases hat : es.at? id with
    | none => rfl
    | some row => exact absurd (List.mem_map_of_mem (mem_of_at? hat)) h

theorem at?_eq_some_iff (h : es.Ascending) : es.at? id = some row ↔ (id, row) ∈ es := by
  refine ⟨mem_of_at?, fun hmem => ?_⟩
  induction es with
  | nil => cases hmem
  | cons e es ih =>
    obtain ⟨he, hes⟩ := List.pairwise_cons.1 h
    rw [at?_cons]
    rcases List.mem_cons.1 hmem with rfl | hmem
    · rw [if_pos rfl]
    · rw [if_neg (Int.ne_of_lt (he _ hmem)), ih hes hmem]

theorem at?_erase (es : Entries) (id i : RowId) :
    at? (es.filter fun e => e.1 != id) i = if id = i then none else es.at? i := by
  induction es with
  | nil => split <;> rfl
  | cons e es ih =>
    by_cases he : e.1 = id
    · rw [List.filter_cons_of_neg (by simpa using he), ih, at?_cons, he]
      split <;> rfl
    · rw [List.filter_cons_of_pos (by simpa using he), at?_cons, at?_cons, ih]
      by_cases hi : e.1 = i
      · rw [if_pos hi, if_pos hi, if_neg (hi ▸ Ne.symm he)]
      · rw [if_neg hi, if_neg hi]

/-- What comes after an id in ascending entries is the first of the greater ones. -/
theorem after?_append {before after : Entries} (hbefore : ∀ e ∈ before, e.1 ≤ id)
    (hafter : ∀ e ∈ after, id < e.1) : (before ++ after).after? id = after.head? := by
  have hnone : before.find? (fun e => id < e.1) = none :=
    List.find?_eq_none.2 fun e he => by simpa using hbefore e he
  rw [after?, List.find?_append, hnone, Option.none_or]
  cases after with
  | nil => rfl
  | cons e after => exact List.find?_cons_of_pos (by simpa using hafter e List.mem_cons_self)

/-- Ascending entries are those up to an id and those after it. -/
theorem Ascending.split (h : es.Ascending) (id : RowId) :
    ∃ before after, es = before ++ after ∧ (∀ e ∈ before, e.1 ≤ id) ∧ ∀ e ∈ after, id < e.1 := by
  induction es with
  | nil => exact ⟨[], [], rfl, nofun, nofun⟩
  | cons e es ih =>
    obtain ⟨he, hes⟩ := List.pairwise_cons.1 h
    by_cases hid : e.1 ≤ id
    · obtain ⟨before, after, rfl, hbefore, hafter⟩ := ih hes
      exact ⟨e :: before, after, rfl, List.forall_mem_cons.2 ⟨hid, hbefore⟩, hafter⟩
    · have hlt := Int.not_le.1 hid
      exact ⟨[], e :: es, rfl, nofun,
        List.forall_mem_cons.2 ⟨hlt, fun x hx => Int.lt_trans hlt (he x hx)⟩⟩

theorem idsAfter_append {after : Entries} : ∀ (before : Entries) {id : RowId},
    (before ++ after).Ascending → (∀ e ∈ before, e.1 ≤ id) → (∀ e ∈ after, id < e.1) →
    (before ++ after).idsAfter id = after.map Prod.fst := by
  induction after with
  | nil =>
    intro before id _ hbefore hafter
    exact idsAfter_of_none (after?_append hbefore hafter)
  | cons e after ih =>
    intro before id hes hbefore hafter
    obtain ⟨-, hsorted, hcross⟩ := List.pairwise_append.1 hes
    rw [idsAfter_of_some (after?_append hbefore hafter), List.map_cons, List.append_cons]
    refine congrArg (e.1 :: ·) (ih (before ++ [e]) ?_ ?_ (List.pairwise_cons.1 hsorted).1)
    · rwa [← List.append_cons]
    · intro x hx
      rcases List.mem_append.1 hx with hx | hx
      · exact Int.le_of_lt (hcross x hx e List.mem_cons_self)
      · exact Int.le_of_eq (congrArg Prod.fst (List.mem_singleton.1 hx))

end Entries

/-! ### Maps of rows -/

namespace MemoryTable

/-- A call on a table. -/
inductive Call
  | insert (change : Change)
  | update (id : RowId) (change : Change)
  | delete (id : RowId)
  | seek (id : RowId)
  | seekNext (id : RowId)

/-- What a call gives. -/
inductive Answer
  | id (id : RowId)
  | done
  | row (row : Option Row)
  | next (entry : Option (RowId × Row))

namespace Call

/-- No column is given twice. -/
def Distinct : Call → Prop
  | insert change | update _ change => change.Distinct
  | _                               => True

/-- The ids that a call hands out. -/
def handsOut : Call → Except Error Answer → List RowId
  | insert _, .ok (.id id) => [id]
  | _,        _            => []

/-- The calls differ in the order of the new values only. -/
inductive Reorders : Call → Call → Prop
  | insert {change change' : Change} (h : change.Perm change') :
      Reorders (insert change) (insert change')
  | update (id : RowId) {change change' : Change} (h : change.Perm change') :
      Reorders (update id change) (update id change')

end Call

/-- What a call gives, with the table after it. -/
def result (t : MemoryTable) : Call → Except Error (Answer × MemoryTable)
  | .insert change    => (t.insert change).map fun r => (.id r.1, r.2)
  | .update id change => (t.update id change).map fun t' => (.done, t')
  | .delete id        => (t.delete id).map fun r => (.id r.1, r.2)
  | .seek id          => .ok (.row ((Provider.memory t).seek id), t)
  | .seekNext id      => .ok (.next ((Provider.memory t).seekNext id), t)

/-- Makes a call; one that fails leaves the table. -/
def perform (t : MemoryTable) (call : Call) : Except Error Answer × MemoryTable :=
  match t.result call with
  | .ok (answer, t') => (.ok answer, t')
  | .error e         => (.error e, t)

end MemoryTable

/-- A map from ids to rows, with the ids that were handed out. -/
structure RowMap where
  row? : RowId → Option Row
  given : List RowId

namespace RowMap

variable {m : RowMap}

/-- The row under an id. -/
def put (m : RowMap) (id : RowId) (row : Row) : RowMap :=
  { m with row? := Function.update m.row? id (some row) }

/-- No row under an id. -/
def erase (m : RowMap) (id : RowId) : RowMap :=
  { m with row? := Function.update m.row? id none }

/-- An id is handed out. -/
def give (m : RowMap) (id : RowId) : RowMap :=
  { m with given := m.given ++ [id] }

/-- The row with the least id after an id, if there is one. -/
inductive Next (m : RowMap) (id : RowId) : Option (RowId × Row) → Prop
  | row {i : RowId} {row : Row} (hrow : m.row? i = some row) (hlt : id < i)
      (hleast : ∀ j, id < j → j < i → m.row? j = none) : Next m id (some (i, row))
  | none (h : ∀ j, id < j → m.row? j = none) : Next m id none

/-- The greatest id before an id, or the id before every row. -/
inductive Before (m : RowMap) (id : RowId) : RowId → Prop
  | row {i : RowId} {row : Row} (hrow : m.row? i = some row) (hlt : i < id)
      (hgreatest : ∀ j, i < j → j < id → m.row? j = none) : Before m id i
  | none (h : ∀ j, j < id → m.row? j = none) : Before m id beforeFirst

/-- What a call on a map of rows that are `w` wide gives, and the map after it. -/
inductive Takes (w : Nat) (m : RowMap) :
    MemoryTable.Call → Except Error MemoryTable.Answer → RowMap → Prop
  | insert {change : Change} {id : RowId} {row : Row} (hwithin : change.Within w)
      (hnew : ∀ i ∈ m.given, i < id) (hrow : (Row.blank w).Changed change row) :
      Takes w m (.insert change) (.ok (.id id)) ((m.put id row).give id)
  | insertOutside {change : Change} {p : Nat × Value} (hp : p ∈ change) (h : w ≤ p.1) :
      Takes w m (.insert change) (.error (.invalidArgument (.columnOutside p.1 w))) m
  | update {change : Change} {id : RowId} {old new : Row} (hold : m.row? id = some old)
      (hwithin : change.Within w) (hnew : old.Changed change new) :
      Takes w m (.update id change) (.ok .done) (m.put id new)
  | updateOutside {change : Change} {id : RowId} {old : Row} {p : Nat × Value}
      (hold : m.row? id = some old) (hp : p ∈ change) (h : w ≤ p.1) :
      Takes w m (.update id change) (.error (.invalidArgument (.columnOutside p.1 w))) m
  | updateMissing {change : Change} {id : RowId} (h : m.row? id = none) :
      Takes w m (.update id change) (.error (.invalidArgument (.noRow id))) m
  | delete {id before : RowId} {old : Row} (hold : m.row? id = some old)
      (hbefore : m.Before id before) : Takes w m (.delete id) (.ok (.id before)) (m.erase id)
  | deleteMissing {id : RowId} (h : m.row? id = none) :
      Takes w m (.delete id) (.error (.invalidArgument (.noRow id))) m
  | seek (id : RowId) : Takes w m (.seek id) (.ok (.row (m.row? id))) m
  | seekNext {id : RowId} {entry : Option (RowId × Row)} (h : m.Next id entry) :
      Takes w m (.seekNext id) (.ok (.next entry)) m

end RowMap

/-! ### Tables -/

namespace MemoryTable

/-- The rows of a table, with the ids that were handed out. -/
def rowMap (t : MemoryTable) (given : List RowId) : RowMap :=
  ⟨t.rows.at?, given⟩

/-- The invariant of a table whose rows are `w` wide: they stand in the order of their ids, which
were all handed out, and every id that was handed out is below the next. -/
structure Tidy (t : MemoryTable) (w : Nat) (given : List RowId) : Prop where
  width : t.width = w
  ascending : t.rows.Ascending
  wide : ∀ e ∈ t.rows, e.2.length = w
  ids : ∀ e ∈ t.rows, e.1 ∈ given
  given : ∀ i ∈ given, 0 ≤ i ∧ i < t.nextId
  nextId : 0 ≤ t.nextId

namespace Tidy

variable (h : t.Tidy w given)
include h

theorem rowMap_next (id : RowId) : (t.rowMap given).Next id (t.rows.after? id) := by
  obtain ⟨before, after, hrows, hbefore, hafter⟩ := h.ascending.split id
  rw [hrows, Entries.after?_append hbefore hafter]
  have hnone (j : RowId) (hj : id < j) (hj' : j ∉ after.map Prod.fst) :
      (t.rowMap given).row? j = none := by
    refine Entries.at?_eq_none_iff.2 fun hmem => ?_
    rw [hrows, List.map_append] at hmem
    obtain ⟨e, he, rfl⟩ := List.mem_map.1 ((List.mem_append.1 hmem).resolve_right hj')
    exact absurd hj (Int.not_lt.2 (hbefore e he))
  cases after with
  | nil => exact .none fun j hj => hnone j hj (List.not_mem_nil)
  | cons e after =>
    have hsorted := h.ascending
    rw [hrows] at hsorted
    have hfirst := (List.pairwise_cons.1 (List.pairwise_append.1 hsorted).2.1).1
    refine .row ((Entries.at?_eq_some_iff h.ascending).2 ?_) (hafter e List.mem_cons_self) ?_
    · rw [hrows]
      exact List.mem_append_right _ List.mem_cons_self
    · intro j hj hlt
      refine hnone j hj fun hmem => ?_
      obtain ⟨x, hx, rfl⟩ := List.mem_map.1 hmem
      rcases List.mem_cons.1 hx with rfl | hx
      · exact Int.lt_irrefl _ hlt
      · exact Int.lt_asymm hlt (hfirst x hx)

/-- Whether the row of the id itself is left plays no part. -/
theorem rowMap_before (id : RowId) :
    (t.rowMap given).Before id (Entries.idBefore (t.rows.filter fun e => e.1 != id) id) := by
  have hfilter : ((t.rows.filter fun e => e.1 != id).filter fun e => e.1 < id) =
      t.rows.filter fun e => e.1 < id := by
    rw [List.filter_filter]
    refine List.filter_congr fun e _ => ?_
    by_cases hlt : e.1 < id
    · simp [hlt, Int.ne_of_lt hlt]
    · simp [hlt]
  have hsorted : (t.rows.filter fun e => e.1 < id).Pairwise fun a b => a.1 < b.1 :=
    h.ascending.sublist List.filter_sublist
  rw [Entries.idBefore, hfilter]
  have hmem {e : RowId × Row} : e ∈ t.rows.filter (fun e => e.1 < id) ↔ e ∈ t.rows ∧ e.1 < id := by
    simp
  have hnone (j : RowId) (hj : j < id) (hj' : ∀ e ∈ t.rows.filter (fun e => e.1 < id), e.1 ≠ j) :
      (t.rowMap given).row? j = none := by
    refine Entries.at?_eq_none_iff.2 fun hin => ?_
    obtain ⟨e, he, rfl⟩ := List.mem_map.1 hin
    exact hj' e (hmem.2 ⟨he, hj⟩) rfl
  rcases List.eq_nil_or_concat' (t.rows.filter fun e => e.1 < id) with hnil | ⟨smaller, last, hlast⟩
  · rw [hnil] at hnone ⊢
    exact .none fun j hj => hnone j hj nofun
  · rw [hlast] at hnone hmem hsorted ⊢
    obtain ⟨hin, hlt⟩ := hmem.1 (List.mem_append_right _ (List.mem_singleton_self last))
    simp only [List.getLast?_append, List.getLast?_singleton,
      Option.some_or, Option.map_some, Option.getD_some]
    refine .row ((Entries.at?_eq_some_iff h.ascending).2 hin) hlt fun j hgt hj => ?_
    refine hnone j hj fun e he heq => ?_
    subst heq
    rcases List.mem_append.1 he with he | he
    · have hlt := (List.pairwise_append.1 hsorted).2.2 e he last (List.mem_singleton_self _)
      exact Int.lt_asymm hgt hlt
    · rw [List.mem_singleton.1 he] at hgt
      exact Int.lt_irrefl _ hgt

/-- A row of the right width in place of another, or under the next id. -/
theorem put (hgiven : id ∈ given) (hrow : row.length = w) :
    Tidy { t with rows := t.rows.put id row } w given where
  width := h.width
  ascending := h.ascending.put
  wide e he := by
    rcases Entries.mem_of_mem_put he with rfl | he
    · exact hrow
    · exact h.wide e he
  ids e he := by
    rcases Entries.mem_of_mem_put he with rfl | he
    · exact hgiven
    · exact h.ids e he
  given := h.given
  nextId := h.nextId

/-- The next id is handed out. -/
theorem give : Tidy { t with nextId := t.nextId + 1 } w (given ++ [t.nextId]) where
  width := h.width
  ascending := h.ascending
  wide := h.wide
  ids e he := List.mem_append_left _ (h.ids e he)
  given i hi := by
    rcases List.mem_append.1 hi with hi | hi
    · exact ⟨(h.given i hi).1, Int.lt_trans (h.given i hi).2 (Int.lt_succ _)⟩
    · obtain rfl := List.mem_singleton.1 hi
      exact ⟨h.nextId, Int.lt_succ _⟩
  nextId := Int.le_add_one h.nextId

theorem erase (id : RowId) : Tidy { t with rows := t.rows.filter fun e => e.1 != id } w given where
  width := h.width
  ascending := h.ascending.sublist List.filter_sublist
  wide e he := h.wide e (List.mem_filter.1 he).1
  ids e he := h.ids e (List.mem_filter.1 he).1
  given := h.given
  nextId := h.nextId

end Tidy

theorem rowMap_put (t : MemoryTable) (given : List RowId) (id : RowId) (row : Row) :
    rowMap { t with rows := t.rows.put id row } given = (t.rowMap given).put id row := by
  have hrow : (t.rows.put id row).at? = Function.update t.rows.at? id (some row) := by
    funext i
    rw [Entries.at?_put, Function.update_apply]
    exact if_congr eq_comm rfl rfl
  simp only [rowMap, RowMap.put, hrow]

theorem rowMap_erase (t : MemoryTable) (given : List RowId) (id : RowId) :
    rowMap { t with rows := t.rows.filter fun e => e.1 != id } given =
      (t.rowMap given).erase id := by
  have hrow : (Entries.at? (t.rows.filter fun e => e.1 != id)) =
      Function.update t.rows.at? id none := by
    funext i
    rw [Entries.at?_erase, Function.update_apply]
    exact if_congr eq_comm rfl rfl
  simp only [rowMap, RowMap.erase, hrow]

/-! ### Calls -/

/-- The call keeps the invariant, and does to the table what it does to the map. -/
structure Refined (t : MemoryTable) (w : Nat) (given : List RowId) (call : Call) : Prop where
  tidy : (t.perform call).2.Tidy w (given ++ call.handsOut (t.perform call).1)
  takes : RowMap.Takes w (t.rowMap given) call (t.perform call).1
    ((t.perform call).2.rowMap (given ++ call.handsOut (t.perform call).1))

theorem Refined.of_ok {t' : MemoryTable} {call : Call} {answer : Answer}
    (hresult : t.result call = .ok (answer, t'))
    (htidy : t'.Tidy w (given ++ call.handsOut (.ok answer)))
    (htakes : RowMap.Takes w (t.rowMap given) call (.ok answer)
      (t'.rowMap (given ++ call.handsOut (.ok answer)))) : t.Refined w given call := by
  have hperform : t.perform call = (.ok answer, t') := by rw [perform, hresult]
  constructor <;> rw [hperform] <;> assumption

/-- Most calls hand out no id. -/
theorem Refined.of_kept {t' : MemoryTable} {call : Call} {answer : Answer}
    (hnone : call.handsOut (.ok answer) = []) (hresult : t.result call = .ok (answer, t'))
    (htidy : t'.Tidy w given)
    (htakes : RowMap.Takes w (t.rowMap given) call (.ok answer) (t'.rowMap given)) :
    t.Refined w given call := by
  refine .of_ok hresult ?_ ?_ <;> rw [hnone, List.append_nil] <;> assumption

theorem Refined.of_error {call : Call} {e : Error} (h : t.Tidy w given)
    (hresult : t.result call = .error e)
    (htakes : RowMap.Takes w (t.rowMap given) call (.error e) (t.rowMap given)) :
    t.Refined w given call := by
  have hperform : t.perform call = (.error e, t) := by rw [perform, hresult]
  have hnone : call.handsOut (.error e) = [] := by cases call <;> rfl
  constructor <;> rw [hperform, hnone, List.append_nil] <;> assumption

namespace Tidy

theorem insert_refined (h : t.Tidy w given) (hchange : change.Distinct) :
    t.Refined w given (.insert change) := by
  have hblank : (Row.blank t.width).length = t.width := List.length_replicate
  rcases write_cases change hblank with ⟨hwithin, row, hrow, hchanged⟩ | ⟨p, hp, houtside, herror⟩
  · have hchanged := hchanged hchange
    have hwide : row.length = w := by rw [hchanged.length, hblank, h.width]
    refine .of_ok (by rw [result, MemoryTable.insert, hrow]; rfl)
      (h.give.put (List.mem_append_right _ (List.mem_singleton_self _)) hwide) ?_
    have htakes := RowMap.Takes.insert (m := t.rowMap given) (h.width ▸ hwithin)
      (fun i hi => (h.given i hi).2) (h.width ▸ hchanged)
    rwa [← rowMap_put] at htakes
  · refine .of_error h (by rw [result, MemoryTable.insert, herror]; rfl) ?_
    exact h.width ▸ .insertOutside hp (h.width ▸ houtside)

theorem update_refined (h : t.Tidy w given) (hchange : change.Distinct) :
    t.Refined w given (.update id change) := by
  cases hold : t.rows.at? id with
  | none =>
    exact .of_error h (by simp only [result, MemoryTable.update, hold]; rfl) (.updateMissing hold)
  | some old =>
    have hmem := Entries.mem_of_at? hold
    have hwide : old.length = t.width := (h.wide _ hmem).trans h.width.symm
    rcases write_cases change hwide with ⟨hwithin, new, hnew, hchanged⟩ | ⟨p, hp, houtside, herror⟩
    · have hchanged := hchanged hchange
      refine .of_kept rfl (by simp only [result, MemoryTable.update, hold, hnew]; rfl)
        (h.put (h.ids _ hmem) (by rw [hchanged.length, hwide, h.width])) ?_
      rw [rowMap_put]
      exact .update hold (h.width ▸ hwithin) hchanged
    · refine .of_error h (by simp only [result, MemoryTable.update, hold, herror]; rfl) ?_
      exact h.width ▸ .updateOutside hold hp (h.width ▸ houtside)

theorem delete_refined (h : t.Tidy w given) (id : RowId) : t.Refined w given (.delete id) := by
  cases hold : t.rows.at? id with
  | none =>
    exact .of_error h (by simp only [result, MemoryTable.delete, hold]; rfl) (.deleteMissing hold)
  | some old =>
    refine .of_kept rfl (by simp only [result, MemoryTable.delete, hold]; rfl) (h.erase id) ?_
    rw [rowMap_erase]
    exact .delete hold (h.rowMap_before id)

/-- **What one call does to a table is what it does to the map**, and the table keeps its
invariant. -/
theorem perform_refined (h : t.Tidy w given) {call : Call} (hcall : call.Distinct) :
    t.Refined w given call := by
  cases call with
  | insert change => exact h.insert_refined hcall
  | update id change => exact h.update_refined hcall
  | delete id => exact h.delete_refined id
  | seek id => exact .of_kept rfl rfl h (.seek id)
  | seekNext id => exact .of_kept rfl rfl h (.seekNext (h.rowMap_next id))

end Tidy

/-- A call that fails leaves the table as it is. -/
theorem perform_of_error {call : Call} {e : Error} (h : (t.perform call).1 = .error e) :
    (t.perform call).2 = t := by
  rw [perform] at h ⊢
  cases hr : t.result call with
  | ok r =>
    rw [hr] at h
    cases h
  | error e => rfl

/-- The order of the new values does not matter to a call that succeeds. -/
theorem Tidy.perform_reorders (h : t.Tidy w given) {call call' : Call} {answer : Answer}
    (hreorders : call.Reorders call') (hcall : call.Distinct)
    (hok : (t.perform call).1 = .ok answer) : t.perform call' = t.perform call := by
  have hresult : ∀ r, t.result call = .ok r → t.result call' = .ok r := by
    intro r hr
    cases hreorders with
    | @insert change change' hperm =>
      simp only [result, MemoryTable.insert, map_eq_ok_iff, bind_eq_ok_iff] at hr ⊢
      obtain ⟨a, ⟨row, hrow, ha⟩, rfl⟩ := hr
      exact ⟨a, ⟨row, write_perm List.length_replicate hcall hperm hrow, ha⟩, rfl⟩
    | @update id change change' hperm =>
      cases hold : t.rows.at? id with
      | none =>
        simp only [result, MemoryTable.update, hold] at hr
        cases hr
      | some old =>
        have hwide : old.length = t.width :=
          (h.wide _ (Entries.mem_of_at? hold)).trans h.width.symm
        simp only [result, MemoryTable.update, hold, map_eq_ok_iff, bind_eq_ok_iff] at hr ⊢
        obtain ⟨a, ⟨row, hrow, ha⟩, rfl⟩ := hr
        exact ⟨a, ⟨row, write_perm hwide hcall hperm hrow, ha⟩, rfl⟩
  rw [perform] at hok
  rw [perform, perform]
  cases hr : t.result call with
  | ok r => rw [hresult r hr]
  | error e =>
    rw [hr] at hok
    cases hok

end MemoryTable

/-! ### Visits -/

/-- The rows that a cursor comes to one after the other; at the end it stays. -/
inductive Cursor.Scans : Cursor → Entries → Prop
  | ends {c c' : Cursor} (h : c.next = (false, c')) (hstays : c'.next = (false, c')) : Scans c []
  | row {c c' : Cursor} {e : RowId × Row} {es : Entries} (h : c.next = (true, c'))
      (hrow : c'.position = some e) (hrest : Scans c' es) : Scans c (e :: es)

theorem Cursor.scans_append {after : Entries} : ∀ (before : Entries) {c : Cursor},
    c.provider.entries = before ++ after → (before ++ after).Ascending → c.exhausted = false →
    (∀ e ∈ before, e.1 ≤ c.last) → (∀ e ∈ after, c.last < e.1) → c.Scans after := by
  induction after with
  | nil =>
    intro before c hentries _ hexhausted hbefore hafter
    have hnone : c.provider.seekNext c.last = none := by
      rw [Provider.seekNext, hentries]
      exact Entries.after?_append hbefore hafter
    exact .ends (by simp only [next, hexhausted, hnone]; rfl) rfl
  | cons e after ih =>
    intro before c hentries hes hexhausted hbefore hafter
    obtain ⟨-, hsorted, hcross⟩ := List.pairwise_append.1 hes
    have hsome : c.provider.seekNext c.last = some e := by
      rw [Provider.seekNext, hentries]
      exact Entries.after?_append hbefore hafter
    -- the cursor has come one row further
    have hnext : c.next = (true, { c with last := e.1, position := some e }) := by
      simp only [next, hexhausted, hsome]
      rfl
    refine .row hnext rfl (ih (before ++ [e]) ?_ ?_ hexhausted ?_ (List.pairwise_cons.1 hsorted).1)
    · rw [← List.append_cons]
      exact hentries
    · rwa [← List.append_cons]
    · intro x hx
      rcases List.mem_append.1 hx with hx | hx
      · exact Int.le_of_lt (hcross x hx e List.mem_cons_self)
      · exact Int.le_of_eq (congrArg Prod.fst (List.mem_singleton.1 hx))

/-- A cursor comes to the rows of the map: to each of them once, in the order of their ids; and it
finds each of them by its id. -/
structure Cursor.Walks (c : Cursor) (m : RowMap) (es : Entries) : Prop where
  scans : c.reset.Scans es
  rowIds : c.provider.rowIds = es.map Prod.fst
  ascending : (es.map Prod.fst).Pairwise (· < ·)
  mem_iff : ∀ id row, (id, row) ∈ es ↔ m.row? id = some row
  seek : ∀ e ∈ es, ∃ c', c.seek (some e.1) = (true, c') ∧ c'.position = some e

namespace MemoryTable

/-- **A cursor comes to all rows**, in the order of their ids. -/
theorem Tidy.walks (h : t.Tidy w given) {c : Cursor} (hc : c.provider = .memory t) :
    c.Walks (t.rowMap given) t.rows := by
  have hstart : ∀ e ∈ t.rows, beforeFirst < e.1 := fun e he =>
    Int.lt_of_lt_of_le (by decide) (h.given _ (h.ids e he)).1
  refine ⟨?_, ?_, List.pairwise_map.2 h.ascending,
    fun id row => (Entries.at?_eq_some_iff h.ascending).symm, fun e he => ?_⟩
  · exact Cursor.scans_append [] (c := c.reset) (congrArg Provider.entries hc)
      h.ascending rfl nofun hstart
  · rw [hc]
    exact Entries.idsAfter_append [] h.ascending nofun hstart
  · have hseek : c.provider.seek e.1 = some e.2 := by
      rw [hc]
      exact (Entries.at?_eq_some_iff h.ascending).2 he
    exact ⟨_, by simp only [Cursor.seek, hseek]; rfl, rfl⟩

/-! ### Any calls -/

/-- A table after any calls, with the ids that were handed out: it was made of rows of one width, or
without rows and then bound to its columns. -/
inductive History (w : Nat) : MemoryTable → List RowId → Prop
  | ofRows {rows : List Row} (h : ∀ row ∈ rows, row.length = w) :
      History w (ofRows w rows) (ofRows w rows).ids
  | bound (name : String) {t : MemoryTable}
      (h : (Provider.memory empty).bind name w = .ok (.memory t)) : History w t []
  | call {t : MemoryTable} {given : List RowId} (h : History w t given) (call : Call)
      (hcall : call.Distinct) :
      History w (t.perform call).2 (given ++ call.handsOut (t.perform call).1)

theorem ids_ofRows (w : Nat) (rows : List Row) :
    (ofRows w rows).ids = (List.range rows.length).map Int.ofNat := by
  rw [ids, ofRows, List.map_map, List.range_eq_range', ← List.zipIdx_map_snd 0 rows, List.map_map]
  rfl

theorem tidy_ofRows {rows : List Row} (h : ∀ row ∈ rows, row.length = w) :
    (ofRows w rows).Tidy w (ofRows w rows).ids where
  width := rfl
  ascending := by
    refine List.pairwise_map.1 (?_ : (ofRows w rows).ids.Pairwise (· < ·))
    rw [ids_ofRows]
    exact List.pairwise_map.2 (List.pairwise_lt_range.imp Int.ofNat_lt.2)
  wide e he := by
    obtain ⟨p, hp, rfl⟩ := List.mem_map.1 he
    exact h p.1 (List.fst_mem_of_mem_zipIdx hp)
  ids e he := List.mem_map_of_mem he
  given i hi := by
    rw [ids_ofRows] at hi
    obtain ⟨n, hn, rfl⟩ := List.mem_map.1 hi
    exact ⟨Int.natCast_nonneg n, Int.ofNat_lt.2 (List.mem_range.1 hn)⟩
  nextId := Int.natCast_nonneg _

theorem History.tidy (h : History w t given) : t.Tidy w given := by
  induction h with
  | ofRows hrows => exact tidy_ofRows hrows
  | bound name h =>
    obtain rfl := Provider.memory.inj (Except.ok.inj h)
    exact ⟨rfl, .nil, nofun, nofun, nofun, Int.le_refl 0⟩
  | call _ call hcall ih => exact (ih.perform_refined hcall).tidy

/-- **Tables in memory are maps of rows.**  After any calls, all ids are below the next and all rows
have the width of the table; the next call does to the table what it does to the map, and leaves the
table when it fails; new values may be listed in any order; and a cursor comes to all rows. -/
theorem History.refines_rowMap (h : History w t given) :
    (∀ id row, t.rows.at? id = some row →
      id ∈ given ∧ 0 ≤ id ∧ id < t.nextId ∧ row.length = w) ∧
    (∀ call, call.Distinct → RowMap.Takes w (t.rowMap given) call (t.perform call).1
      ((t.perform call).2.rowMap (given ++ call.handsOut (t.perform call).1))) ∧
    (∀ call e, (t.perform call).1 = .error e → (t.perform call).2 = t) ∧
    (∀ call call' answer, call.Reorders call' → call.Distinct →
      (t.perform call).1 = .ok answer → t.perform call' = t.perform call) ∧
    ∀ c : Cursor, c.provider = .memory t → ∃ es, c.Walks (t.rowMap given) es := by
  have htidy := h.tidy
  refine ⟨fun id row hrow => ?_, fun call hcall => (htidy.perform_refined hcall).takes,
    fun _ _ => perform_of_error, fun _ _ _ => htidy.perform_reorders,
    fun c hc => ⟨t.rows, htidy.walks hc⟩⟩
  have hmem := Entries.mem_of_at? hrow
  have hgiven := htidy.ids _ hmem
  exact ⟨hgiven, (htidy.given _ hgiven).1, (htidy.given _ hgiven).2, htidy.wide _ hmem⟩

/-- Three rows of which the middle one was deleted, and then a row without values. -/
def gapped : MemoryTable :=
  (((ofRows 1 [[.text "a"], [.text "b"], [.text "c"]]).perform (.delete 1)).2.perform
    (.insert [])).2

theorem gapped_history : History 1 gapped [0, 1, 2, 3] :=
  .call (.call (.ofRows (by decide)) (.delete 1) trivial) (.insert []) List.nodup_nil

/-- The greatest id that is left before 2 is 0. -/
theorem gapped_delete : History 1 gapped [0, 1, 2, 3] ∧
    (gapped.perform (.delete 2)).1 = .ok (.id 0) ∧
    RowMap.Takes 1 (gapped.rowMap [0, 1, 2, 3]) (.delete 2) (.ok (.id 0))
      ((gapped.perform (.delete 2)).2.rowMap [0, 1, 2, 3]) :=
  ⟨gapped_history, rfl, gapped_history.refines_rowMap.2.1 (.delete 2) trivial⟩

end MemoryTable

end SqlEngine
