import SqlEngine.Proofs.Lists
import SqlEngine.Proofs.Value
import SqlEngine.Storage.Provider

/-!
# Storage — tables in memory

The invariant of a table whose columns have given types (`MemoryTable.Sound`): rows stand in the
order of their ids, ids are those that were given out, and each row has one value of the right type
for each column.  On such a table a change that fits the columns cannot fail, and it keeps the
invariant.

* `MemoryTable.Sound.insert`, `MemoryTable.Sound.update`, `MemoryTable.Sound.delete`: the three
  changes.
* `Entries.pairwise_idsAfter`: a visit comes to every row once, in the order of the ids.
* `Provider.announced_memory`: every row that a visit announces can be fetched.
-/

namespace SqlEngine

open Value (HaveTypes)

variable {types : List DataType} {row : Row} {es : Entries} {id : RowId}

/-! ### Rows -/

theorem Value.HaveTypes.read (h : HaveTypes row types) {i : Nat} {t : DataType}
    (ht : types[i]? = some t) : (row.read i).HasType t := by
  obtain ⟨v, hv, htype⟩ := forall₂_getElem? h ht
  simp only [Row.read, hv, Option.getD_some]
  exact htype

theorem haveTypes_blank (types : List DataType) : HaveTypes (Row.blank types.length) types := by
  induction types with
  | nil => exact .nil
  | cons t types ih => exact .cons (Value.hasType_null t) ih

/-- Each new value has the type of its column. -/
def Change.Fits (change : Change) (types : List DataType) : Prop :=
  ∀ p ∈ change, ∃ t, types[p.1]? = some t ∧ p.2.HasType t

theorem Change.fits_nil (types : List DataType) : Change.Fits [] types :=
  List.forall_mem_nil _

/-- Values of the right types can be written. -/
theorem MemoryTable.exists_write {t : MemoryTable} (hwidth : t.width = types.length) :
    ∀ {change : Change} {row : Row}, change.Fits types → HaveTypes row types →
    ∃ row', t.write row change = .ok row' ∧ HaveTypes row' types
  | [], row, _, hrow => ⟨row, rfl, hrow⟩
  | (i, v) :: change, row, hfits, hrow => by
    obtain ⟨⟨τ, hτ, hv⟩, hrest⟩ := List.forall_mem_cons.1 hfits
    have hi : i < types.length := (List.getElem?_eq_some_iff.1 hτ).1
    have hset : HaveTypes (row.set i v) types := forall₂_set hrow fun σ hσ =>
      Option.some.inj (hτ.symm.trans hσ) ▸ hv
    obtain ⟨row', hrow', htypes⟩ := exists_write hwidth hrest hset
    refine ⟨row', ?_, htypes⟩
    have hle : ¬ t.width ≤ i := by omega
    have hput : row.put i v = .ok (row.set i v) := by
      rw [Row.put, if_pos (by rw [hrow.length_eq]; exact hi)]
    rw [MemoryTable.write, if_neg hle, hput]
    exact hrow'

/-! ### Entries -/

namespace Entries

/-- Rows stand in the order of their ids. -/
def Ascending (es : Entries) : Prop :=
  es.Pairwise fun a b => a.1 < b.1

theorem mem_of_at? (h : es.at? id = some row) : (id, row) ∈ es := by
  obtain ⟨⟨i, r⟩, hfind, rfl⟩ := Option.map_eq_some_iff.1 h
  obtain rfl : i = id := by simpa using List.find?_some hfind
  exact List.mem_of_find?_eq_some hfind

theorem exists_at? (h : id ∈ es.map Prod.fst) : ∃ row, es.at? id = some row := by
  obtain ⟨e, he, rfl⟩ := List.mem_map.1 h
  cases hfind : es.find? fun x => x.1 == e.1 with
  | none => simpa using List.find?_eq_none.1 hfind e he
  | some x => exact ⟨x.2, by simp only [at?, hfind, Option.map_some]⟩

theorem at?_cons (e : RowId × Row) (es : Entries) (id : RowId) :
    at? (e :: es) id = if e.1 = id then some e.2 else es.at? id := by
  simp only [at?, List.find?_cons]
  by_cases h : e.1 = id
  · rw [if_pos h, beq_iff_eq.2 h]
    rfl
  · rw [if_neg h, beq_eq_false_iff_ne.2 h]

theorem at?_put (id i : RowId) (row : Row) (es : Entries) :
    (es.put id row).at? i = if id = i then some row else es.at? i := by
  induction es with
  | nil => exact at?_cons (id, row) [] i
  | cons e es ih =>
    simp only [put]
    split
    · exact at?_cons (id, row) (e :: es) i
    split
    next heq =>
      -- the old row of the id is hidden by the new one
      obtain rfl := beq_iff_eq.1 heq
      simp only [at?_cons]
      split <;> rfl
    next hne =>
      rw [beq_iff_eq] at hne
      simp only [at?_cons, ih]
      split
      next he =>
        subst he
        rw [if_neg hne]
      next => rfl

theorem mem_of_mem_put {e : RowId × Row} (h : e ∈ es.put id row) : e = (id, row) ∨ e ∈ es := by
  induction es with
  | nil => exact .inl (List.mem_singleton.1 h)
  | cons x xs ih =>
    simp only [put] at h
    split at h
    · exact List.mem_cons.1 h
    split at h
    · exact (List.mem_cons.1 h).imp_right (List.mem_cons_of_mem _)
    · rcases List.mem_cons.1 h with h | h
      · exact .inr (List.mem_cons.2 (.inl h))
      · exact (ih h).imp_right (List.mem_cons_of_mem _)

theorem mem_ids_put {i : RowId} (h : i ∈ es.map Prod.fst) : i ∈ (es.put id row).map Prod.fst := by
  induction es with
  | nil => cases h
  | cons x xs ih =>
    simp only [put]
    split
    · exact List.mem_cons_of_mem _ h
    split
    next heq =>
      rw [List.map_cons] at h ⊢
      exact (beq_iff_eq.1 heq) ▸ h
    · rw [List.map_cons] at h ⊢
      rcases List.mem_cons.1 h with h | h
      · exact List.mem_cons.2 (.inl h)
      · exact List.mem_cons_of_mem _ (ih h)

theorem Ascending.put (h : es.Ascending) : (es.put id row).Ascending := by
  induction es with
  | nil => exact List.pairwise_singleton _ _
  | cons x xs ih =>
    obtain ⟨hx, hxs⟩ := List.pairwise_cons.1 h
    simp only [Entries.put]
    split
    next hlt =>
      refine List.pairwise_cons.2 ⟨fun e he => ?_, h⟩
      rcases List.mem_cons.1 he with rfl | he
      · exact hlt
      · exact Int.lt_trans hlt (hx e he)
    split
    next heq =>
      obtain rfl := beq_iff_eq.1 heq
      exact List.pairwise_cons.2 ⟨hx, hxs⟩
    next hnlt hne =>
      refine List.pairwise_cons.2 ⟨fun e he => ?_, ih hxs⟩
      rcases mem_of_mem_put he with rfl | he
      · rw [beq_iff_eq] at hne
        exact Int.lt_iff_le_and_ne.2 ⟨Int.not_lt.1 hnlt, fun heq => hne heq.symm⟩
      · exact hx e he

theorem idsAfter_of_some {e : RowId × Row} (h : es.after? id = some e) :
    es.idsAfter id = e.1 :: es.idsAfter e.1 := by
  rw [idsAfter]
  split
  next e' he =>
    obtain rfl := Option.some.inj (h.symm.trans he)
    rfl
  next he =>
    rw [h] at he
    cases he

theorem idsAfter_of_none (h : es.after? id = none) : es.idsAfter id = [] := by
  rw [idsAfter]
  split
  next e he =>
    rw [h] at he
    cases he
  next => rfl

theorem mem_of_mem_idsAfter {i : RowId} (h : i ∈ es.idsAfter id) :
    id < i ∧ i ∈ es.map Prod.fst := by
  induction id using idsAfter.induct es with
  | case1 id e he ih =>
    have hlt : id < e.1 := by simpa using List.find?_some he
    rw [idsAfter_of_some he] at h
    rcases List.mem_cons.1 h with rfl | h
    · exact ⟨hlt, List.mem_map_of_mem (List.mem_of_find?_eq_some he)⟩
    · exact ⟨Int.lt_trans hlt (ih h).1, (ih h).2⟩
  | case2 id hnone =>
    rw [idsAfter_of_none hnone] at h
    cases h

/-- A visit comes to each row once, in the order of the ids. -/
theorem pairwise_idsAfter (es : Entries) (id : RowId) : (es.idsAfter id).Pairwise (· < ·) := by
  induction id using idsAfter.induct es with
  | case1 id e he ih =>
    rw [idsAfter_of_some he]
    exact List.pairwise_cons.2 ⟨fun i hi => (mem_of_mem_idsAfter hi).1, ih⟩
  | case2 id hnone =>
    rw [idsAfter_of_none hnone]
    exact .nil

end Entries

/-! ### Tables -/

/-- The invariant of a table with columns of the given types. -/
structure MemoryTable.Sound (t : MemoryTable) (types : List DataType) : Prop where
  width : t.width = types.length
  nextId : beforeFirst < t.nextId
  ascending : t.rows.Ascending
  ids : ∀ e ∈ t.rows, beforeFirst < e.1 ∧ e.1 < t.nextId
  typed : ∀ e ∈ t.rows, HaveTypes e.2 types

namespace MemoryTable

variable {t : MemoryTable} {change : Change}

/-- The ids of the rows. -/
def ids (t : MemoryTable) : List RowId :=
  t.rows.map Prod.fst

theorem sound_empty (types : List DataType) :
    MemoryTable.Sound { empty with width := types.length } types where
  width := rfl
  nextId := show beforeFirst < (0 : Int) by decide
  ascending := .nil
  ids := nofun
  typed := nofun

/-- A row of the right types in place of another, or behind all. -/
theorem Sound.put (h : t.Sound types) (hid : beforeFirst < id ∧ id < t.nextId)
    (hrow : HaveTypes row types) :
    MemoryTable.Sound { t with rows := t.rows.put id row } types where
  width := h.width
  nextId := h.nextId
  ascending := h.ascending.put
  ids e he := by
    rcases Entries.mem_of_mem_put he with rfl | he
    · exact hid
    · exact h.ids e he
  typed e he := by
    rcases Entries.mem_of_mem_put he with rfl | he
    · exact hrow
    · exact h.typed e he

theorem Sound.withNextId (h : t.Sound types) :
    MemoryTable.Sound { t with nextId := t.nextId + 1 } types where
  width := h.width
  nextId := Int.lt_trans h.nextId (Int.lt_succ _)
  ascending := h.ascending
  ids e he := ⟨(h.ids e he).1, Int.lt_trans (h.ids e he).2 (Int.lt_succ _)⟩
  typed := h.typed

/-- A row whose values fit can be added. -/
theorem Sound.insert (h : t.Sound types) (hchange : change.Fits types) :
    ∃ t', t.insert change = .ok (t.nextId, t') ∧ t'.Sound types := by
  have hblank : HaveTypes (Row.blank t.width) types := h.width ▸ haveTypes_blank types
  obtain ⟨row, hrow, htypes⟩ := exists_write h.width hchange hblank
  refine ⟨_, by rw [MemoryTable.insert, hrow]; rfl, ?_⟩
  exact h.withNextId.put ⟨h.nextId, Int.lt_succ _⟩ htypes

/-- A row that is there can be given values that fit; all rows keep their ids. -/
theorem Sound.update (h : t.Sound types) (hid : id ∈ t.ids) (hchange : change.Fits types) :
    ∃ t', t.update id change = .ok t' ∧ t'.Sound types ∧ ∀ i ∈ t.ids, i ∈ t'.ids := by
  obtain ⟨old, hold⟩ := Entries.exists_at? hid
  have hmem := Entries.mem_of_at? hold
  obtain ⟨row, hrow, htypes⟩ := exists_write h.width hchange (h.typed _ hmem)
  refine ⟨{ t with rows := t.rows.put id row }, ?_, h.put (h.ids _ hmem) htypes,
    fun i hi => Entries.mem_ids_put hi⟩
  simp only [MemoryTable.update, hold, hrow, ok_bind]

/-- A row that is there can be removed; all others stay. -/
theorem Sound.delete (h : t.Sound types) (hid : id ∈ t.ids) :
    ∃ before t', t.delete id = .ok (before, t') ∧ t'.Sound types ∧
      ∀ i ∈ t.ids, i ≠ id → i ∈ t'.ids := by
  obtain ⟨old, hold⟩ := Entries.exists_at? hid
  refine ⟨_, { t with rows := t.rows.filter fun e => e.1 != id },
    by simp only [MemoryTable.delete, hold]; rfl, ⟨h.width, h.nextId, ?_, ?_, ?_⟩, ?_⟩
  · exact h.ascending.sublist List.filter_sublist
  · exact fun e he => h.ids e (List.mem_filter.1 he).1
  · exact fun e he => h.typed e (List.mem_filter.1 he).1
  · intro i hi hne
    obtain ⟨e, he, rfl⟩ := List.mem_map.1 hi
    exact List.mem_map_of_mem (List.mem_filter.2 ⟨he, by simpa using hne⟩)

end MemoryTable

/-! ### Providers -/

/-- All rows that a visit announces can be fetched, and all that can be fetched have the types. -/
structure Provider.Holds (p : Provider) (types : List DataType) : Prop where
  announced : ∀ id ∈ p.rowIds, ∃ row, p.seek id = some row
  typed : ∀ id row, p.seek id = some row → HaveTypes row types

theorem Provider.announced_memory (t : MemoryTable) :
    ∀ id ∈ (Provider.memory t).rowIds, ∃ row, (Provider.memory t).seek id = some row :=
  fun _ hid => Entries.exists_at? (Entries.mem_of_mem_idsAfter hid).2

theorem Provider.holds_memory {t : MemoryTable} (h : ∀ e ∈ t.rows, HaveTypes e.2 types) :
    (Provider.memory t).Holds types where
  announced := announced_memory t
  typed id row hrow := h (id, row) (Entries.mem_of_at? hrow)

end SqlEngine
