import SqlEngine.Proofs.Database.State

/-!
# Databases — what many changes do to the rows

UPDATE and DELETE change one row after the other, each row once.  What comes out is said here for
the rows as a whole.

* `MemoryTable.changeAll_delete`: the rows that are deleted are gone, and all others are left.
* `MemoryTable.Sound.changeAll_update`: the rows that are updated are written, and all others are as
  they were; no row comes or goes.
-/

namespace SqlEngine

variable {types : List DataType} {id : RowId} {row : Row} {es : Entries}

/-! ### Entries -/

namespace Entries

/-- A row that is put in the place of another keeps all ids. -/
theorem Ascending.ids_put (h : es.Ascending) (hid : id ∈ es.map Prod.fst) :
    (es.put id row).map Prod.fst = es.map Prod.fst := by
  induction es with
  | nil => cases hid
  | cons e es ih =>
    obtain ⟨he, hes⟩ := List.pairwise_cons.1 h
    have hle : e.1 ≤ id := by
      rcases List.mem_cons.1 hid with rfl | hid
      · exact Int.le_refl _
      · obtain ⟨x, hx, rfl⟩ := List.mem_map.1 hid
        exact Int.le_of_lt (he x hx)
    simp only [Entries.put, if_neg (Int.not_lt.2 hle)]
    split
    next heq => rw [List.map_cons, List.map_cons, beq_iff_eq.1 heq]
    next hne =>
      rw [beq_iff_eq] at hne
      rw [List.map_cons, List.map_cons, ih hes ((List.mem_cons.1 hid).resolve_left hne)]

/-- Ids in the order of the rows are the ids of the rows that have them. -/
theorem Ascending.ids_filter (h : es.Ascending) {ids : List RowId} (hids : ids.Pairwise (· < ·))
    (hmem : ∀ id ∈ ids, id ∈ es.map Prod.fst) :
    (es.filter fun e => e.1 ∈ ids).map Prod.fst = ids := by
  have hrows : ((es.filter fun e => e.1 ∈ ids).map Prod.fst).Pairwise (· < ·) :=
    List.pairwise_map.2 (h.sublist List.filter_sublist)
  refine hrows.eq_of_mem_iff hids fun id => ?_
  constructor
  · intro hid
    obtain ⟨e, he, rfl⟩ := List.mem_map.1 hid
    simpa using (List.mem_filter.1 he).2
  · intro hid
    obtain ⟨e, he, rfl⟩ := List.mem_map.1 (hmem id hid)
    exact List.mem_map_of_mem (List.mem_filter.2 ⟨he, by simpa using hid⟩)

end Entries

/-! ### Tables -/

namespace MemoryTable

variable {m : MemoryTable} {change : Change} {changes : List (RowId × Change)}

theorem write_rows (m : MemoryTable) (rows : Entries) : ∀ (row : Row) (change : Change),
    write { m with rows } row change = m.write row change
  | _, [] => rfl
  | row, (column, v) :: change => by
    simp only [write]
    split
    · rfl
    · exact bind_congr_ok fun row' _ => write_rows m rows row' change

/-- The rows after changes: the changed ones are written, and the others are as they were. -/
structure Written (m : MemoryTable) (changes : List (RowId × Change)) (rows : Entries) : Prop where
  ids : rows.map Prod.fst = m.ids
  others : ∀ id, id ∉ changes.map Prod.fst → rows.at? id = m.rows.at? id
  changed : ∀ r ∈ changes, ∃ old new, m.rows.at? r.1 = some old ∧ m.write old r.2 = .ok new ∧
    rows.at? r.1 = some new

theorem Sound.changeAll_update (h : m.Sound types) (hids : (changes.map Prod.fst).Nodup)
    (hchanges : ∀ r ∈ changes, r.1 ∈ m.ids ∧ r.2.Fits types) :
    ∃ rows, (Provider.memory m).changeAll (fun p r => p.update r.1 r.2) changes =
      (.ok (), .memory { m with rows }) ∧ m.Written changes rows := by
  induction changes generalizing m with
  | nil => exact ⟨m.rows, rfl, rfl, fun _ _ => rfl, nofun⟩
  | cons r changes ih =>
    obtain ⟨hr, hids⟩ := List.nodup_cons.1 hids
    obtain ⟨⟨hid, hfits⟩, hchanges⟩ := List.forall_mem_cons.1 hchanges
    obtain ⟨old, hold⟩ := Entries.exists_at? hid
    have hmem := Entries.mem_of_at? hold
    obtain ⟨new, hnew, htypes⟩ := exists_write h.width hfits (h.typed _ hmem)
    have hkeeps : (m.rows.put r.1 new).map Prod.fst = m.ids := h.ascending.ids_put hid
    obtain ⟨rows, hrows, hwritten⟩ := ih (h.put (h.ids _ hmem) htypes) hids fun s hs => by
      rw [MemoryTable.ids, hkeeps]
      exact hchanges s hs
    refine ⟨rows, ?_, hwritten.ids.trans hkeeps, fun i hi => ?_, ?_⟩
    · simp only [Provider.changeAll, Provider.update, MemoryTable.update, hold, hnew, ok_bind]
      exact hrows
    · obtain ⟨hne, hi⟩ := not_or.1 (List.mem_cons.not.1 hi)
      rw [hwritten.others i hi, Entries.at?_put, if_neg (Ne.symm hne)]
    · refine List.forall_mem_cons.2 ⟨⟨old, new, hold, hnew, ?_⟩, fun s hs => ?_⟩
      · rw [hwritten.others r.1 hr, Entries.at?_put, if_pos rfl]
      · obtain ⟨old', new', hold', hnew', hs'⟩ := hwritten.changed s hs
        have hne : r.1 ≠ s.1 := fun heq => hr (heq ▸ List.mem_map_of_mem hs)
        rw [Entries.at?_put, if_neg hne] at hold'
        rw [write_rows] at hnew'
        exact ⟨old', new', hold', hnew', hs'⟩

theorem changeAll_delete {ids : List RowId} (hids : ids.Nodup) (hmem : ∀ id ∈ ids, id ∈ m.ids) :
    (Provider.memory m).changeAll (fun p row => (p.delete row).map Prod.snd) ids =
      (.ok (), .memory { m with rows := m.rows.filter fun e => e.1 ∉ ids }) := by
  induction ids generalizing m with
  | nil => simp [Provider.changeAll]
  | cons id ids ih =>
    obtain ⟨hid, hids⟩ := List.nodup_cons.1 hids
    obtain ⟨hhere, hmem⟩ := List.forall_mem_cons.1 hmem
    obtain ⟨old, hold⟩ := Entries.exists_at? hhere
    have hleft : ∀ i ∈ ids, i ∈ (m.rows.filter fun e => e.1 != id).map Prod.fst := by
      intro i hi
      obtain ⟨e, he, rfl⟩ := List.mem_map.1 (hmem i hi)
      have hne : e.1 ≠ id := fun heq => hid (heq ▸ hi)
      exact List.mem_map_of_mem (List.mem_filter.2 ⟨he, by simpa using hne⟩)
    have hrest := ih (m := { m with rows := m.rows.filter fun e => e.1 != id }) hids hleft
    have hdelete : ((Provider.memory m).delete id).map Prod.snd =
        .ok (.memory { m with rows := m.rows.filter fun e => e.1 != id }) := by
      simp only [Provider.delete, MemoryTable.delete, hold]
      rfl
    have hrows : (m.rows.filter fun e => e.1 != id).filter (fun e => e.1 ∉ ids) =
        m.rows.filter fun e => e.1 ∉ id :: ids := by
      rw [List.filter_filter]
      refine List.filter_congr fun e _ => ?_
      rw [Bool.eq_iff_iff]
      simp [and_comm]
    simp only [Provider.changeAll, hdelete, hrest, hrows]

end MemoryTable

end SqlEngine
