import SqlEngine.Proofs.Resolution.Typing

/-!
# Resolution — how the statements that change rows are resolved

One inversion lemma for each statement with a table: the table that its name finds, and the steps
that gave its expressions.
-/

namespace SqlEngine

variable {c : Catalog} {t : Table} {id : Nat}

theorem Catalog.expectNamed_eq_ok {name : String} {offset : Nat}
    (h : c.expectNamed name offset = .ok (id, t)) : c.findTable? name = some (id, t) := by
  simp only [expectNamed] at h
  split at h
  next found hfound =>
    obtain rfl := Except.ok.inj h
    exact hfound
  next => cases h

theorem Table.expectColumn_eq_ok {column : String} {offset i : Nat}
    (h : t.expectColumn column offset = .ok i) : ∃ column, t.columns[i]? = some column := by
  simp only [expectColumn] at h
  split at h
  next i' hi =>
    obtain rfl := Except.ok.inj h
    obtain ⟨hlt, -⟩ := List.findIdx?_eq_some_iff_getElem.1 hi
    exact ⟨_, List.getElem?_eq_getElem hlt⟩
  next => cases h

theorem Insert.exists_of_mem_positionsOf {offset : Nat} : ∀ {names : List String}
    {seen positions : List Nat}, (∀ i ∈ seen, ∃ column, t.columns[i]? = some column) →
    Insert.positionsOf t offset seen names = .ok positions →
    ∀ i ∈ positions, ∃ column, t.columns[i]? = some column
  | [], seen, positions, hseen, h => by
    obtain rfl := Except.ok.inj h
    exact hseen
  | name :: names, seen, positions, hseen, h => by
    simp only [Insert.positionsOf, bind_eq_ok_iff] at h
    obtain ⟨i, hi, h⟩ := h
    split at h
    · cases h
    · refine exists_of_mem_positionsOf (fun j hj => ?_) h
      rcases List.mem_append.1 hj with hj | hj
      · exact hseen j hj
      · exact List.mem_singleton.1 hj ▸ Table.expectColumn_eq_ok hi

/-- Each row has a value for every position. -/
theorem Insert.mapM_resolveRow {s : Insert} {positions : List Nat} {rows : List (List Expr)}
    (h : (s.rows.mapM fun row => do
      Insert.requireWidth { s with id := some id, positions } row
      Insert.resolveRow c t positions row) = .ok rows) :
    List.Forall₂ (fun row row' => row.length = positions.length ∧
      Insert.resolveRow c t positions row = .ok row') s.rows rows := by
  refine (mapM_eq_ok_iff.1 h).imp fun row row' hrow => ?_
  simp only [bind_eq_ok_iff] at hrow
  obtain ⟨_, hwidth, hrow⟩ := hrow
  simp only [Insert.requireWidth] at hwidth
  split at hwidth
  next hlen => exact ⟨beq_iff_eq.1 hlen, hrow⟩
  next => cases hwidth

theorem Insert.resolve_eq_ok {s s' : Insert} (h : s.resolve c = .ok s') :
    ∃ id t, c.findTable? s.table = some (id, t) ∧ s'.id = some id ∧
      (∀ i ∈ s'.positions, ∃ column, t.columns[i]? = some column) ∧
      List.Forall₂ (fun row row' => row.length = s'.positions.length ∧
        Insert.resolveRow c t s'.positions row = .ok row') s.rows s'.rows := by
  simp only [Insert.resolve, bind_eq_ok_iff] at h
  obtain ⟨⟨id, t⟩, hnamed, h⟩ := h
  have ht := Catalog.expectNamed_eq_ok hnamed
  -- without a list of columns the values are for all of them
  split at h
  · simp only [ok_bind, bind_eq_ok_iff] at h
    obtain ⟨rows, hrows, h⟩ := h
    obtain rfl := Except.ok.inj h
    exact ⟨id, t, ht, rfl, fun i hi => ⟨_, List.getElem?_eq_getElem (List.mem_range.1 hi)⟩,
      Insert.mapM_resolveRow hrows⟩
  · simp only [bind_eq_ok_iff] at h
    obtain ⟨positions, hpositions, rows, hrows, h⟩ := h
    obtain rfl := Except.ok.inj h
    exact ⟨id, t, ht, rfl, Insert.exists_of_mem_positionsOf
      (fun _ hi => absurd hi List.not_mem_nil) hpositions, Insert.mapM_resolveRow hrows⟩

theorem Assignment.resolve_eq_ok {a a' : Assignment} (h : a.resolve c t = .ok a') :
    (∃ column, t.columns[a'.position]? = some column) ∧
      a.value.resolve c [t.scope] false = .ok a'.value ∧
      a'.value.requireType (t.typeAt a'.position) = .ok () := by
  simp only [Assignment.resolve, bind_eq_ok_iff] at h
  obtain ⟨position, hposition, value, hvalue, ⟨⟩, htype, h⟩ := h
  obtain rfl := Except.ok.inj h
  exact ⟨Table.expectColumn_eq_ok hposition, hvalue, htype⟩

theorem Update.resolve_eq_ok {s s' : Update} (h : s.resolve c = .ok s') :
    ∃ id t, c.findTable? s.table = some (id, t) ∧ s'.id = some id ∧
      List.Forall₂ (fun a a' => Assignment.resolve c t a = .ok a') s.assignments s'.assignments ∧
      Expr.resolveFilter c [t.scope] s.filter = .ok s'.filter := by
  simp only [Update.resolve, bind_eq_ok_iff] at h
  obtain ⟨⟨id, t⟩, hnamed, assignments, hassignments, filter, hfilter, h⟩ := h
  obtain rfl := Except.ok.inj h
  exact ⟨id, t, Catalog.expectNamed_eq_ok hnamed, rfl, mapM_eq_ok_iff.1 hassignments, hfilter⟩

theorem Delete.resolve_eq_ok {s s' : Delete} (h : s.resolve c = .ok s') :
    ∃ id t, c.findTable? s.table = some (id, t) ∧ s'.id = some id ∧
      Expr.resolveFilter c [t.scope] s.filter = .ok s'.filter := by
  simp only [Delete.resolve, bind_eq_ok_iff] at h
  obtain ⟨⟨id, t⟩, hnamed, filter, hfilter, h⟩ := h
  obtain rfl := Except.ok.inj h
  exact ⟨id, t, Catalog.expectNamed_eq_ok hnamed, rfl, hfilter⟩

end SqlEngine
