import SqlEngine.Row

/-!
# Storage — providers

Where the rows of a table are kept.  Every row has an id; rows are visited in the order of their
ids.  A memory table can be changed; a snapshot cannot, and may have lost rows that a visit still
announces.  `rowIds` visits a provider from before its first row.
-/

namespace SqlEngine

abbrev RowId := Int

/-- The id before every row. -/
def beforeFirst : RowId := -1

/-- New values for some columns of a row, by position. -/
abbrev Change := List (Nat × Value)

/-- Rows with their ids, in ascending order of the ids. -/
abbrev Entries := List (RowId × Row)

namespace Entries

/-- The row with an id. -/
def at? (es : Entries) (id : RowId) : Option Row :=
  (es.find? fun e => e.1 == id).map Prod.snd

/-- The first row with a greater id. -/
def after? (es : Entries) (id : RowId) : Option (RowId × Row) :=
  es.find? fun e => id < e.1

/-- The greatest id below an id, or the id before every row. -/
def idBefore (es : Entries) (id : RowId) : RowId :=
  ((es.filter fun e => e.1 < id).getLast?.map Prod.fst).getD beforeFirst

/-- Puts a row under an id, in place of the one that was there. -/
def put (id : RowId) (row : Row) : Entries → Entries
  | []      => [(id, row)]
  | e :: es =>
    if id < e.1 then (id, row) :: e :: es
    else if id == e.1 then (id, row) :: es
    else e :: put id row es

theorem count_after_le {i j : RowId} (h : i ≤ j) (es : Entries) :
    (es.filter fun x => j < x.1).length ≤ (es.filter fun x => i < x.1).length := by
  induction es with
  | nil => simp
  | cons x xs ih =>
    by_cases hj : j < x.1
    · have hi : i < x.1 := Int.lt_of_le_of_lt h hj
      simp only [List.filter_cons, hj, hi, decide_true, if_true, List.length_cons]
      omega
    · by_cases hi : i < x.1 <;>
        simp only [List.filter_cons, hj, hi, decide_true, decide_false, if_true, List.length_cons,
          Bool.false_eq_true, if_false] <;> omega

theorem count_after_lt {es : Entries} {id : RowId} {e : RowId × Row} (h : es.after? id = some e) :
    (es.filter fun x => e.1 < x.1).length < (es.filter fun x => id < x.1).length := by
  have hlt : id < e.1 := by simpa using List.find?_some h
  have hmem : e ∈ es := List.mem_of_find?_eq_some h
  clear h
  induction es with
  | nil => cases hmem
  | cons x xs ih =>
    have hle := count_after_le (Int.le_of_lt hlt) xs
    rcases List.mem_cons.1 hmem with rfl | hx
    · simp only [List.filter_cons, hlt, Int.lt_irrefl, decide_true, decide_false, if_true,
        Bool.false_eq_true, if_false, List.length_cons]
      omega
    · have := ih hx
      by_cases he : e.1 < x.1
      · have hi : id < x.1 := Int.lt_trans hlt he
        simp only [List.filter_cons, he, hi, decide_true, if_true, List.length_cons]
        omega
      · by_cases hi : id < x.1 <;>
          simp only [List.filter_cons, he, hi, decide_true, decide_false, if_true,
            List.length_cons, Bool.false_eq_true, if_false] <;> omega

/-- The ids after an id, each reached from the one before it. -/
def idsAfter (es : Entries) (id : RowId) : List RowId :=
  match _h : es.after? id with
  | some e => e.1 :: idsAfter es e.1
  | none   => []
termination_by (es.filter fun x => id < x.1).length
decreasing_by exact count_after_lt _h

end Entries

/-- Rows in memory.  Ids are given out in ascending order and never again. -/
structure MemoryTable where
  rows : Entries
  width : Nat
  nextId : RowId

namespace MemoryTable

/-- A table without rows and columns. -/
def empty : MemoryTable := ⟨[], 0, 0⟩

/-- A table of the given rows, with ids from 0. -/
def ofRows (width : Nat) (rows : List Row) : MemoryTable :=
  ⟨rows.zipIdx.map fun p => ((p.2 : RowId), p.1), width, rows.length⟩

/-- Writes new values into a row; every column has to be one of the table's. -/
def write (t : MemoryTable) (row : Row) : Change → Except Error Row
  | []                  => .ok row
  | (column, v) :: rest =>
    if t.width ≤ column then .error (.invalidArgument (.columnOutside column t.width))
    else do t.write (← row.put column v) rest

/-- Adds a row with NULL in every column that is not given. -/
def insert (t : MemoryTable) (change : Change) : Except Error (RowId × MemoryTable) := do
  let row ← t.write (Row.blank t.width) change
  .ok (t.nextId, { t with rows := t.rows.put t.nextId row, nextId := t.nextId + 1 })

/-- Changes the given columns of a row. -/
def update (t : MemoryTable) (id : RowId) (change : Change) : Except Error MemoryTable :=
  match t.rows.at? id with
  | none     => .error (.invalidArgument (.noRow id))
  | some row => do .ok { t with rows := t.rows.put id (← t.write row change) }

/-- Removes a row, and says which id comes before it. -/
def delete (t : MemoryTable) (id : RowId) : Except Error (RowId × MemoryTable) :=
  match t.rows.at? id with
  | none   => .error (.invalidArgument (.noRow id))
  | some _ =>
    let rest := t.rows.filter fun e => e.1 != id
    .ok (Entries.idBefore rest id, { t with rows := rest })

end MemoryTable

/-- Fixed rows, for a table of `width` columns.  Rows whose ids are `missing` are announced but
cannot be fetched. -/
structure Snapshot where
  rows : Entries
  width : Nat
  missing : List RowId

/-- A snapshot of rows in any order; of two with one id the later one counts. -/
def Snapshot.ofRows (width : Nat) (rows : List (RowId × Row)) (missing : List RowId) : Snapshot :=
  ⟨rows.foldl (fun es e => es.put e.1 e.2) [], width, missing⟩

inductive Provider
  | memory (table : MemoryTable)
  | snapshot (source : Snapshot)

namespace Provider

/-- The rows in the order of a visit. -/
def entries : Provider → Entries
  | memory t   => t.rows
  | snapshot s => s.rows

/-- Binds a provider to a table with a name and a number of columns. -/
def bind (name : String) (width : Nat) : Provider → Except Error Provider
  | memory t   => .ok (memory { t with width := width })
  | snapshot s =>
    if s.width == width then .ok (snapshot s)
    else .error (.invalidArgument (.widthMismatch name s.width))

/-- Fetches the row with an id. -/
def seek (id : RowId) : Provider → Option Row
  | memory t   => t.rows.at? id
  | snapshot s => if s.missing.contains id then none else s.rows.at? id

/-- The row that comes after an id, with its own id. -/
def seekNext (p : Provider) (id : RowId) : Option (RowId × Row) :=
  p.entries.after? id

/-- The ids of all rows a visit comes to. -/
def rowIds (p : Provider) : List RowId :=
  p.entries.idsAfter beforeFirst

/-- Adds a row. -/
def insert (change : Change) : Provider → Except Error (RowId × Provider)
  | memory t   => (t.insert change).map fun r => (r.1, memory r.2)
  | snapshot _ => .error (.notSupported .insertReadOnly)

/-- Changes a row. -/
def update (id : RowId) (change : Change) : Provider → Except Error Provider
  | memory t   => (t.update id change).map memory
  | snapshot _ => .error (.notSupported .updateReadOnly)

/-- Removes a row, and says which id comes before it. -/
def delete (id : RowId) : Provider → Except Error (RowId × Provider)
  | memory t   => (t.delete id).map fun r => (r.1, memory r.2)
  | snapshot _ => .error (.notSupported .deleteReadOnly)

end Provider

end SqlEngine
