import SqlEngine.Storage.Provider

/-!
# Storage — cursors

A position on the rows of a provider.  Where there is no current row, every column reads as NULL.
-/

namespace SqlEngine

/-- The current row of a source with its id; none on the row of NULLs that stands in for a missing
partner. -/
abbrev Position := Option (RowId × Row)

namespace Position

/-- The id of the current row. -/
def id (p : Position) : RowId :=
  (p.map Prod.fst).getD beforeFirst

/-- The value of a column. -/
def read (p : Position) (column : Nat) : Value :=
  (p.map fun e => e.2.read column).getD .null

end Position

/-- A position that can be moved; `last` is the id a visit goes on from, and `exhausted` says that
it came to the end. -/
structure Cursor where
  provider : Provider
  width : Nat
  last : RowId := beforeFirst
  position : Position := none
  exhausted : Bool := false

namespace Cursor

/-- Before the first row. -/
def reset (c : Cursor) : Cursor :=
  { c with last := beforeFirst, position := none, exhausted := false }

/-- On the row of NULLs. -/
def clear (c : Cursor) : Cursor :=
  { c with last := beforeFirst, position := none }

/-- To the next row, if the visit is not at its end; says whether there is a row. -/
def next (c : Cursor) : Bool × Cursor :=
  if c.exhausted then (false, c) else
  match c.provider.seekNext c.last with
  | some e => (true, { c with last := e.1, position := some e })
  | none   => (false, { c with position := none, exhausted := true })

/-- To the row with an id, or to the row of NULLs; says whether the row is there. -/
def seek (c : Cursor) : Option RowId → Bool × Cursor
  | none    => (true, c.clear)
  | some id =>
    match c.provider.seek id with
    | some row => (true, { c with last := id, position := some (id, row) })
    | none     => (false, c.clear)

end Cursor

end SqlEngine
