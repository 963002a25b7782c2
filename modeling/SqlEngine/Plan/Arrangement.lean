import SqlEngine.Program.Machine

/-!
# Plans — groups and the order of rows

`groupRows` puts rows with equal keys together, in the order in which the keys come up.  `arrange`
is what happens to projected rows last: DISTINCT keeps the first of equal rows, ORDER BY sorts them
stably by their keys, and LIMIT cuts them off.
-/

namespace SqlEngine

variable {α Q : Type}

/-! ### Groups -/

/-- Rows with equal keys; `key` is the key of the first one. -/
structure Group (α : Type) where
  key : List Value
  members : List α

/-- Puts a row into the group of its key, which may be a new one. -/
def insertIntoGroup (key : List Value) (a : α) : List (Group α) → List (Group α)
  | []      => [⟨key, [a]⟩]
  | g :: gs =>
    if Value.sameAll g.key key then { g with members := g.members ++ [a] } :: gs
    else g :: insertIntoGroup key a gs

/-- The groups of rows with their keys. -/
def groupRows (rows : List (List Value × α)) : List (Group α) :=
  rows.foldl (fun gs r => insertIntoGroup r.1 r.2 gs) []

/-! ### DISTINCT, ORDER BY and LIMIT -/

/-- An output row with the values that it is sorted by. -/
structure Projected where
  row : OutputRow
  keys : List Value

/-- The rows that differ from all rows before them, `seen` being the values of earlier rows. -/
def distinctRows (seen : List (List Value)) : List Projected → List Projected
  | []      => []
  | p :: ps =>
    if seen.any fun values => Value.sameAll values p.row.values then distinctRows seen ps
    else p :: distinctRows (seen ++ [p.row.values]) ps

/-- The order of two rows by their keys, the first difference deciding. -/
def compareKeys : List Bool → List Value → List Value → Ordering
  | ascending :: directions, a :: as, b :: bs =>
    (if ascending then a.compare b else (a.compare b).swap).then (compareKeys directions as bs)
  | _,                       _,       _       => .eq

/-- Sorts rows by their keys; rows with equal keys stay in order. -/
def sortRows (directions : List Bool) (rows : List Projected) : List Projected :=
  if directions.isEmpty then rows
  else rows.mergeSort fun a b => (compareKeys directions a.keys b.keys).isLE

/-- DISTINCT, ORDER BY and LIMIT. -/
def arrange (distinct : Bool) (directions : List Bool) (limit : Option Nat)
    (rows : List Projected) : List OutputRow :=
  let rows := if distinct then distinctRows [] rows else rows
  let rows := (sortRows directions rows).map Projected.row
  match limit with
  | some n => rows.take n
  | none   => rows

/-- The row of NULLs that aggregates give when no row was kept is dropped. -/
def dropBlank (nothingKept : Bool) (rows : List Projected) : List Projected :=
  match rows with
  | [p] => if nothingKept && Row.isBlank p.row.values then [] else rows
  | _   => rows

end SqlEngine
