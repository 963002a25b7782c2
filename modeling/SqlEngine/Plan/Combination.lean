import SqlEngine.Program.Machine

/-!
# Plans — combinations of rows

A combination names the current row of each source by its id, or the row of NULLs.  `joinAll` makes
the combinations of all sources, one join after the other, and `filterRows` keeps those for which
the WHERE program is TRUE.
-/

namespace SqlEngine

/-- The current row of each source, in the order of the sources; none is the row of NULLs. -/
abbrev Combination := List (Option RowId)

/-- What a query reads: the catalog, the rows around it, its sources and its instant. -/
structure Setting where
  catalog : Catalog
  outer : List Frame
  providers : List Provider
  now : Date.Instant

/-- The position on a row, which has to be there still. -/
def Provider.locate (p : Provider) : Option RowId → Except Error Position
  | none    => .ok none
  | some id =>
    match p.seek id with
    | some row => .ok (some (id, row))
    | none     => .error (.internal (.rowVanished id))

/-- The positions of a combination; sources that it says nothing of have no row. -/
def locateAll : List Provider → Combination → Except Error (List Position)
  | [],           _             => .ok []
  | _ :: ps,      []            => do .ok (none :: (← locateAll ps []))
  | p :: ps,      id :: ids     => do
    let position ← p.locate id
    .ok (position :: (← locateAll ps ids))

/-- The id of the first source's row. -/
def primaryId (positions : List Position) : RowId :=
  (positions.head?.map Position.id).getD beforeFirst

namespace Setting

/-- The environment at the given positions, for the row with a number and an id. -/
def env (s : Setting) (positions : List Position) (rowNumber : Nat) (rowId : RowId) : Env :=
  ⟨s.catalog, positions, s.outer, [], [], rowNumber, rowId, s.now⟩

/-- The environment on a combination when there is no row yet. -/
def envAt (s : Setting) (c : Combination) : Except Error Env := do
  .ok (s.env (← locateAll s.providers c) 0 beforeFirst)

/-- The environment on a combination for the row with a number, which has the primary row's id. -/
def envFor (s : Setting) (c : Combination) (rowNumber : Nat) : Except Error Env := do
  let positions ← locateAll s.providers c
  .ok (s.env positions rowNumber (primaryId positions))

/-- A condition holds when its program gives TRUE, or when there is none. -/
def holds (s : Setting) (condition : Option (Program Query)) (c : Combination) :
    Except Error Bool :=
  match condition with
  | none   => .ok true
  | some p => do .ok (← p.value (← s.envAt c)).isTrue

end Setting

/-! ### Joins -/

/-- The rows that match a combination. -/
def matching (holds : Combination → Except Error Bool) (left : Combination) :
    List RowId → Except Error (List RowId)
  | []        => .ok []
  | id :: ids => do
    let hit ← holds (left ++ [some id])
    let rest ← matching holds left ids
    .ok (if hit then id :: rest else rest)

/-- A combination with the rows that match it; without any, a kind that keeps left rows pairs it
with the row of NULLs. -/
def extend (kind : JoinKind) (left : Combination) (ids : List RowId) : List Combination :=
  if ids.isEmpty && kind.keepsLeft then [left ++ [none]]
  else ids.map fun id => left ++ [some id]

/-- The right rows that match nothing, if the kind keeps them, each after `width` rows of NULLs. -/
def unmatched (kind : JoinKind) (width : Nat) (right : List RowId) (matched : List (List RowId)) :
    List Combination :=
  if kind.keepsRight then
    (right.filter fun id => !matched.any (·.contains id)).map fun id =>
      List.replicate width none ++ [some id]
  else []

/-- The combinations of `width` sources, joined with the rows of the next source. -/
def joinRows (kind : JoinKind) (holds : Combination → Except Error Bool) (width : Nat)
    (left : List Combination) (right : List RowId) : Except Error (List Combination) := do
  let matched ← left.mapM fun c => matching holds c right
  .ok ((left.zipWith (extend kind) matched).flatten ++ unmatched kind width right matched)

/-- Joins the combinations of the first `width` sources with the sources after them. -/
def joinAll (s : Setting) (width : Nat) (left : List Combination) :
    List (JoinStep Query) → Except Error (List Combination)
  | []      => .ok left
  | j :: js =>
    match s.providers[width]? with
    | none   => .error (.internal (.noJoinSource width))
    | some p => do
      let joined ← joinRows j.kind (s.holds j.condition) width left p.rowIds
      joinAll s (width + 1) joined js

/-- Every combination of the sources; without sources there is the empty one. -/
def combine (s : Setting) (joins : List (JoinStep Query)) : Except Error (List Combination) :=
  match s.providers with
  | []     => .ok [[]]
  | p :: _ => joinAll s 1 (p.rowIds.map fun id => [some id]) joins

/-! ### WHERE -/

/-- The combinations for which the program is TRUE; the rows are numbered from `number` on. -/
def filterRows (s : Setting) (p : Program Query) (number : Nat) :
    List Combination → Except Error (List Combination)
  | []      => .ok []
  | c :: cs => do
    let kept := (← p.value (← s.envFor c number)).isTrue
    let rest ← filterRows s p (number + 1) cs
    .ok (if kept then c :: rest else rest)

/-- The combinations that a WHERE clause keeps, if there is one. -/
def keep (s : Setting) (filter : Option (Program Query)) (cs : List Combination) :
    Except Error (List Combination) :=
  match filter with
  | some p => filterRows s p 1 cs
  | none   => .ok cs

end SqlEngine
