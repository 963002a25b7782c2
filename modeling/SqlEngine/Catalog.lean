import SqlEngine.Function.Overload
import SqlEngine.Storage.Provider

/-!
# Catalog

The tables and the functions of a database.  The id of a table, of a column and of a function is its
position, so ids are given out in order and keep their meaning.  Tables are found by their names in
small letters, functions by their names in capitals, and columns without regard to the case of ASCII
letters.  An operation that fails gives no new catalog.
-/

namespace SqlEngine

/-- A named column of a type. -/
structure Column where
  name : String
  type : DataType
deriving DecidableEq, Repr

abbrev Columns := List Column

namespace Columns

/-- The position of the first column with a name. -/
def index? (columns : Columns) (name : String) : Option Nat :=
  columns.findIdx? fun c => Text.sameName c.name name

/-- The first name that comes a second time, `seen` being the names before. -/
def repeatedName? (seen : List String) : List String → Option String
  | []            => none
  | name :: names =>
    if seen.any (Text.sameName · name) then some name else repeatedName? (seen ++ [name]) names

end Columns

/-- A table; without a provider it has no rows that could be read. -/
structure Table where
  name : String
  columns : Columns
  provider : Option Provider

structure Catalog where
  name : String
  tables : List Table
  functions : List Function

namespace Catalog

/-- A catalog without tables, and with the functions that every catalog has. -/
def named (name : String) : Catalog :=
  ⟨name, [], Function.builtins⟩

/-! ### Lookup -/

/-- The table that a name stands for, with its id. -/
def findTable? (c : Catalog) (name : String) : Option (Nat × Table) :=
  (c.tables.zipIdx.find? fun p => Text.lower p.1.name == Text.lower name).map Prod.swap

/-- The function that a name stands for, with its id; of several the last one. -/
def findFunction? (c : Catalog) (name : String) : Option (Nat × Function) :=
  (c.functions.zipIdx.reverse.find? fun p => p.1.name == Text.upper name).map Prod.swap

/-- The overload of a function. -/
def variant? (c : Catalog) (o : Overload) : Option Variant :=
  c.functions[o.function]?.bind fun f => f.variants[o.variant]?

/-- The provider of a table. -/
def provider? (c : Catalog) (id : Nat) : Option Provider :=
  c.tables[id]?.bind Table.provider

/-! ### Changes -/

/-- Changes a table. -/
def modify (c : Catalog) (id : Nat) (f : Table → Table) : Catalog :=
  { c with tables := c.tables.modify id f }

/-- Puts a provider in the place of a table's old one. -/
def setProvider (c : Catalog) (id : Nat) (p : Provider) : Catalog :=
  c.modify id fun t => { t with provider := some p }

/-- The table with an id. -/
def expectTable (c : Catalog) (id : Nat) : Except Error Table :=
  match c.tables[id]? with
  | some t => .ok t
  | none   => .error (.internal (.unknownTable id))

/-- Adds a table without columns. -/
def addTable (c : Catalog) (name : String) : Except Error (Nat × Catalog) :=
  if (c.findTable? name).isSome then .error (.tableExists name)
  else .ok (c.tables.length, { c with tables := c.tables ++ [⟨name, [], none⟩] })

/-- Adds a column at the end of a table. -/
def addColumn (c : Catalog) (id : Nat) (name : String) (type : DataType) :
    Except Error (Nat × Catalog) := do
  let t ← c.expectTable id
  if (t.columns.index? name).isSome then .error (.duplicateColumn t.name name)
  else .ok (t.columns.length,
    c.modify id fun t => { t with columns := t.columns ++ [⟨name, type⟩] })

/-- Binds a provider to a table. -/
def attach (c : Catalog) (id : Nat) (p : Provider) : Except Error Catalog := do
  let t ← c.expectTable id
  .ok (c.setProvider id (← p.bind t.name t.columns.length))

/-- A new table of the given columns may be made. -/
def checkNew (c : Catalog) (name : String) (columns : List String) : Except Error Unit :=
  if (c.findTable? name).isSome then .error (.tableExists name) else
  match Columns.repeatedName? [] columns with
  | some column => .error (.duplicateColumn name column)
  | none        => .ok ()

/-- Makes a table with its columns and its provider. -/
def createTable (c : Catalog) (name : String) (columns : Columns) (p : Provider) :
    Except Error (Nat × Catalog) := do
  c.checkNew name (columns.map Column.name)
  let bound ← p.bind name columns.length
  .ok (c.tables.length, { c with tables := c.tables ++ [⟨name, columns, some bound⟩] })

/-- Adds a function; it takes the place of the earlier ones of its name. -/
def addFunction (c : Catalog) (f : Function) : Nat × Catalog :=
  (c.functions.length, { c with functions := c.functions ++ [f] })

end Catalog

end SqlEngine
