import SqlEngine.Database.Change
import SqlEngine.Resolution.Statement

/-!
# Database

A database is a catalog with settings.  `Database.execute` runs any statement, and `Database.query`
runs a SELECT and nothing else.  A statement is read, resolved and compiled before it is run; its
instant is the value of `NOW()` in it.
-/

namespace SqlEngine

namespace Select

/-- Runs a resolved SELECT. -/
def execute (c : Catalog) (now : Date.Instant) (s : Select) : Except Error Output := do
  (← s.compile c).execute c now

end Select

/-- Runs a resolved statement. -/
def Statement.execute (c : Catalog) (now : Date.Instant) : Statement → Outcome
  | .select s => (s.execute c now, c)
  | .insert s => s.execute c now
  | .update s => s.execute c now
  | .delete s => s.execute c now
  | .create s => s.execute c

namespace Catalog

/-- Reads, resolves and runs a statement. -/
def run (c : Catalog) (o : ParserOptions) (now : Date.Instant) (text : String) : Outcome :=
  c.outcome (Statement.prepare o c text) (Statement.execute c now)

end Catalog

/-- The settings of a database. -/
structure Config where
  name : String := "wooby"
  parser : ParserOptions := {}
  tracePrograms : Bool := false

structure Database where
  catalog : Catalog
  config : Config

namespace Database

/-- A database without tables. -/
def ofConfig (config : Config) : Database :=
  ⟨.named config.name, config⟩

/-- The resolved statement of a text. -/
def prepare (db : Database) (text : String) : Except Error Statement :=
  Statement.prepare db.config.parser db.catalog text

/-- Runs any statement. -/
def execute (db : Database) (now : Date.Instant) (text : String) : Except Error Output × Database :=
  let (result, catalog) := db.catalog.run db.config.parser now text
  (result, { db with catalog })

/-- Runs a SELECT. -/
def query (db : Database) (now : Date.Instant) (text : String) : Except Error Output := do
  match ← db.prepare text with
  | .select s => s.execute db.catalog now
  | s         => .error (.notSupported (.notReadOnly s.kind))

end Database

end SqlEngine
