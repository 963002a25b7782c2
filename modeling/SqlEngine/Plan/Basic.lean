import SqlEngine.Catalog
import SqlEngine.Program.Instruction
import SqlEngine.Statement.Basic

/-!
# Plans

A plan is a SELECT with every expression turned into a program.  The stages of a plan and their
programs leave open what a nested query is: in a plan it is again a plan (`Plan`), and where it is
run it is the function that runs it.  `Stages.map` goes from the one to the other.
-/

namespace SqlEngine

variable {Q R : Type}

/-- A program; its instructions refer to nested queries by their position. -/
structure Program (Q : Type) where
  code : List Instr
  queries : List Q

/-- Where the rows of a source come from. -/
inductive Supply (Q : Type)
  | table (id width : Nat)
  | query (q : Q) (width : Nat)

/-- A join with the next source; without a condition every pair of rows matches. -/
structure JoinStep (Q : Type) where
  kind : JoinKind
  condition : Option (Program Q)

/-- An aggregate call: its overload and a program for each argument. -/
structure Slot (Q : Type) where
  target : Overload
  arguments : List (Program Q)

structure SortKey (Q : Type) where
  program : Program Q
  ascending : Bool

/-- The stages of a SELECT; `aggregated` says that rows are folded into groups. -/
structure Stages (Q : Type) where
  sources : List (Supply Q)
  joins : List (JoinStep Q)
  filter : Option (Program Q)
  outputs : List (Program Q)
  columns : Columns
  groupBy : List (Program Q)
  aggregates : List (Slot Q)
  orderBy : List (SortKey Q)
  distinct : Bool
  limit : Option Nat
  aggregated : Bool

inductive Plan
  | of (stages : Stages Plan)

/-- Programs are the same when their instructions are. -/
def Program.same (p q : Program Q) : Bool :=
  p.code == q.code

def Supply.width : Supply Q → Nat
  | table _ width | query _ width => width

def Plan.stages : Plan → Stages Plan
  | of stages => stages

end SqlEngine
