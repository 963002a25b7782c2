import SqlEngine.Database.Basic
import SqlEngine.Proofs.Database.Typing
import SqlEngine.Proofs.Plan.Joins
import SqlEngine.Proofs.Plan.Meaning
import SqlEngine.Proofs.Statement.Formulas
import SqlEngine.Proofs.Resolution.Everywhere
import SqlEngine.Proofs.Plan.Compiles
import SqlEngine.Proofs.Resolution.Expansion
import SqlEngine.Proofs.Database.Wildcards
import SqlEngine.Proofs.Resolution.Binding
import SqlEngine.Proofs.Plan.Environments
import SqlEngine.Proofs.Plan.OuterReads
import SqlEngine.Proofs.Database.Activations
import SqlEngine.Proofs.Database.RowIds
import SqlEngine.Proofs.Database.Grouping
import SqlEngine.Proofs.Database.Selection
import SqlEngine.Proofs.Database.References
import SqlEngine.Proofs.Database.Filters
import SqlEngine.Proofs.Database.Counts
import SqlEngine.Proofs.Database.Distinct
import SqlEngine.Proofs.Database.Sources
import SqlEngine.Proofs.Statement.Layout
import SqlEngine.Proofs.Statement.Slices
import SqlEngine.Proofs.Statement.Precedence
import SqlEngine.Proofs.Storage.RowMap
import SqlEngine.Proofs.Catalog.Naming
import SqlEngine.Proofs.Plan.Groups
import SqlEngine.Proofs.Plan.Arrangement
import SqlEngine.Proofs.Plan.Numbering
import SqlEngine.Proofs.Database.GroupValues
import SqlEngine.Proofs.Database.Updates
import SqlEngine.Proofs.Function.Totals
import SqlEngine.Proofs.Database.Aggregates
import SqlEngine.Proofs.Database.Inserts
import SqlEngine.Proofs.Statement.Numerals
import SqlEngine.Proofs.Statement.Written
import SqlEngine.Proofs.Value.Comparisons
import SqlEngine.Proofs.Date.Instants
import SqlEngine.Proofs.Plan.StackFaults
