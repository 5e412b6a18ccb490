import FieldQuery.Schema.Decode
import FieldQuery.Naming.NameMemo
import FieldQuery.Store.Column
import FieldQuery.Store.Connection
import FieldQuery.Store.Scope
import FieldQuery.Proofs.Compile.Ranking
import FieldQuery.Proofs.Compile.Balance
import FieldQuery.Proofs.Compile.Wording
import FieldQuery.Proofs.Compile.Capping
import FieldQuery.Proofs.Compile.Appending
import FieldQuery.Proofs.Compile.Depth
import FieldQuery.Proofs.Naming.Inflection
import FieldQuery.Proofs.Naming.Plurals
import FieldQuery.Proofs.Naming.TypeNames
import FieldQuery.Proofs.Catalog.Targets
import FieldQuery.Proofs.Compile.Qualified
import FieldQuery.Proofs.Calendar.Buckets
import FieldQuery.Proofs.Calendar.Texts
import FieldQuery.Proofs.Value.Timestamps
import FieldQuery.Proofs.Value.DurationForms
import FieldQuery.Proofs.Value.WrittenDates
import FieldQuery.Proofs.Compile.Dates
import FieldQuery.Proofs.Compile.Legible
import FieldQuery.Proofs.Compile.NoKeys
import FieldQuery.Proofs.Compile.Forced
import FieldQuery.Proofs.Catalog.JoinTables
import FieldQuery.Proofs.Compile.Failures
import FieldQuery.Proofs.Sql.RankedRows
import FieldQuery.Proofs.Compile.Widening
import FieldQuery.Proofs.Sql.Inlining
import FieldQuery.Proofs.Sql.Patterns
import FieldQuery.Proofs.Compile.Containing
import FieldQuery.Proofs.Compile.References
import FieldQuery.Proofs.Compile.Refusals
import FieldQuery.Proofs.Value.RoleMasks
import FieldQuery.Proofs.Compile.Keys
import FieldQuery.Proofs.Value.Decorated
import FieldQuery.Proofs.Compile.Decoding
import FieldQuery.Proofs.Sql.OrderTexts
import FieldQuery.Proofs.Sql.Orderings
import FieldQuery.Proofs.Attempts
import FieldQuery.Proofs.Naming.Memo
