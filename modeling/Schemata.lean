import Schemata.Directory
import Schemata.Exchange
import Schemata.Main
import Schemata.Proofs.Exchange
import Schemata.Proofs.History
import Schemata.Proofs.Schema.Cascades
import Schemata.Proofs.Schema.ColumnOrder
import Schemata.Proofs.Schema.Undoing
import Schemata.Proofs.Schema.Violations
import Schemata.Proofs.Session.Placements
import Schemata.Proofs.Sql.ConstraintNames
import Schemata.Proofs.Sql.Dialects
import Schemata.Proofs.Sql.Dividers
import Schemata.Proofs.Sql.Exporting
import Schemata.Proofs.Sql.ImpliedTargets
import Schemata.Proofs.Sql.Indexed.Resolution
import Schemata.Proofs.Sql.KeyLists
import Schemata.Proofs.Sql.Offsets
import Schemata.Proofs.Sql.PassedClauses
import Schemata.Proofs.Sql.Placement
import Schemata.Proofs.Sql.Rejection
import Schemata.Proofs.Sql.Spacing
import Schemata.Proofs.Sql.Specification
import Schemata.Proofs.Sql.Spelling
import Schemata.Proofs.Sql.TableStatements
import Schemata.Proofs.Sql.Uniqueness
import Schemata.Proofs.Suggestion.Specification
import Schemata.Proofs.Schema.Draws
import Schemata.Proofs.Sql.Outlines
import Schemata.Proofs.Sql.Quoting
import Schemata.Proofs.Sql.Unclosed
