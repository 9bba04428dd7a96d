import PgDucklake.Stats.Histories
import PgDucklake.Sync.Mirror
import PgDucklake.Sync.Drops
import PgDucklake.Scan.Pushdown
import PgDucklake.Scan.Parallel
import PgDucklake.Session.Secrets
import PgDucklake.Planner.Views
import PgDucklake.Decimal.RoundTrip
import PgDucklake.Sorted.Runs
import PgDucklake.Maintenance.Ownership
import PgDucklake.Session.Flags
import PgDucklake.Session.Options
import PgDucklake.Session.Ctas
import PgDucklake.Decimal.Exact
import PgDucklake.Decimal.ToNumeric
import PgDucklake.Insert.Catalog
import PgDucklake.Insert.Gate
import PgDucklake.Insert.Private
import PgDucklake.Insert.Rows
import PgDucklake.Lib.Cells
import PgDucklake.Lib.Patterns
import PgDucklake.Lib.Regions
import PgDucklake.Scan.Expressions
import PgDucklake.Scan.IndexOrders
import PgDucklake.Scan.Like
import PgDucklake.Scan.Resolve
import PgDucklake.Types.Columns
import PgDucklake.Types.Params
import PgDucklake.Writer.Arithmetic
import PgDucklake.Writer.Pointers
import PgDucklake.Alter.Commands
import PgDucklake.Alter.Forwarded
import PgDucklake.Backends.Anchors
import PgDucklake.Fdw.Aliases
import PgDucklake.Fdw.Attach
import PgDucklake.Fdw.Frozen
import PgDucklake.Fdw.Import
import PgDucklake.Insert.Lockstep
import PgDucklake.Insert.Shape
import PgDucklake.Insert.Storage
import PgDucklake.Lib.Memory
import PgDucklake.Planner.Variants
import PgDucklake.Scan.Sharing
import PgDucklake.Session.SecretStore
import PgDucklake.Session.TimeTravel
import PgDucklake.Sorted.Drops
import PgDucklake.Sorted.Grouping
import PgDucklake.Types.Detoast
import PgDucklake.Insert.Copy
import PgDucklake.Scan.Locking
import PgDucklake.Scan.Node
import PgDucklake.Writer.Decorated
import PgDucklake.Writer.Stable
import PgDucklake.Types.Lists
import PgDucklake.Lib.Replacing
import PgDucklake.Session.Placeholders
