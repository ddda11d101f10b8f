import GoNavi.Sql.Coverage
import GoNavi.Sql.Gate
import GoNavi.Sql.Embedded
import GoNavi.Sql.StreamBatch
import GoNavi.Sql.Chunk
import GoNavi.Sql.Safety
import GoNavi.Sqlparam.Aligned
import GoNavi.Harness.Log
import GoNavi.Harness.Budget
import GoNavi.Harness.Fence
import GoNavi.Harness.Queue
import GoNavi.Harness.Snapshot
import GoNavi.Harness.Verdict
import GoNavi.Harness.Steered
import GoNavi.Sqlaudit.Store
import GoNavi.Sqlaudit.Confidential
import GoNavi.Resultdiff.Conserve
import GoNavi.Resultdiff.Aligned
import GoNavi.Resultdiff.Keys
import GoNavi.Resultdiff.Options
import GoNavi.Resultdiff.Unordered
import GoNavi.Resultdiff.Page
import GoNavi.Resultdiff.Swap
import GoNavi.Syncjob.Fencing
import GoNavi.Syncjob.EventLog
import GoNavi.Sync.Converge
import GoNavi.Sync.Window
import GoNavi.Sync.PagedDiff
import GoNavi.Editor.Pending
import GoNavi.Sqlfile.Committed
import GoNavi.Sqlfile.Rejoin
import GoNavi.Sqlfile.Single
import GoNavi.Webserver.Limit
import GoNavi.Webserver.OneTime
import GoNavi.Importjob.RetryOnce
import GoNavi.Importjob.Delivered
import GoNavi.Db.Restore
import GoNavi.Db.SnapshotStore
import GoNavi.Esconsole.MultiSearch
import GoNavi.Sidebar.Repository
import GoNavi.Editor.Audited
import GoNavi.Editor.Finished
import GoNavi.Sqlparam.Missing
import GoNavi.Sql.Mongo
import GoNavi.Context.Projection
import GoNavi.Sql.Headless
import GoNavi.Sql.Sanitize
import GoNavi.Sql.SelectInto
import GoNavi.Sql.Preflight
import GoNavi.Harness.Approvals
import GoNavi.Harness.Branch
import GoNavi.Harness.Counters
import GoNavi.Sql.LiteralBlind
import GoNavi.Sql.Unlimited
import GoNavi.Sync.Batches
import GoNavi.Sync.Keyset
import GoNavi.Sync.Fallback
import GoNavi.Sync.ReadsFirst
import GoNavi.Sync.Accounts
import GoNavi.Sync.Cursor
import GoNavi.Sync.Quoting
import GoNavi.Sync.Selection
import GoNavi.Syncjob.RunPages
import GoNavi.Syncjob.NextRun
import GoNavi.Syncjob.Triggers
import GoNavi.Syncjob.Lineage
import GoNavi.Syncjob.Backoff
import GoNavi.Sync.RowKeys
import GoNavi.Resultdiff.Leases
import GoNavi.Importjob.SharedStrings
