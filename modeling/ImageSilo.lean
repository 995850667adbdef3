import ImageSilo.Concurrent.Program
import ImageSilo.Concurrent.Interleaving
import ImageSilo.Go.Text
import ImageSilo.Go.URL
import ImageSilo.Platform
import ImageSilo.Delivery.Path
import ImageSilo.Processor.Inspect
import ImageSilo.Image.Model
import ImageSilo.Tables.Unique
import ImageSilo.Auth.Model
import ImageSilo.Database.Statements
import ImageSilo.Delivery.Loader
import ImageSilo.Storage.Filesystem
import ImageSilo.System.Machine
import ImageSilo.System.Calls
import ImageSilo.Maintenance.Service
import ImageSilo.Auth.Service
import ImageSilo.HttpApi.Delivery
import ImageSilo.Image.Service
import ImageSilo.Importer.Service
import ImageSilo.System.Requests
import ImageSilo.Accounts.Bystanders
import ImageSilo.Publication.Ledger
import ImageSilo.Accounts.Docket
import ImageSilo.Accounts.Walks
import ImageSilo.Publication.Rules
import ImageSilo.Publication.Walks
import ImageSilo.Publication.Obedience
import ImageSilo.Publication.Frames
import ImageSilo.Publication.Locking
import ImageSilo.Publication.Effects
import ImageSilo.Accounts.Effects
import ImageSilo.Accounts.Balance
import ImageSilo.Accounts.Clerks
import ImageSilo.Publication.Keys
import ImageSilo.Publication.Contents
import ImageSilo.System.Snapshot
import ImageSilo.System.Boot
import ImageSilo.Publication.Soundness
import ImageSilo.Accounts.Mutexes
import ImageSilo.Concurrent.Waiting
import ImageSilo.Concurrent.LockOrder
import ImageSilo.System.LockOrder
import ImageSilo.Accounts.Climbing
import ImageSilo.Concurrent.Traces
import ImageSilo.Accounts.Passwords
import ImageSilo.Accounts.Sessions
import ImageSilo.Publication.Index
import ImageSilo.Publication.Presence
import ImageSilo.Publication.Agreement
import ImageSilo.Accounts.Tokens
import ImageSilo.Accounts.Reloads
import ImageSilo.Accounts.Withdrawals
import ImageSilo.Concurrent.Clients
import ImageSilo.Concurrent.Histories
import ImageSilo.Concurrent.Latches
import ImageSilo.Concurrent.Sequence
import ImageSilo.Concurrent.Solo
import ImageSilo.Go.Utf8
import ImageSilo.Database.Text
import ImageSilo.Delivery.Spelling
import ImageSilo.Go.Base64
import ImageSilo.Go.Filepath
import ImageSilo.Go.Json
import ImageSilo.Go.Unicode
import ImageSilo.Publication.Rebuilding
import ImageSilo.Guarantees.Quiescence
import ImageSilo.Publication.Desk
import ImageSilo.Publication.Tidying
import ImageSilo.Publication.Timeliness
import ImageSilo.Guarantees.Alone
import ImageSilo.Guarantees.Revocation
import ImageSilo.HttpApi.LoginLimiter
import ImageSilo.HttpApi.Router
import ImageSilo.Setup.Service
import ImageSilo.HttpApi.Uploads
import ImageSilo.HttpApi.Authentication
import ImageSilo.HttpApi.Handlers
import ImageSilo.HttpApi.Gates
import ImageSilo.Guarantees.Authorization
import ImageSilo.Processor.Blocks
import ImageSilo.Guarantees.Preflight
import ImageSilo.Guarantees.Budget
import ImageSilo.Storage.Migrations
import ImageSilo.Guarantees.Inspection
import ImageSilo.Guarantees.Cleanup
import ImageSilo.Guarantees.PasswordChange
import ImageSilo.Guarantees.SessionTable
import ImageSilo.Guarantees.Reloads
import ImageSilo.Guarantees.Consistency
import ImageSilo.Guarantees.Content
import ImageSilo.Image.Listing
import ImageSilo.Tables.Keyset
import ImageSilo.Guarantees.Paging
import ImageSilo.Guarantees.Searching
import ImageSilo.Markdown.Inlines
import ImageSilo.Markdown.Reading
import ImageSilo.Web.ImageLinks
import ImageSilo.Guarantees.CopiedMarkdown
import ImageSilo.Guarantees.Scans
import ImageSilo.Publication.Cleaning
import ImageSilo.Publication.Withdrawals
import ImageSilo.Publication.Origins
import ImageSilo.Guarantees.Custody
import ImageSilo.Publication.Viewing
import ImageSilo.Publication.Attendance
import ImageSilo.Guarantees.Deletion
import ImageSilo.Guarantees.Expulsion
import ImageSilo.IndexBarrier.KeyedLock
import ImageSilo.Guarantees.KeyedLocks
import ImageSilo.Guarantees.Retries
import ImageSilo.Publication.Upkeep
import ImageSilo.Guarantees.Leftovers
import ImageSilo.Guarantees.RetryAfter
import ImageSilo.Guarantees.Limiter
import ImageSilo.Guarantees.LiteralPatterns
import ImageSilo.MigrationImage.Service
import ImageSilo.MigrationImage.Listing
import ImageSilo.MigrationImage.Cursor
import ImageSilo.Storage.Pruning
import ImageSilo.Guarantees.Migrations
import ImageSilo.Guarantees.Pruning
import ImageSilo.MigrationImage.Removal
import ImageSilo.Guarantees.MigrationPaging
import ImageSilo.Guarantees.Names
import ImageSilo.Guarantees.Paths
import ImageSilo.Guarantees.Privacy
import ImageSilo.System.Latches
import ImageSilo.Guarantees.Progress
import ImageSilo.Guarantees.Routing
import ImageSilo.Schema.Apply
import ImageSilo.Guarantees.SchemaVersions
import ImageSilo.System.Slots
import ImageSilo.Guarantees.Slots
import ImageSilo.MigrationImage.Serving
import ImageSilo.MigrationImage.Alone
import ImageSilo.MigrationImage.Ledger
import ImageSilo.MigrationImage.Mirror
import ImageSilo.Guarantees.Snapshots
import ImageSilo.Storage.Keys
import ImageSilo.Guarantees.StorageKeys
import ImageSilo.Guarantees.Temporaries
import ImageSilo.Setup.Once
