import Peanut.Json
import Peanut.Timestamps
import Peanut.Library.KeyedTable
import Peanut.Library.Outcome
import Peanut.Library.Transition
import Peanut.Library.Interleaving
import Peanut.Library.ChangeLog
import Peanut.Library.ResultRow
import Peanut.Common
import Peanut.Data.Types
import Peanut.Data.Access
import Peanut.Data.Schema
import Peanut.Store
import Peanut.Workspaces.Usage
import Peanut.Data.Core
import Peanut.Data.Tables
import Peanut.Data.Query
import Peanut.Data.Expand
import Peanut.Data.Rows
import Peanut.Data.ImportExport
import Peanut.Auth.Tokens
import Peanut.Auth.Users
import Peanut.Auth.Sessions
import Peanut.Auth.SessionIds
import Peanut.Auth.Rotation
import Peanut.Auth.Password
import Peanut.Auth.Principal
import Peanut.Auth.Revocation
import Peanut.Auth.OAuth
import Peanut.Auth.OneTimeTokens
import Peanut.Auth.SignUp
import Peanut.Auth.FirstUser
import Peanut.Auth.LoginPaths
import Peanut.Workspaces.Members
import Peanut.Auth.Owners
import Peanut.Workspaces.Roles
import Peanut.Workspaces.Quotas
import Peanut.Workspaces.InviteRaces
import Peanut.Data.Runs
import Peanut.Data.Statements
import Peanut.Data.LostUpdates
import Peanut.Data.SchemaRaces
import Peanut.Data.ReadPaths
import Peanut.Data.ImportAtomicity
import Peanut.Data.DryRun
import Peanut.Data.EventLog
import Peanut.Data.EventHistory
import Peanut.Data.Export
import Peanut.Data.RoundTrip
import Peanut.Data.OwnerRule
import Peanut.Data.ExpandAccess
import Peanut.Functions.Secrets
import Peanut.Functions.Versions
import Peanut.Functions.Invocations
import Peanut.Functions.Invoke
import Peanut.Functions.Numbering
import Peanut.Functions.SecretHistory
import Peanut.Functions.Changes
import Peanut.Functions.Mirror
import Peanut.Functions.KeyPolicy
import Peanut.Jobs.Scheduler
import Peanut.Push.Enqueue
import Peanut.Push.Worker
import Peanut.Push.Workers
import Peanut.Push.Lifecycle
import Peanut.Push.Webhooks
import Peanut.Push.Broadcast
import Peanut.Push.Idempotency
import Peanut.Push.DeadSubscriptions
import Peanut.Push.Due
import Peanut.Workspaces.LimitedCalls
import Peanut.Workspaces.LimitRaces
import Peanut.Workspaces.LimitsApart
import Peanut.Storage.Local
import Peanut.Storage.Paths
import Peanut.Storage.Buckets
import Peanut.Storage.Requests
import Peanut.Storage.Accounting
import Peanut.Storage.Policy
import Peanut.Library.Retention
import Peanut.Library.WriteAheadLog
import Peanut.Backups.Paths
import Peanut.Backups.Files
import Peanut.Backups.Rotation
import Peanut.Backups.Restore
import Peanut.Backups.Schedule
import Peanut.Backups.Startup
import Peanut.Http.Limits
import Peanut.Http.Suspension
import Peanut.Http.Public
import Peanut.Http.DataPlane
import Peanut.Http.SuspendedApps
import Peanut.Auth.OAuthIdentities
import Peanut.Auth.AppKeys
import Peanut.Data.AppKeyAccess
import Peanut.Library.FileTree
import Peanut.Storage.Files
import Peanut.Storage.Listing
import Peanut.Storage.PutConflicts
import Peanut.Storage.MultipartRaces
import Peanut.Jobs.Occurrences
import Peanut.Library.CountedLoop
import Peanut.Sdks.Retry
import Peanut.Auth.SignedTokens
import Peanut.Data.Normalization
import Peanut.Data.RequiredFields
import Peanut.Data.QueryText
import Peanut.Data.JsonColumns
import Peanut.Data.TextFilters
import Peanut.Data.FilterValues
import Peanut.Data.RowPages
import Peanut.Data.EventPolling
import Peanut.Library.TokenPaging
import Peanut.Storage.ListingPages
import Peanut.Data.ImportChecksum
import Peanut.Http.RateLimits
import Peanut.Functions.Redaction
import Peanut.Functions.Validators
import Peanut.Functions.Execution
import Peanut.Functions.SecretsKept
import Peanut.Http.PresignedUrls
import Peanut.Storage.ObjectLists
import Peanut.Storage.Etags
import Peanut.Library.Words
import Peanut.Push.Backoff
import Peanut.Functions.Output
import Peanut.Library.Incremental
import Peanut.Backups.NewestBackups
import Peanut.Functions.EmptyUpdates
import Peanut.Functions.Retries
import Peanut.Functions.RetryChains
import Peanut.Http.PercentEncoding
import Peanut.Library.EscapePairs
import Peanut.Push.Batches
import Peanut.Sdks.JsonReader
import Peanut.Sdks.Realtime
import Peanut.Sdks.Urls
import Peanut.Library.Utf16
import Peanut.Library.JsonText
import Peanut.Sdks.JsonWriter
import Peanut.Library.WordRuns
import Peanut.Workspaces.Slugs
import Peanut.Auth.OAuthRedirect
import Peanut.Library.Tally
import Peanut.Push.FailureStats
import Peanut.Storage.Uploads
import Peanut.Storage.Completion
import Peanut.Library.DirectoryWalk
import Peanut.Storage.StaleUploads
import Peanut.Library.RemoteCalls
import Peanut.Functions.HostProtocol
import Peanut.Storage.Refinement
import Peanut.Library.TableChanges
import Peanut.Storage.ObjectStatements
import Peanut.Storage.AppFiles
import Peanut.Functions.HostBindings
import Peanut.Functions.WithinApp
import Peanut.Functions.AppIsolation
import Peanut.Workspaces.Activity
import Peanut.Auth.BearerAccess
import Peanut.Library.Broadcast
import Peanut.Data.LiveRows
import Peanut.Data.LiveStreams
import Peanut.Storage.ListedTables
