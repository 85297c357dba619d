import Postit.Core.Delivery
import Postit.Properties.NoBlindRepublish
import Postit.Data.Schema
import Postit.Framework.Program
import Postit.Data.Rows
import Postit.Data.Statements
import Postit.Data.Deliveries
import Postit.Data.Direct
import Postit.Data.Jobs
import Postit.Data.Sweep
import Postit.Data.Alone
import Postit.Data.Effects
import Postit.Data.Operations
import Postit.Data.Histories
import Postit.Data.Status
import Postit.Properties.Generations
import Postit.Data.Apply
import Postit.Data.Locking
import Postit.Data.Blocks
import Postit.Data.Integrity
import Postit.Properties.JobStatus
import Postit.Data.Creation
import Postit.Properties.LateReceipts
import Postit.Properties.PostStatus
import Postit.Data.Sessions
import Postit.Properties.Stranding
import Postit.Properties.CancelledJobs
import Postit.Core.Agent
import Postit.Publishing.Outcome
import Postit.Framework.Tasks
import Postit.Publishing.Engine
import Postit.Publishing.Poll
import Postit.Contacts.Book
import Postit.Contacts.Standing
import Postit.Properties.OptOuts
import Postit.Publishing.Quota
import Postit.Framework.Bytes
import Postit.Properties.QuotaAccounting
import Postit.Vault.Envelope
import Postit.Vault.Reseal
import Postit.Core.Chrono
import Postit.Core.Recurrence
import Postit.Properties.KeyRotation
import Postit.Properties.RecurrenceForms
import Postit.Framework.Files
import Postit.Media.Assets
import Postit.Media.Service
import Postit.Properties.ReadyMedia
import Postit.OAuth.Flow
import Postit.Framework.Pool
import Postit.Properties.SingleUse
import Postit.Core.Documents
import Postit.Core.Schema
import Postit.Properties.SchemaRoundTrip
import Postit.Identity.Admin
import Postit.Properties.Admins
import Postit.Identity.Cache
import Postit.Properties.CachedAccess
import Postit.Api.Idempotency
import Postit.Properties.RunsOnce
import Postit.Accounts.Grants
import Postit.Accounts.Changes
import Postit.Properties.GrantStates
import Postit.Accounts.Refresh
import Postit.Accounts.Reminders
import Postit.Properties.TokenRefresh
import Postit.Jobs.Ledger
import Postit.Jobs.Console
import Postit.Jobs.Tries
import Postit.Jobs.Life
import Postit.Properties.FinishedJobs
import Postit.Jobs.Relay
import Postit.Properties.RelayedJobs
import Postit.Mail.Send
import Postit.Properties.EmailedOnce
import Postit.Data.Recipients
import Postit.Properties.Campaigns
import Postit.Contacts.Import
import Postit.Properties.ImportedRows
import Postit.Api.ClientIp
import Postit.Properties.ClientAddress
import Postit.Framework.Addresses
import Postit.Api.EmailLinks
import Postit.Properties.SignedLinks
import Postit.Framework.Base64
import Postit.Email.Merge
import Postit.Properties.MergeTags
import Postit.Framework.Strs
import Postit.Framework.JsonText
import Postit.Drafter.Extract
import Postit.Properties.ExtractedJson
import Postit.Accounts.Import
import Postit.Accounts.Indexes
import Postit.Properties.CheckedImports
import Postit.Framework.Buffered
import Postit.Data.Audit
import Postit.Identity.Deletion
import Postit.Properties.ScrubbedAudit
import Postit.Http.Errors
import Postit.Http.Policy
import Postit.Http.Retries
import Postit.Http.Retry
import Postit.Properties.OutboundPolicy
import Postit.Framework.Durations
import Postit.OAuth.Tokens
import Postit.Properties.TokenExpiry
import Postit.Core.Violations
import Postit.Core.Options
import Postit.Properties.OptionDefaults
import Postit.Properties.ApplicableOptions
import Postit.Framework.Splits
import Postit.Contacts.Export
import Postit.Properties.ExportedRows
import Postit.Framework.Words
import Postit.Core.Compose
import Postit.Properties.ComposedText
import Postit.Core.Measure
import Postit.Properties.ShortenedText
import Postit.Framework.Csv
import Postit.Contacts.Columns
import Postit.Properties.ExportedHeader
import Postit.Identity.Delegations
import Postit.Properties.Delegations
import Postit.Framework.Totals
import Postit.Media.Library
import Postit.Properties.StorageLimits
import Postit.Contacts.Create
import Postit.Properties.Limits
import Postit.Core.Posts
import Postit.Properties.ResolvedVariants
import Postit.Properties.MappedOutcomes
import Postit.Validation.Engine
import Postit.Properties.SafeSchedules
import Postit.Validation.Descriptor
import Postit.Validation.Engine
import Postit.Properties.SafeSchedules
import Postit.Properties.CheckedMedia
import Postit.Properties.SplitCredentials
import Postit.Properties.Rescheduling
import Postit.Properties.Unparking
import Postit.Properties.QuotaPeriods
import Postit.Properties.PostEdits
import Postit.Properties.ProcessingTimeouts
import Postit.Http.Retries
import Postit.Properties.RetriedRequests
import Postit.Properties.RetryPolicies
import Postit.Framework.Chunks
import Postit.AgentKit.Upload
import Postit.Properties.ChunkedUploads
import Postit.Notify.Ece
import Postit.Framework.JsonStrings
import Postit.Notify.Push
import Postit.Properties.PushedNotifications
import Postit.Data.PushEndpoints
import Postit.Notify.Devices
import Postit.Properties.PushedDevices
import Postit.Drafter.Output
import Postit.Drafter.Generate
import Postit.Properties.DraftedTargets
import Postit.Properties.ReconnectReminders
import Postit.Identity.Discovery
import Postit.Properties.ApprovalMails
import Postit.Properties.HiddenMembers
import Postit.Properties.Settings
import Postit.Properties.SigningKeys
import Postit.Framework.Nested
import Postit.Config.Loader
import Postit.Publishing.Publish
