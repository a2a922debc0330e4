import Fluxa.Members.LastOwner
import Fluxa.Members.Authority
import Fluxa.Members.Pending
import Fluxa.Members.Access
import Fluxa.Outboxes.Outcomes
import Fluxa.Labels.Replacement
import Fluxa.Jobs.Fencing
import Fluxa.Jobs.Consistency
import Fluxa.Jobs.Claims
import Fluxa.Jobs.Pending
import Fluxa.Jobs.Cadence
import Fluxa.Sessions.RefreshChains
import Fluxa.Sessions.Termination
import Fluxa.Sessions.Denylist
import Fluxa.Accounts.Evidence
import Fluxa.Accounts.Tokens
import Fluxa.Accounts.Resets
import Fluxa.Accounts.Logins
import Fluxa.Accounts.Mails
import Fluxa.Tasks.Archiving
import Fluxa.Tasks.Coherence
import Fluxa.Tasks.Exports
import Fluxa.Attachments.Limit
import Fluxa.Feeds.Traversals
import Fluxa.Reminders.Windows
import Fluxa.Webhooks.Limit
import Fluxa.Limits.RateLimit
import Fluxa.Hosts.Targets
import Fluxa.Reminders.Sweeps
import Fluxa.Idempotency.Once
import Fluxa.Tasks.CsvExport
import Fluxa.Tasks.BulkStatus
import Fluxa.Limits.RetryAfter
import Fluxa.Limits.Skew
import Fluxa.Limits.AuthLimit
import Fluxa.Tasks.Search
import Fluxa.Accounts.Atomicity
import Fluxa.Outboxes.Leases
import Fluxa.Idempotency.Markers
import Fluxa.Reminders.Recipients
import Fluxa.Sessions.Purge
import Fluxa.Reminders.Reexecution
import Fluxa.Tenants.References
import Fluxa.Tenants.Writes
import Fluxa.Tenants.Closure
import Fluxa.Tenants.Isolation
import Fluxa.Keys.Redis
import Fluxa.Attachments.Downloads
import Fluxa.Tasks.Trail
import Fluxa.Tasks.Replay
import Fluxa.Tasks.Authors
import Fluxa.Tasks.Dashboard
import Fluxa.Settings.Running
