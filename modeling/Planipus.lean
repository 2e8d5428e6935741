import Planipus.Auth.Credentials
import Planipus.Auth.Gate
import Planipus.Auth.Verify.Credentials
import Planipus.Auth.Verify.Gate
import Planipus.Auth.Verify.Limits
import Planipus.Auth.Verify.Server
import Planipus.CalendarSync.Canonical
import Planipus.CalendarSync.CanonicalJson
import Planipus.CalendarSync.Evaluate
import Planipus.CalendarSync.Hours
import Planipus.CalendarSync.LocalTime
import Planipus.CalendarSync.Types
import Planipus.CalendarSync.Verify.CanonicalForm
import Planipus.CalendarSync.Verify.Dates
import Planipus.CalendarSync.Verify.Days
import Planipus.CalendarSync.Verify.Fixpoint
import Planipus.CalendarSync.Verify.Intervals
import Planipus.CalendarSync.Verify.Privacy
import Planipus.ConflictResponse.Coordinator
import Planipus.ConflictResponse.Engine
import Planipus.ConflictResponse.Verify.Budget
import Planipus.ConflictResponse.Verify.Counts
import Planipus.ConflictResponse.Verify.Declines
import Planipus.Connection.Access
import Planipus.Connection.OAuth
import Planipus.Connection.Verify.OAuth
import Planipus.Connection.Verify.Revocation
import Planipus.Connection.Verify.Tables
import Planipus.Database.Migrate
import Planipus.Database.Verify.Migrations
import Planipus.Database.Verify.Rollout
import Planipus.Ingest.Coordinator
import Planipus.Ingest.State
import Planipus.Ingest.Verify.Completeness
import Planipus.Ingest.Verify.Horizon
import Planipus.Ingest.Verify.Listing
import Planipus.Ingest.Verify.Overlap
import Planipus.Jobs.Queue
import Planipus.Jobs.Scheduler
import Planipus.Jobs.Verify.Leases
import Planipus.Jobs.Verify.Statements
import Planipus.Jobs.Verify.Ticks
import Planipus.Jobs.Verify.Wakeups
import Planipus.Jobs.Verify.Windows
import Planipus.Jobs.Workers
import Planipus.Library.Aead
import Planipus.Library.Best
import Planipus.Library.Credentials
import Planipus.Library.Cuts
import Planipus.Library.FixedWindow
import Planipus.Library.History
import Planipus.Library.JsonText
import Planipus.Library.Locks
import Planipus.Library.Machine
import Planipus.Library.Numerals
import Planipus.Library.Outcomes
import Planipus.Library.Prefixed
import Planipus.Library.Progress
import Planipus.Library.Reparse
import Planipus.Library.Rolling
import Planipus.Library.Rows
import Planipus.Library.Tokens
import Planipus.Library.Utf16
import Planipus.Native.CanonicalJson
import Planipus.Native.Coordinator
import Planipus.Native.Domain
import Planipus.Native.Google
import Planipus.Native.Hours
import Planipus.Native.Outbox
import Planipus.Native.Policy
import Planipus.Native.Repository
import Planipus.Native.Session
import Planipus.Native.Stores
import Planipus.Native.Verify.CanonicalBytes
import Planipus.Native.Verify.DeletedCopies
import Planipus.Native.Verify.Deletions
import Planipus.Native.Verify.Destination
import Planipus.Native.Verify.Holds
import Planipus.Native.Verify.HoursAgreement
import Planipus.Native.Verify.LoopFreedom
import Planipus.Native.Verify.NoSync
import Planipus.Native.Verify.Order
import Planipus.Native.Verify.Ownership
import Planipus.Native.Verify.PolicyAgreement
import Planipus.Native.Verify.Reconcile
import Planipus.Native.Verify.Restore
import Planipus.Native.Verify.Session
import Planipus.Native.Verify.Stores
import Planipus.Native.Verify.Truth
import Planipus.Planning.Coordinator
import Planipus.Planning.Engine
import Planipus.Planning.Input
import Planipus.Planning.Rows
import Planipus.Planning.Service
import Planipus.Planning.Validation
import Planipus.Planning.Verify.Choice
import Planipus.Planning.Verify.Drafts
import Planipus.Planning.Verify.Fences
import Planipus.Planning.Verify.Fields
import Planipus.Planning.Verify.Moves
import Planipus.Planning.Verify.Orphans
import Planipus.Planning.Verify.Plans
import Planipus.Planning.Verify.Preview
import Planipus.Planning.Verify.Reasons
import Planipus.Planning.Verify.Reparse
import Planipus.Planning.Verify.Shapes
import Planipus.Planning.Verify.Skips
import Planipus.Planning.Verify.Slots
import Planipus.Planning.Verify.Steps
import Planipus.Policy.Calendars
import Planipus.Policy.Preview
import Planipus.Policy.Protection
import Planipus.Policy.Verify.Agreement
import Planipus.Policy.Verify.Identities
import Planipus.Policy.Verify.NoCopy
import Planipus.Provider.Calendar
import Planipus.Provider.CalendarIdentity
import Planipus.Provider.Google
import Planipus.Provider.Session
import Planipus.Provider.Verify.RoundTrip
import Planipus.Sync.Concurrent
import Planipus.Sync.Effects
import Planipus.Sync.Lookup
import Planipus.Sync.Notices
import Planipus.Sync.Reconciliation
import Planipus.Sync.Recovery
import Planipus.Sync.Rows
import Planipus.Sync.State
import Planipus.Sync.System
import Planipus.Sync.Verification
import Planipus.Sync.Verify.Coherence
import Planipus.Sync.Verify.Convergence
import Planipus.Sync.Verify.Conversation
import Planipus.Sync.Verify.Copies
import Planipus.Sync.Verify.Evaluation
import Planipus.Sync.Verify.EventIds
import Planipus.Sync.Verify.Evidence
import Planipus.Sync.Verify.Freshness
import Planipus.Sync.Verify.Holds
import Planipus.Sync.Verify.Markers
import Planipus.Sync.Verify.Outbox
import Planipus.Sync.Verify.PauseBoundary
import Planipus.Sync.Verify.Promises
import Planipus.Sync.Verify.Quiet
import Planipus.Sync.Verify.Records
import Planipus.Sync.Verify.SelfHolds
import Planipus.Sync.Verify.Stamps
import Planipus.Sync.Verify.Start
