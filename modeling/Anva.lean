import Anva.Lib.Atomic
import Anva.Lib.Bisection
import Anva.Lib.Contract
import Anva.Lib.History
import Anva.Lib.Intervals
import Anva.Lib.JsonText
import Anva.Lib.Keyset
import Anva.Lib.Ledger
import Anva.Lib.Masks
import Anva.Lib.Packing
import Anva.Lib.Pattern
import Anva.Lib.Phrases
import Anva.Lib.Raises
import Anva.Lib.Rewrites
import Anva.Lib.Sorting
import Anva.Lib.Table
import Anva.Lib.Transition
import Anva.Lib.Versions
import Anva.Lib.Walks
import Anva.Lib.Windows
import Anva.Lib.Worklist
import Anva.Core.Inputs
import Anva.Core.Json
import Anva.Core.Lines
import Anva.Core.Result
import Anva.Core.Text
import Anva.Diff.Accounting
import Anva.Diff.Coordinates
import Anva.Diff.Parser
import Anva.Diff.Readings
import Anva.Diff.Render
import Anva.Diff.RoundTrip
import Anva.Access.Agreement
import Anva.Access.Authorize
import Anva.Access.Batch
import Anva.Access.Credentials
import Anva.Access.Events
import Anva.Access.Keys
import Anva.Access.Replacement
import Anva.Access.Store
import Anva.Access.Tokens
import Anva.Policies.Additive
import Anva.Policies.Content
import Anva.Policies.Determinism
import Anva.Policies.Evaluate
import Anva.Policies.Globbing
import Anva.Policies.Import
import Anva.Policies.Importing
import Anva.Policies.Merge
import Anva.Policies.Override
import Anva.Policies.OverrideScope
import Anva.Policies.Reading
import Anva.Policies.Store
import Anva.Policies.System
import Anva.Policies.Versioning
import Anva.Policies.Withdrawal
import Anva.Intent.Approval
import Anva.Intent.Store
import Anva.Intent.Withdrawal
import Anva.Jobs.Invariant
import Anva.Jobs.Progress
import Anva.Jobs.Queue
import Anva.Jobs.System
import Anva.Jobs.Worker
import Anva.Graph.Batch
import Anva.Graph.Incident
import Anva.Graph.Traverse
import Anva.Graph.Truncation
import Anva.Retrieval.Agreement
import Anva.Retrieval.Batch
import Anva.Retrieval.Excerpt
import Anva.Retrieval.Search
import Anva.Retrieval.Store
import Anva.Evidence.Archive
import Anva.Evidence.Documents
import Anva.Evidence.FailsClosed
import Anva.Evidence.Layout
import Anva.Evidence.Readers
import Anva.Evidence.Upload
import Anva.Criteria.Agreement
import Anva.Criteria.Database
import Anva.Criteria.Exact
import Anva.Criteria.Guards
import Anva.Criteria.Histories
import Anva.Criteria.Mapping
import Anva.Criteria.Submission
import Anva.Work.Import
import Anva.Work.Importers
import Anva.Work.Store
import Anva.Work.Versioning
import Anva.Context.Candidates
import Anva.Context.Canonical
import Anva.Context.Complete
import Anva.Context.Forgetting
import Anva.Context.Packing
import Anva.Context.Reservation
import Anva.Context.Scanned
import Anva.Context.Scanning
import Anva.Context.Select
import Anva.Ingestion.Current
import Anva.Ingestion.Discovered
import Anva.Ingestion.Drift
import Anva.Ingestion.Execute
import Anva.Ingestion.Filesystem
import Anva.Ingestion.Grows
import Anva.Ingestion.Linked
import Anva.Ingestion.Process
import Anva.Ingestion.Processed
import Anva.Ingestion.Retries
import Anva.Ingestion.Runs
import Anva.Ingestion.Saves
import Anva.Ingestion.Store
import Anva.Ingestion.Syncing
import Anva.Ingestion.Tombstones
import Anva.Ingestion.Transitions
import Anva.Ingestion.Untouched
import Anva.Ingestion.Walk
import Anva.Github.Backlog
import Anva.Github.Comments
import Anva.Github.Dispatch
import Anva.Github.Fencing
import Anva.Github.Linked
import Anva.Github.Moves
import Anva.Github.Publication
import Anva.Github.Queue
import Anva.Github.Scanning
import Anva.Assurance.Effects
import Anva.Assurance.Evaluator
import Anva.Assurance.Guards
import Anva.Assurance.Protocol
import Anva.Assurance.Services
import Anva.Assurance.States
import Anva.Assurance.Tasks
import Anva.Canvas.Assertions
import Anva.Canvas.Commands
import Anva.Canvas.Current
import Anva.Canvas.Listing
import Anva.Canvas.Opening
import Anva.Canvas.Presentation
import Anva.Canvas.Repeats
import Anva.Canvas.Revisions
import Anva.Canvas.Sharing
import Anva.Canvas.Surfaces
import Anva.Canvas.Views
import Anva.Packets.Canonical
import Anva.Packets.Digests
import Anva.Review.Assertions
import Anva.Review.Corrections
import Anva.Review.Packets
import Anva.Reports.Accounting
import Anva.Reports.DeploymentClaims
import Anva.Reports.Harmless
import Anva.Reports.Readiness
import Anva.Reports.Rendering
import Anva.Reports.Renditions
import Anva.Reports.Sanitized
import Anva.Reports.Sanitizing
import Anva.Scopes.Derived
import Anva.Scopes.Revocation
import Anva.Scopes.Sources
import Anva.Scopes.Store
import Anva.Limits.Bounds
import Anva.Limits.Buckets
import Anva.Limits.Charging
import Anva.Limits.Windows
import Anva.Streams.Chunking
import Anva.Streams.Independence
import Anva.Webhooks.Documented
import Anva.Webhooks.FailsClosed
import Anva.Webhooks.Parsing
import Anva.Parsing.Citations
import Anva.Parsing.Documents
import Anva.Parsing.Pointers
import Anva.Discovery.Connector
import Anva.Discovery.Pages
import Anva.Discovery.Walked
import Anva.Pulls.Bracketed
import Anva.Pulls.Ingest
import Anva.Pulls.Refresh
import Anva.Pulls.Revisions
import Anva.Projection.Budget
import Anva.Projection.Maximal
import Anva.Projection.Payload
import Anva.Retention.Agreement
import Anva.Retention.Decommission
import Anva.Retention.Retries
import Anva.Retention.Stranded
import Anva.Retention.Surface
import Anva.Handoff.Atomic
import Anva.Handoff.Secret
import Anva.Bootstrap.Exact
import Anva.Bootstrap.Scope
import Anva.Tenancy.Administered
import Anva.Tenancy.Memberships
import Anva.Release.Exact
import Anva.Release.Gate
import Anva.Release.Report
import Anva.Release.Suppressed
