import WorkforceRisk.Alerts.Inbox
import WorkforceRisk.Alerts.Notifications
import WorkforceRisk.Alerts.Repository
import WorkforceRisk.Alerts.Route
import WorkforceRisk.Alerts.Rules
import WorkforceRisk.Auth.ApiKeys
import WorkforceRisk.Auth.Investigator
import WorkforceRisk.Auth.IssuedKeys
import WorkforceRisk.Auth.Keys
import WorkforceRisk.Auth.Revocation
import WorkforceRisk.Comments.Classifier
import WorkforceRisk.Comments.Evidence
import WorkforceRisk.Contracts.Auth
import WorkforceRisk.Contracts.Principal
import WorkforceRisk.Contracts.Token
import WorkforceRisk.Dashboard.Assignments
import WorkforceRisk.Dashboard.Conservation
import WorkforceRisk.Dashboard.Profiles
import WorkforceRisk.Dashboard.Service
import WorkforceRisk.Dashboard.Totals
import WorkforceRisk.Devops.Logs
import WorkforceRisk.Devops.Secrets
import WorkforceRisk.Evidence.Blocked
import WorkforceRisk.Evidence.Collector
import WorkforceRisk.Evidence.Completeness
import WorkforceRisk.Evidence.Dependencies
import WorkforceRisk.Evidence.Derivation
import WorkforceRisk.Evidence.Focus
import WorkforceRisk.Evidence.Grounding
import WorkforceRisk.Evidence.Names
import WorkforceRisk.Evidence.Normalizer
import WorkforceRisk.Evidence.Numbers
import WorkforceRisk.Evidence.Phrases
import WorkforceRisk.Evidence.Planner
import WorkforceRisk.Evidence.Provider
import WorkforceRisk.Evidence.Text
import WorkforceRisk.Evidence.WellFormed
import WorkforceRisk.Graph.Endpoint
import WorkforceRisk.Graph.Handoffs
import WorkforceRisk.Graph.Intents
import WorkforceRisk.Graph.Investigations
import WorkforceRisk.Graph.Workflow
import WorkforceRisk.Historical.Projects
import WorkforceRisk.Historical.ReadBack
import WorkforceRisk.Historical.Reader
import WorkforceRisk.Historical.Recorded
import WorkforceRisk.Jira.Client
import WorkforceRisk.Jira.Evidence
import WorkforceRisk.Jira.Labels
import WorkforceRisk.Jira.Mutation
import WorkforceRisk.Jira.Normalize
import WorkforceRisk.Jira.Scope
import WorkforceRisk.Jira.SingleEdit
import WorkforceRisk.Jira.Totality
import WorkforceRisk.Lib.Base64
import WorkforceRisk.Lib.Breaker
import WorkforceRisk.Lib.ChangeLog
import WorkforceRisk.Lib.Dict
import WorkforceRisk.Lib.FixedWindow
import WorkforceRisk.Lib.Floats
import WorkforceRisk.Lib.Grouping
import WorkforceRisk.Lib.HashChain
import WorkforceRisk.Lib.Jql
import WorkforceRisk.Lib.JqlQuery
import WorkforceRisk.Lib.JsonText
import WorkforceRisk.Lib.Labelled
import WorkforceRisk.Lib.Ordering
import WorkforceRisk.Lib.Process
import WorkforceRisk.Lib.PyValue
import WorkforceRisk.Lib.Raising
import WorkforceRisk.Lib.Redaction
import WorkforceRisk.Lib.Regex
import WorkforceRisk.Lib.RegexSemantics
import WorkforceRisk.Lib.Retry
import WorkforceRisk.Lib.Rounding
import WorkforceRisk.Lib.Rows
import WorkforceRisk.Lib.Selection
import WorkforceRisk.Lib.Signed
import WorkforceRisk.Lib.StateGraph
import WorkforceRisk.Lib.Table
import WorkforceRisk.Lib.Transactions
import WorkforceRisk.Lib.Windows
import WorkforceRisk.Lib.Worlds
import WorkforceRisk.Llm.Bedrock
import WorkforceRisk.Llm.Circuit
import WorkforceRisk.Llm.Validation
import WorkforceRisk.Mcp.ProfileTools
import WorkforceRisk.Mcp.ReassignmentTools
import WorkforceRisk.Notifications.Acknowledged
import WorkforceRisk.Notifications.Claims
import WorkforceRisk.Notifications.Deliverable
import WorkforceRisk.Notifications.Exclusive
import WorkforceRisk.Notifications.Worker
import WorkforceRisk.Persistence.Audit
import WorkforceRisk.Persistence.AuditChain
import WorkforceRisk.Persistence.Calendar
import WorkforceRisk.Persistence.Canonical
import WorkforceRisk.Persistence.Dates
import WorkforceRisk.Persistence.DomainChain
import WorkforceRisk.Persistence.Outbox
import WorkforceRisk.Persistence.Tampering
import WorkforceRisk.Persistence.Values
import WorkforceRisk.Profiles.AuditTrail
import WorkforceRisk.Profiles.Capacity
import WorkforceRisk.Profiles.Model
import WorkforceRisk.Profiles.Repository
import WorkforceRisk.Progress.Changes
import WorkforceRisk.Progress.History
import WorkforceRisk.Progress.Latest
import WorkforceRisk.Progress.Loaded
import WorkforceRisk.Progress.Observation
import WorkforceRisk.Progress.Replay
import WorkforceRisk.Progress.Repository
import WorkforceRisk.Progress.Uniqueness
import WorkforceRisk.Proposals.Approval
import WorkforceRisk.Proposals.ExecutionStore
import WorkforceRisk.Proposals.Idempotency
import WorkforceRisk.Proposals.Kept
import WorkforceRisk.Proposals.Leases
import WorkforceRisk.Proposals.Lockstep
import WorkforceRisk.Proposals.Operations
import WorkforceRisk.Proposals.Reconciliation
import WorkforceRisk.Proposals.Records
import WorkforceRisk.Proposals.Repository
import WorkforceRisk.Proposals.Scope
import WorkforceRisk.Proposals.Services
import WorkforceRisk.Proposals.Simulated
import WorkforceRisk.Proposals.SingleWrite
import WorkforceRisk.Proposals.State
import WorkforceRisk.Proposals.Versions
import WorkforceRisk.Risk.Models
import WorkforceRisk.Scans.ExactlyOnce
import WorkforceRisk.Scans.LatestRisk
import WorkforceRisk.Scans.Moves
import WorkforceRisk.Scans.OneRunning
import WorkforceRisk.Scans.Pipeline
import WorkforceRisk.Scans.Service
import WorkforceRisk.Scans.Sink
import WorkforceRisk.Scenario.Cleanup
import WorkforceRisk.Scenario.Convergence
import WorkforceRisk.Scenario.Definition
import WorkforceRisk.Scenario.Fields
import WorkforceRisk.Scenario.Lifecycle
import WorkforceRisk.Scenario.RoundTrip
import WorkforceRisk.Scenario.Seeding
import WorkforceRisk.Scenario.SeedingRuns
import WorkforceRisk.Scenario.Stepping
import WorkforceRisk.Scenario.Store
import WorkforceRisk.Scoring.Accounts
import WorkforceRisk.Scoring.Common
import WorkforceRisk.Scoring.Directions
import WorkforceRisk.Scoring.Levels
import WorkforceRisk.Scoring.Monotone
import WorkforceRisk.Scoring.Scorers
import WorkforceRisk.Security.AuditMetadata
import WorkforceRisk.Security.Limits
import WorkforceRisk.Simulation.Candidates
import WorkforceRisk.Simulation.Service
import WorkforceRisk.Snapshots.Fingerprint
import WorkforceRisk.Snapshots.Repository
import WorkforceRisk.Tasks.Confinement
import WorkforceRisk.Tasks.Query
