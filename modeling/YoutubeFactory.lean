import YoutubeFactory.Python.Object
import YoutubeFactory.Python.Numbers
import YoutubeFactory.Workflow.Expressions
import YoutubeFactory.Python.Value
import YoutubeFactory.Workflow.Refusal
import YoutubeFactory.Workflow.Agreement
import YoutubeFactory.Workflow.Size
import YoutubeFactory.Workflow.Visits
import YoutubeFactory.Workflow.Growth
import YoutubeFactory.Billing.Models
import YoutubeFactory.Lib.Run
import YoutubeFactory.Billing.Gateway
import YoutubeFactory.Billing.Conservation
import YoutubeFactory.Billing.Charge
import YoutubeFactory.Billing.Periods
import YoutubeFactory.Lib.Excess
import YoutubeFactory.Billing.Overage
import YoutubeFactory.Billing.BilledOnce
import YoutubeFactory.Billing.Numbers
import YoutubeFactory.Auth.Tokens
import YoutubeFactory.Auth.Replay
import YoutubeFactory.Pipeline.Models
import YoutubeFactory.Pipeline.Service
import YoutubeFactory.Lib.Stateful
import YoutubeFactory.Pipeline.Flight
import YoutubeFactory.Lib.Layers
import YoutubeFactory.Workflow.Graph
import YoutubeFactory.Workflow.LongestPaths
import YoutubeFactory.Workflow.Loops
import YoutubeFactory.Python.Failures
import YoutubeFactory.Workflow.Escapes
import YoutubeFactory.Workflow.Engine
import YoutubeFactory.Workflow.Semantics
import YoutubeFactory.Workflow.History
import YoutubeFactory.Billing.Settlement
import YoutubeFactory.Billing.Status
import YoutubeFactory.Lib.OrderedMap
import YoutubeFactory.Lib.Sorting
import YoutubeFactory.Plugins.Registry
import YoutubeFactory.Plugins.Dispatch
import YoutubeFactory.Plugins.Heap
import YoutubeFactory.Plugins.ReadOnly
import YoutubeFactory.Pipeline.Listing
import YoutubeFactory.Pipeline.Versions
import YoutubeFactory.Pipeline.Freshness
import YoutubeFactory.Workflow.Order
import YoutubeFactory.Billing.ConcurrentRefunds
import YoutubeFactory.Billing.ConcurrentCharges
import YoutubeFactory.Auth.Chain
import YoutubeFactory.Auth.ConcurrentRotation
import YoutubeFactory.Access.Rbac
import YoutubeFactory.Billing.Subscriptions
import YoutubeFactory.Lib.Tenancy
import YoutubeFactory.Lib.Rollup
import YoutubeFactory.Lib.Paging
import YoutubeFactory.Repositories.Base
import YoutubeFactory.Repositories.Paging
import YoutubeFactory.Billing.Routes
import YoutubeFactory.Access.ApiKeys
import YoutubeFactory.Access.RateLimit
import YoutubeFactory.Access.PublicApi
import YoutubeFactory.Access.Membership
import YoutubeFactory.Content.Routes
import YoutubeFactory.Agents.Runs
import YoutubeFactory.Agents.Routes
import YoutubeFactory.Agents.Tenancy
import YoutubeFactory.Lib.Noninterference
import YoutubeFactory.Llm.Services
import YoutubeFactory.Llm.Routes
import YoutubeFactory.Llm.Tenancy
import YoutubeFactory.Llm.Versions
import YoutubeFactory.Llm.Turns
import YoutubeFactory.Llm.Accounting
import YoutubeFactory.Auth.Accounts
import YoutubeFactory.Auth.AccountCalls
import YoutubeFactory.Auth.AuditTrail
import YoutubeFactory.Auth.SignIn
import YoutubeFactory.Auth.SessionRequests
import YoutubeFactory.Auth.Revocation
import YoutubeFactory.Auth.LoginGuard
import YoutubeFactory.Access.Windows
import YoutubeFactory.Workflow.Cron
import YoutubeFactory.Lib.Budget
import YoutubeFactory.Lib.CronFields
import YoutubeFactory.Workflow.CronMeaning
import YoutubeFactory.Workflow.Calendar
import YoutubeFactory.Workflow.Triggers
import YoutubeFactory.Workflow.TriggerIsolation
import YoutubeFactory.Workflow.Polling
import YoutubeFactory.LlmCore.Anthropic
import YoutubeFactory.LlmCore.Cache
import YoutubeFactory.LlmCore.Manager
import YoutubeFactory.LlmCore.Transient
import YoutubeFactory.LlmCore.OpenBreaker
import YoutubeFactory.Jobs.QueueJobs
import YoutubeFactory.Jobs.Lifecycle
import YoutubeFactory.Webhooks.Deliveries
import YoutubeFactory.Webhooks.Schedule
import YoutubeFactory.Cache.Service
import YoutubeFactory.Tasks.InMemoryQueue
import YoutubeFactory.Tasks.Settled
import YoutubeFactory.Pipeline.Metering
import YoutubeFactory.Billing.Quotas
import YoutubeFactory.Billing.UsageReports
import YoutubeFactory.AgentWorkflow.Engine
import YoutubeFactory.AgentWorkflow.Batches
import YoutubeFactory.AgentWorkflow.Failure
import YoutubeFactory.AgentWorkflow.Order
import YoutubeFactory.AgentCore.Tasks
import YoutubeFactory.AgentCore.TopologicalOrder
import YoutubeFactory.AgentCore.Run
import YoutubeFactory.AgentCore.Lifecycle
import YoutubeFactory.AgentCore.Context
import YoutubeFactory.AgentCore.Executor
import YoutubeFactory.AgentCore.Planner
import YoutubeFactory.AgentCore.Agent
import YoutubeFactory.AgentCore.Spending
import YoutubeFactory.Lib.Rounds
import YoutubeFactory.AgentCore.Completion
import YoutubeFactory.AgentCore.Replanning
import YoutubeFactory.AgentCore.Recovery
import YoutubeFactory.AgentCore.Scheduler
import YoutubeFactory.Lib.ForEach
import YoutubeFactory.Lib.Numbering
import YoutubeFactory.Access.PublicVideos
import YoutubeFactory.AgentCore.RecoveredOnce
import YoutubeFactory.AgentCore.Plans
import YoutubeFactory.AgentCore.Accounting
import YoutubeFactory.Lib.Bookkeeping
import YoutubeFactory.AgentCore.MessageBus
import YoutubeFactory.LlmCore.Memory
import YoutubeFactory.Lib.Backtracking
import YoutubeFactory.Python.Loads
import YoutubeFactory.LlmCore.Structured
import YoutubeFactory.Llm.Transcripts
import YoutubeFactory.Llm.PromptTexts
import YoutubeFactory.Events.EventBus
import YoutubeFactory.Jobs.Renders
import YoutubeFactory.Lib.Batches
import YoutubeFactory.Notifications.Inbox
import YoutubeFactory.Lib.Capped
import YoutubeFactory.Lib.Cumulative
import YoutubeFactory.Python.Floats
import YoutubeFactory.Observability.Metrics
import YoutubeFactory.Observability.Histogram
import YoutubeFactory.Observability.Series
import YoutubeFactory.Lib.Exposition
import YoutubeFactory.Observability.Labels
import YoutubeFactory.Observability.Traceparent
import YoutubeFactory.Lib.Managers
import YoutubeFactory.Observability.Spans
import YoutubeFactory.Access.Invitations
import YoutubeFactory.Lib.Shortening
import YoutubeFactory.Plugins.Builtin
import YoutubeFactory.Lib.FirstKept
import YoutubeFactory.AgentCore.Lessons
import YoutubeFactory.Lib.FirstMax
import YoutubeFactory.AgentCore.Registry
import YoutubeFactory.Lib.FixedWindow
import YoutubeFactory.Access.FixedWindow
import YoutubeFactory.Lib.FileTree
import YoutubeFactory.Observability.Tallies
import YoutubeFactory.Storage.Local
import YoutubeFactory.Storage.Metered
import YoutubeFactory.Storage.Areas
import YoutubeFactory.Storage.Uploads
import YoutubeFactory.Pipeline.Mock
import YoutubeFactory.Pipeline.Artifacts
import YoutubeFactory.Python.Dumps
import YoutubeFactory.Cache.Texts
import YoutubeFactory.LlmCore.ResponseCache
import YoutubeFactory.Lib.Frames
import YoutubeFactory.Llm.ServerEvents
import YoutubeFactory.Observability.Requests
import YoutubeFactory.Lib.Semaphore
import YoutubeFactory.LlmCore.Slots
