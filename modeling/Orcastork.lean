import Orcastork.Library.Dict
import Orcastork.Library.Upsert
import Orcastork.Library.Workers
import Orcastork.Library.Paging
import Orcastork.Library.Components
import Orcastork.Library.Delimited
import Orcastork.Library.Fence
import Orcastork.Library.FencedRanges
import Orcastork.Library.Raising
import Orcastork.Library.Readable
import Orcastork.Library.TransitionSystem
import Orcastork.Library.Noninterference
import Orcastork.Library.Saturation
import Orcastork.Library.Interleaving
import Orcastork.Library.Keyspace
import Orcastork.Library.Optimistic
import Orcastork.Ids
import Orcastork.Graph.Declarations
import Orcastork.Graph.Builder
import Orcastork.Graph.Cycles
import Orcastork.Graph.BoundedCycles
import Orcastork.Graph.Reachability
import Orcastork.Scheduling.Completion
import Orcastork.Scheduling.Readiness
import Orcastork.Capabilities.Availability
import Orcastork.DataPoints.Base
import Orcastork.Adapters.Memory.Store
import Orcastork.Adapters.Memory.StoreMerge
import Orcastork.Adapters.Memory.MergeLaws
import Orcastork.Adapters.Memory.StoreHistory
import Orcastork.Adapters.Memory.Lock
import Orcastork.Adapters.Memory.LockCalls
import Orcastork.Adapters.Memory.LockSafety
import Orcastork.Adapters.Memory.DurableStore
import Orcastork.Adapters.Memory.Inbox
import Orcastork.Adapters.Memory.InboxCalls
import Orcastork.Adapters.Memory.InboxConservation
import Orcastork.Adapters.Memory.AuditSink
import Orcastork.Adapters.Memory.Archive
import Orcastork.DataPoints.Canonical
import Orcastork.DataPoints.Json
import Orcastork.Archive.Sealing
import Orcastork.Adapters.Redis.Store
import Orcastork.DataPoints.Readability
import Orcastork.DataPoints.IdentityAgreement
import Orcastork.Adapters.Redis.Lock
import Orcastork.Adapters.Redis.LockSimulation
import Orcastork.Adapters.Redis.StoreSimulation
import Orcastork.Adapters.Redis.StoreWrite
import Orcastork.Adapters.Redis.StoreFailures
import Orcastork.Operators.Effects
import Orcastork.Operators.EffectSafety
import Orcastork.Operators.EffectKeys
import Orcastork.Adapters.Redis.Inbox
import Orcastork.Adapters.Redis.InboxSimulation
import Orcastork.Adapters.Mongo.DurableStore
import Orcastork.Adapters.Mongo.Archive
import Orcastork.Adapters.Mongo.ArchiveRows
import Orcastork.Adapters.Mongo.ArchiveFlush
import Orcastork.Adapters.Mongo.ArchiveReads
import Orcastork.Adapters.Mongo.AuditSink
import Orcastork.Adapters.Mongo.AuditSequence
import Orcastork.Durable.SharedOutputs
import Orcastork.Durable.MongoFencing
import Orcastork.Aggregation.Helpers
import Orcastork.Aggregation.FinalIsTerminal
import Orcastork.Orchestrator.Mirror
import Orcastork.Orchestrator.MirrorMerge
import Orcastork.Orchestrator.MirrorSimulation
import Orcastork.Orchestrator.ChangeSets
import Orcastork.Orchestrator.MirrorOverRedis
import Orcastork.Orchestrator.Bookkeeping
import Orcastork.Orchestrator.MergeEffects
import Orcastork.Orchestrator.ArchiveAgreement
import Orcastork.Orchestrator.AuditTrail
import Orcastork.Orchestrator.AuditAccounting
import Orcastork.Orchestrator.Drain
import Orcastork.Orchestrator.DrainProgress
import Orcastork.Orchestrator.DrainIsolation
import Orcastork.Orchestrator.RunOps
import Orcastork.Orchestrator.Superseded
import Orcastork.Orchestrator.Pruning
import Orcastork.Orchestrator.SessionRun
import Orcastork.Scheduling.Watermark
import Orcastork.Scheduling.Debounce
import Orcastork.Capabilities.Activation
import Orcastork.Capabilities.ActivatedView
import Orcastork.Orchestrator.Emissions
import Orcastork.Flow.Definition
import Orcastork.Orchestrator.Plan
import Orcastork.Orchestrator.DueOperators
import Orcastork.Orchestrator.Gather
import Orcastork.Orchestrator.GatherSteps
import Orcastork.Orchestrator.Completions
import Orcastork.Orchestrator.FaultIsolation
import Orcastork.Orchestrator.GatherSoundness
import Orcastork.Orchestrator.OneRun
import Orcastork.Orchestrator.RetryDeltas
import Orcastork.Orchestrator.ArmedRetries
import Orcastork.Orchestrator.DeadLetters
import Orcastork.Aggregation.Retry
import Orcastork.Orchestrator.GatherTasks
import Orcastork.Flow.Legibility
import Orcastork.Flow.Drift
import Orcastork.Manager.TakeoverGuard
import Orcastork.Manager.Session
import Orcastork.Manager.Invariants
import Orcastork.Manager.Coverage
import Orcastork.Manager.Reopen
import Orcastork.Manager.Delivery
import Orcastork.Orchestrator.WatermarksKept
import Orcastork.Orchestrator.Triggers
import Orcastork.Adapters.Redis.RateLimiter
import Orcastork.Adapters.Memory.RateLimiter
import Orcastork.Lite.State
import Orcastork.Lite.Gather
import Orcastork.Lite.Recording
import Orcastork.Lite.FailureReport
import Orcastork.Scheduling.Quiescence
import Orcastork.Orchestrator.Stalls
import Orcastork.Graph.CircuitCaps
import Orcastork.Orchestrator.Introspection
import Orcastork.Library.Endless
import Orcastork.Orchestrator.DeliveryBudget
import Orcastork.Orchestrator.Redrives
import Orcastork.Library.FiniteBounds
import Orcastork.Orchestrator.OperatorView
import Orcastork.Orchestrator.LaunchBudget
import Orcastork.Orchestrator.OneGather
import Orcastork.Orchestrator.BoundedLaunches
import Orcastork.Library.Correspondence
import Orcastork.Orchestrator.TrailRun
import Orcastork.Orchestrator.PairedMerges
import Orcastork.Orchestrator.PairedDrains
import Orcastork.Orchestrator.PiiNoninterference
import Orcastork.Lite.Activation
import Orcastork.Lite.Events
import Orcastork.Lite.Quiescence
import Orcastork.Lite.EventReplay
import Orcastork.Lite.Session
import Orcastork.Orchestrator.InboxWait
import Orcastork.Library.Wakeups
import Orcastork.Adapters.Memory.InboxWakeups
import Orcastork.Adapters.Redis.InboxWakeups
import Orcastork.Library.Places
import Orcastork.Adapters.Mongo.AuditLinear
import Orcastork.Orchestrator.SessionBudget
import Orcastork.Adapters.Mongo.ArchiveAtRest
import Orcastork.Lite.Graph
