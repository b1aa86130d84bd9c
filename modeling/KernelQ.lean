import KernelQ.Foundation.Runs
import KernelQ.Foundation.Service
import KernelQ.Foundation.TurnTaking
import KernelQ.Foundation.ClaimedKeys
import KernelQ.Foundation.KeyedTable
import KernelQ.Foundation.OrderedSelection
import KernelQ.Foundation.Text
import KernelQ.Foundation.JsonStyle
import KernelQ.Foundation.JsonBytes
import KernelQ.Foundation.Hysteresis
import KernelQ.Foundation.NearestRank
import KernelQ.Foundation.StructDecoding
import KernelQ.ControlPlane.JobState
import KernelQ.ControlPlane.IdempotencyKeys
import KernelQ.ControlPlane.JobRepository
import KernelQ.ControlPlane.SchedulerConservation
import KernelQ.ControlPlane.SchedulerRefinement
import KernelQ.ControlPlane.ResultEvent
import KernelQ.ControlPlane.ResultFormat
import KernelQ.ControlPlane.ResultHandler
import KernelQ.ControlPlane.Api
import KernelQ.ControlPlane.System
import KernelQ.ControlPlane.ResultLaws
import KernelQ.ControlPlane.RequestRaces
import KernelQ.ControlPlane.RetryScheduling
import KernelQ.ControlPlane.IdempotencyStore
import KernelQ.ControlPlane.ResultConsumer
import KernelQ.ControlPlane.SchedulerTick
import KernelQ.ControlPlane.DispatchFreshness
import KernelQ.ControlPlane.ConcurrentClaims
import KernelQ.Worker.DispatchEvent
import KernelQ.Worker.ExecutionIdempotencyKey
import KernelQ.Pipeline.DispatchContract
import KernelQ.Worker.ResultEvent
import KernelQ.Worker.Handler
import KernelQ.Worker.Consumer
import KernelQ.Pipeline.ResultContract
import KernelQ.Pipeline.Machine
import KernelQ.Pipeline.Deduplication
import KernelQ.Foundation.Transactions
import KernelQ.ControlPlane.RepositorySession
import KernelQ.ControlPlane.RepositoryRecovery
import KernelQ.ControlPlane.RetryBudget
import KernelQ.ControlPlane.TickCompletion
import KernelQ.Foundation.Programs
import KernelQ.Foundation.Threads
import KernelQ.Worker.ConcurrentHandlers
import KernelQ.ControlPlane.ConcurrentRunners
import KernelQ.Worker.KafkaConsumer
import KernelQ.Worker.QueueAccounting
import KernelQ.Worker.DeadLetters
import KernelQ.Worker.DeadLetterRecords
import KernelQ.Worker.BackpressurePolicy
import KernelQ.ControlPlane.ClaimExpiry
import KernelQ.Pipeline.ExecutionKeys
import KernelQ.ControlPlane.KeyIdentity
import KernelQ.ControlPlane.SchedulerPeek
import KernelQ.ControlPlane.OrderedScans
import KernelQ.ControlPlane.RowHistory
import KernelQ.ControlPlane.TickTurns
import KernelQ.ControlPlane.FailedPublishes
import KernelQ.ControlPlane.RedisStore
import KernelQ.ControlPlane.SchedulerPriority
import KernelQ.ControlPlane.SchedulerTenantPriority
import KernelQ.ControlPlane.JobMetrics
import KernelQ.Worker.ConcurrentBackpressure
import KernelQ.Worker.PooledProcessing
import KernelQ.ControlPlane.SchedulerMetrics
import KernelQ.ControlPlane.LogEvents
import KernelQ.Worker.MetricsRegistry
import KernelQ.ControlPlane.WeightReduction
import KernelQ.Worker.FaultBudget
import KernelQ.Pipeline.SecondAttempts
import KernelQ.ControlPlane.BoundedQueue
import KernelQ.ControlPlane.SchedulerComparison
import KernelQ.Worker.GrpcServer
import KernelQ.Pipeline.FirstAttempts
import KernelQ.Pipeline.SharedRedis
import KernelQ.Pipeline.RetryCycle
import KernelQ.Foundation.Binary64
import KernelQ.ControlPlane.CallsAlone
import KernelQ.ControlPlane.UnexpiredClaims
