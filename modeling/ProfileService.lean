import ProfileService.Library.Coroutine
import ProfileService.Library.Row
import ProfileService.Idempotency.Models
import ProfileService.Application.Exceptions
import ProfileService.Idempotency.World
import ProfileService.Idempotency.Execution
import ProfileService.Idempotency.Coordinator
import ProfileService.Idempotency.Frame
import ProfileService.Idempotency.Durability
import ProfileService.Idempotency.DurableExecution
import ProfileService.Idempotency.CoordinatorSafety
import ProfileService.Idempotency.ExactlyOnce
import ProfileService.Idempotency.RedisHotStore
import ProfileService.Idempotency.Ownership
import ProfileService.Library.JsonText
import ProfileService.Idempotency.Fingerprint
import ProfileService.Application.Commands
import ProfileService.Idempotency.CommandFingerprint
import ProfileService.Idempotency.Answers
import ProfileService.Idempotency.HotHistory
import ProfileService.Idempotency.HotOnly
import ProfileService.Idempotency.Exclusion
import ProfileService.Idempotency.Redelivery
import ProfileService.Idempotency.Warming
import ProfileService.Idempotency.Attempt
import ProfileService.Idempotency.Classification
import ProfileService.Domain.Aggregates
import ProfileService.Application.PublicPrivacy
import ProfileService.Resilience.BreakerSafety
import ProfileService.Resilience.BreakerTrace
import ProfileService.Idempotency.ClaimedExecution
import ProfileService.Idempotency.LeaseDiscipline
import ProfileService.Infrastructure.Tables
import ProfileService.Infrastructure.Storable
import ProfileService.Application.Handlers
import ProfileService.Infrastructure.Repositories
import ProfileService.Entrypoints.Schemas
import ProfileService.Infrastructure.Session
import ProfileService.Entrypoints.PatchSemantics
import ProfileService.Infrastructure.Database
import ProfileService.Idempotency.Escapes
import ProfileService.Application.Dispatching
import ProfileService.Entrypoints.Routes
import ProfileService.Infrastructure.Concurrency
import ProfileService.Entrypoints.ExpectedErrors
import ProfileService.Library.Pattern
import ProfileService.Entrypoints.VersionETag
import ProfileService.Idempotency.StorageKeys
import ProfileService.Library.FixedPoint
import ProfileService.Idempotency.Decimals
import ProfileService.Application.BatchReads
import ProfileService.Entrypoints.RequestLifecycle
import ProfileService.Entrypoints.HeaderlessStart
import ProfileService.Domain.Mutators
import ProfileService.Infrastructure.Hydration
import ProfileService.Idempotency.PayloadTree
import ProfileService.Idempotency.Reordering
import ProfileService.Library.JsonLimits
import ProfileService.Idempotency.FingerprintErrors
import ProfileService.Library.OffsetTime
import ProfileService.Library.JsonDict
import ProfileService.Idempotency.Snapshots
import ProfileService.Entrypoints.ErrorAnswers
import ProfileService.Library.RowTrace
import ProfileService.Infrastructure.RowHistory
import ProfileService.Entrypoints.CommandRuns
import ProfileService.Entrypoints.LostUpdates
import ProfileService.Entrypoints.Provisioning
import ProfileService.Entrypoints.CommittedAnswers
import ProfileService.Idempotency.GuardedHotStore
import ProfileService.Idempotency.BreakerTransparency
import ProfileService.Idempotency.Lookups
import ProfileService.Entrypoints.Duplicates
import ProfileService.Entrypoints.ThirdPartyReads
import ProfileService.Library.Discipline
import ProfileService.Infrastructure.RowLocks
import ProfileService.Entrypoints.LockOrder
import ProfileService.Entrypoints.Deadlocks
import ProfileService.Entrypoints.HandlerRuns
import ProfileService.Entrypoints.BothHalves
import ProfileService.Idempotency.SequentialCoordinator
import ProfileService.Library.ReplayMap
import ProfileService.Application.ReplayedDispatches
