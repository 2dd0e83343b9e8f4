import Yascheduler.Application.AbandonNode
import Yascheduler.Application.Aiida
import Yascheduler.Application.AllocateTask
import Yascheduler.Application.Answers
import Yascheduler.Application.BoundedQueues
import Yascheduler.Application.Changes
import Yascheduler.Application.ConnectionLoss
import Yascheduler.Application.ConsumeTask
import Yascheduler.Application.DataFlow
import Yascheduler.Application.DeallocateNodes
import Yascheduler.Application.Footprints
import Yascheduler.Application.Holdings
import Yascheduler.Application.InputFiles
import Yascheduler.Application.ManageNode
import Yascheduler.Application.Memory
import Yascheduler.Application.MessageBus
import Yascheduler.Application.NodeChanges
import Yascheduler.Application.NodeTarget
import Yascheduler.Application.Orchestrator
import Yascheduler.Application.Queue
import Yascheduler.Application.Reservation
import Yascheduler.Application.Rules
import Yascheduler.Application.Shutdown
import Yascheduler.Application.Snapshot
import Yascheduler.Application.StartInvariant
import Yascheduler.Application.StartProtocol
import Yascheduler.Application.StartSteps
import Yascheduler.Application.StartTask
import Yascheduler.Application.SubmitTask
import Yascheduler.Application.Transactions
import Yascheduler.Application.UnitOfWork
import Yascheduler.Application.World
import Yascheduler.Async.Contract
import Yascheduler.Async.Coroutine
import Yascheduler.Async.Footprint
import Yascheduler.Async.Invariant
import Yascheduler.Async.Logic
import Yascheduler.Async.Machine
import Yascheduler.Async.Pool
import Yascheduler.Async.Product
import Yascheduler.Async.Script
import Yascheduler.Async.Shared
import Yascheduler.Async.Solo
import Yascheduler.Async.Started
import Yascheduler.Async.Trace
import Yascheduler.Codec.Base64
import Yascheduler.Codec.Interpolation
import Yascheduler.Codec.Lines
import Yascheduler.Codec.PosixPath
import Yascheduler.Codec.Text
import Yascheduler.Domain
import Yascheduler.Infra.CloudAdapters
import Yascheduler.Infra.CloudProvisioner
import Yascheduler.Infra.CloudUtils
import Yascheduler.Infra.ConfigParser
import Yascheduler.Infra.Database
import Yascheduler.Infra.Migrations
import Yascheduler.Infra.Providers.Azure
import Yascheduler.Infra.Providers.Hetzner
import Yascheduler.Infra.Providers.Http
import Yascheduler.Infra.Providers.Upcloud
import Yascheduler.Infra.Providers.UpcloudCreation
import Yascheduler.Infra.Providers.VastAI
import Yascheduler.Infra.Providers.Vultr
import Yascheduler.Infra.PyMigration
import Yascheduler.Infra.Session
import Yascheduler.Infra.SessionMonitor
import Yascheduler.Infra.SshRepository
import Yascheduler.Infra.TaskRepository
import Yascheduler.Json
import Yascheduler.Lifecycle
import Yascheduler.Safety.AiidaJobs
import Yascheduler.Safety.AllocationBatch
import Yascheduler.Safety.AllocationCleanup
import Yascheduler.Safety.AzureCreation
import Yascheduler.Safety.BestProviders
import Yascheduler.Safety.Booking
import Yascheduler.Safety.Capacity
import Yascheduler.Safety.Claims
import Yascheduler.Safety.ConfiguredClouds
import Yascheduler.Safety.ConnectGrace
import Yascheduler.Safety.CreationLaw
import Yascheduler.Safety.Downloads
import Yascheduler.Safety.Endpoints
import Yascheduler.Safety.Events
import Yascheduler.Safety.Execution
import Yascheduler.Safety.FailedConnects
import Yascheduler.Safety.FreeMachines
import Yascheduler.Safety.IdleNodes
import Yascheduler.Safety.InputFiles
import Yascheduler.Safety.JumpFields
import Yascheduler.Safety.LenientBase64
import Yascheduler.Safety.Lifecycle
import Yascheduler.Safety.LostMachines
import Yascheduler.Safety.Metadata
import Yascheduler.Safety.Migrations
import Yascheduler.Safety.MonitorProtocol
import Yascheduler.Safety.NodeReferences
import Yascheduler.Safety.NodeTargets
import Yascheduler.Safety.Occupancy
import Yascheduler.Safety.OrphanedCreations
import Yascheduler.Safety.ProducerCycles
import Yascheduler.Safety.Provisioning
import Yascheduler.Safety.PyMigrations
import Yascheduler.Safety.Queue
import Yascheduler.Safety.Reconciling
import Yascheduler.Safety.RemovedNodes
import Yascheduler.Safety.RentedInstances
import Yascheduler.Safety.RetryLaw
import Yascheduler.Safety.Shutdown
import Yascheduler.Safety.StatusOrder
import Yascheduler.Safety.SubmittedData
import Yascheduler.Safety.UpcloudDeletion
import Yascheduler.Safety.VerifiedDeletion
import Yascheduler.Shared.Retry
import Yascheduler.Store.Dict
import Yascheduler.Store.References
import Yascheduler.Store.RowStore
import Yascheduler.Store.Watermark
import Yascheduler.System
