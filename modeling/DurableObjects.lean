import DurableObjects.Lib.Program
import DurableObjects.Lib.Fallible
import DurableObjects.Lib.Runs
import DurableObjects.Lib.Machine
import DurableObjects.Lib.Holders
import DurableObjects.Lib.Json
import DurableObjects.Lib.JsonRoundTrip
import DurableObjects.Lib.JsonString
import DurableObjects.Lib.JsonShape
import DurableObjects.Lib.JsonLine
import DurableObjects.Lib.Utf8Stream
import DurableObjects.Spec.Basic
import DurableObjects.Spec.Identity
import DurableObjects.Spec.Database
import DurableObjects.Spec.Placement
import DurableObjects.Spec.StoreSystem
import DurableObjects.Spec.Value
import DurableObjects.Spec.StateLog
import DurableObjects.Spec.Protocol
import DurableObjects.Spec.Host
import DurableObjects.Spec.Cluster
import DurableObjects.Spec.Session
import DurableObjects.Spec.SessionStream
import DurableObjects.Spec.Connection
import DurableObjects.Spec.Executor
import DurableObjects.Spec.ExecutorStream
import DurableObjects.Spec.Activity
import DurableObjects.Spec.SameValue
import DurableObjects.Spec.Leases
import DurableObjects.Spec.PlacementStores
import DurableObjects.Spec.LeaseMaintenance
import DurableObjects.Spec.ActorLocks
import DurableObjects.Spec.Credentials
import DurableObjects.Spec.ControlPlane
import DurableObjects.Spec.Deployments
import DurableObjects.Spec.Targets
import DurableObjects.Spec.Sockets
import DurableObjects.Spec.Gateway
import DurableObjects.Spec.Wire
import DurableObjects.Spec.RemoteClient
import DurableObjects.Spec.HostCredential
import DurableObjects.Spec.Delivery
import DurableObjects.Spec.GatewaySystem
import DurableObjects.Spec.ProviderProcess
import DurableObjects.Spec.Modal
import DurableObjects.Sanity.Store
import DurableObjects.Sanity.Snapshot
import DurableObjects.Sanity.Turn
import DurableObjects.Sanity.Phase
import DurableObjects.Sanity.Known
import DurableObjects.Sanity.World
import DurableObjects.Sanity.Calls
import DurableObjects.Sanity.Cluster
import DurableObjects.Sanity.Schedule
import DurableObjects.Sanity.Epochs
import DurableObjects.Sanity.Holding
import DurableObjects.Sanity.Frame
import DurableObjects.Sanity.Decoding
import DurableObjects.Sanity.Leases
import DurableObjects.Sanity.LeaseMaintenance
import DurableObjects.Sanity.ActorLocks
import DurableObjects.Sanity.Credentials
import DurableObjects.Sanity.Authority
import DurableObjects.Sanity.Targets
import DurableObjects.Sanity.HostCredential
import DurableObjects.Sanity.Gateway
import DurableObjects.Sanity.Registry
import DurableObjects.Sanity.Connections
import DurableObjects.Sanity.TaskRules
import DurableObjects.Sanity.Applications
import DurableObjects.Sanity.Broadcast
import DurableObjects.Sanity.Membership
import DurableObjects.Sanity.Seats
import DurableObjects.Sanity.GatewayRuns
import DurableObjects.Sanity.ProviderProcess
import DurableObjects.Sanity.ExecutorStream
import DurableObjects.Sanity.Modal
import DurableObjects.Proofs.Identity
import DurableObjects.Proofs.Placement
import DurableObjects.Proofs.Durability
import DurableObjects.Proofs.NoLostUpdate
import DurableObjects.Proofs.Retry
import DurableObjects.Proofs.Failure
import DurableObjects.Proofs.StaleState
import DurableObjects.Proofs.Superseded
import DurableObjects.Proofs.ReplyDecoding
import DurableObjects.Proofs.LeaseFencing
import DurableObjects.Proofs.SelfFencing
import DurableObjects.Proofs.Unregister
import DurableObjects.Proofs.TurnExclusion
import DurableObjects.Proofs.Activity
import DurableObjects.Proofs.Credentials
import DurableObjects.Proofs.Targets
import DurableObjects.Proofs.HostCredential
import DurableObjects.Proofs.Pairing
import DurableObjects.Proofs.Rejection
import DurableObjects.Proofs.Catalog
import DurableObjects.Proofs.EffectOrder
import DurableObjects.Proofs.Revisions
import DurableObjects.Proofs.Retirement
import DurableObjects.Proofs.Chunking
import DurableObjects.Sanity.SizeEstimate
import DurableObjects.Proofs.ReplySize
import DurableObjects.Proofs.Wire
import DurableObjects.Proofs.PlacementStores
import DurableObjects.Proofs.AtMostOnce
import DurableObjects.Proofs.ProviderPool
import DurableObjects.Proofs.ModalHosts
import DurableObjects.Proofs.ExecutorStream
import DurableObjects.Proofs.WorkerSupervisor
import DurableObjects.Proofs.ResidentOnly
import DurableObjects.Proofs.SdkEffects
import DurableObjects.Proofs.SnapshotNames
