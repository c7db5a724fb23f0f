import ToyDfs.Lib.Transition
import ToyDfs.Lib.Measure
import ToyDfs.Lib.Blocks
import ToyDfs.Lib.Cpp
import ToyDfs.Lib.Simulation
import ToyDfs.Lib.Linearization
import ToyDfs.Lib.FileTree
import ToyDfs.Lib.Tasks
import ToyDfs.Lib.KeyValue
import ToyDfs.Lib.IStream
import ToyDfs.Lib.SharedFile
import ToyDfs.Lib.RoundRobin
import ToyDfs.Grpc
import ToyDfs.MetadataStore
import ToyDfs.ChunkPath
import ToyDfs.DataNode
import ToyDfs.Lib.Footprint
import ToyDfs.ChunkStore
import ToyDfs.OwnFiles
import ToyDfs.ChunkTree
import ToyDfs.StoreRuns
import ToyDfs.TombstoneOrder
import ToyDfs.ChunkNumbers
import ToyDfs.Coordinator
import ToyDfs.Client
import ToyDfs.AnyClient
import ToyDfs.CleanupPass
import ToyDfs.FanOut
import ToyDfs.SameNodeReplicas
import ToyDfs.ReplicaTasks
import ToyDfs.Slicing
import ToyDfs.Upload
import ToyDfs.Framing
import ToyDfs.UploadOutcomes
import ToyDfs.DurableUpload
import ToyDfs.System
import ToyDfs.TreeRefinement
import ToyDfs.HandlerRuns
import ToyDfs.Progress
import ToyDfs.NodeIds
import ToyDfs.ChunkOwners
import ToyDfs.Replicas
import ToyDfs.CheckThenAct
import ToyDfs.ExactCleanup
import ToyDfs.Accounting
import ToyDfs.Registrations
import ToyDfs.ServerLifecycle
import ToyDfs.StoreRefinement
import ToyDfs.Placement
import ToyDfs.PlacementBalance
import ToyDfs.NodeNames
import ToyDfs.Reading
import ToyDfs.ReplicaFailures
import ToyDfs.ReadAfterWrite
import ToyDfs.PartialReads
import ToyDfs.UploadStream
import ToyDfs.Session
import ToyDfs.SessionRefinement
import ToyDfs.HealthySession
import ToyDfs.CommandLine
import ToyDfs.CallOrder
import ToyDfs.CleanupThread
import ToyDfs.CleanupSchedule
import ToyDfs.IdExhaustion
import ToyDfs.Reclamation
import ToyDfs.ShortReads
import ToyDfs.EntryMemory
import ToyDfs.OngoingRead
import ToyDfs.FaultTolerance
import ToyDfs.CleanupThread
