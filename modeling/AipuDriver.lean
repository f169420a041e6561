import AipuDriver.Lib.Transition
import AipuDriver.Lib.Tiling
import AipuDriver.Kmd.MemoryManager
import AipuDriver.Kmd.Region
import AipuDriver.Kmd.Regions
import AipuDriver.Kmd.MmSystem
import AipuDriver.Kmd.Canonical
import AipuDriver.Kmd.JobManager
import AipuDriver.Kmd.JobQueue
import AipuDriver.Kmd.JobSteps
import AipuDriver.Kmd.Driver
import AipuDriver.Kmd.DriverSteps
import AipuDriver.Kmd.Ownership
import AipuDriver.Kmd.Mapping
import AipuDriver.Kmd.JobEffects
import AipuDriver.Kmd.DriverJobs
import AipuDriver.Kmd.SessionLiveness
import AipuDriver.Kmd.ExceptionReport
import AipuDriver.Kmd.Isolation
import AipuDriver.Kmd.RunningMemory
import AipuDriver.Kmd.BottomHalf
import AipuDriver.Kmd.Busy
import AipuDriver.Kmd.SessionJobs
import AipuDriver.Kmd.KillFinal
import AipuDriver.Kmd.ListAgreement
import AipuDriver.Kmd.PollWakeups
import AipuDriver.Lib.ByteReader
import AipuDriver.Umd.GraphFormat
import AipuDriver.Umd.GraphParser
import AipuDriver.Umd.GraphDescription
import AipuDriver.Umd.GraphRoundTrip
import AipuDriver.Umd.GraphReads
import AipuDriver.Umd.GraphSources
import AipuDriver.Lib.UnusedId
import AipuDriver.Umd.Graph
import AipuDriver.Umd.Context
import AipuDriver.Umd.Ids
import AipuDriver.Umd.Runtime
import AipuDriver.Umd.RuntimeSteps
import AipuDriver.Umd.Completion
import AipuDriver.Umd.JobStates
import AipuDriver.Kmd.Placement
import AipuDriver.Kmd.RoStack
import AipuDriver.Kmd.AllocationFailure
import AipuDriver.Kmd.Power
import AipuDriver.Lib.KeyedList
import AipuDriver.Umd.Buffers
import AipuDriver.Umd.GraphObject
import AipuDriver.Umd.BufferUse
import AipuDriver.Umd.BufferGroups
import AipuDriver.Kmd.ZhouyiV2
import AipuDriver.Umd.AsidAddresses
import AipuDriver.Umd.Tensors
import AipuDriver.Umd.Unload
import AipuDriver.Lib.RoundUp
import AipuDriver.Umd.Simulation
import AipuDriver.Lib.Packing
import AipuDriver.Umd.SimulatedSpace
import AipuDriver.Kmd.FirstFit
import AipuDriver.Kmd.SessionRelease
import AipuDriver.Kmd.MmapLength
import AipuDriver.Kmd.UpperHalf
import AipuDriver.Kmd.StatusQueries
import AipuDriver.Umd.BatchPoll
import AipuDriver.Umd.FailedBuild
import AipuDriver.Umd.WaitResults
import AipuDriver.Umd.Waiters
import AipuDriver.Umd.WaitersSteps
import AipuDriver.Umd.FinalAnswers
import AipuDriver.Umd.FlushReply
import AipuDriver.Umd.MallocReply
import AipuDriver.Umd.FailedLoad
import AipuDriver.Umd.TensorIds
import AipuDriver.Lib.WordPatch
import AipuDriver.Umd.BuildWrites
import AipuDriver.Umd.RodataPatches
import AipuDriver.Umd.GroupLayout
import AipuDriver.Kmd.LogicReset
import AipuDriver.Umd.AseRegisters
import AipuDriver.Umd.SleepingWaiters
import AipuDriver.Umd.RunningBuffers
import AipuDriver.Lib.OrderedMap
import AipuDriver.Umd.HalfLoadedGraphs
import AipuDriver.Lib.MemoryBytes
import AipuDriver.Umd.Printf
import AipuDriver.Umd.HighLevelApi
import AipuDriver.Kmd.JobListing
import AipuDriver.Umd.AlignedAddresses
import AipuDriver.Kmd.BlockSearch
import AipuDriver.Lib.Simulation
import AipuDriver.Lib.FifoServer
import AipuDriver.Lib.Progress
import AipuDriver.Kmd.JobServer
import AipuDriver.Kmd.JobDrain
import AipuDriver.Lib.Ownership
import AipuDriver.Umd.ContextMap
import AipuDriver.Umd.ContextLifetime
import AipuDriver.Umd.LoadedImage
import AipuDriver.Umd.GraphFile
import AipuDriver.Umd.FlushOrder
import AipuDriver.Kmd.MemoryHistory
import AipuDriver.Lib.Ledger
import AipuDriver.Kmd.Probe
import AipuDriver.Kmd.ProbeAccount
import AipuDriver.Kmd.ProbeStages
import AipuDriver.Kmd.ProbeLedger
