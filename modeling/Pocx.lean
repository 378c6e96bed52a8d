import Pocx.Lib.RingQueue
import Pocx.Lib.Transition
import Pocx.Lib.ByteStore
import Pocx.Lib.Strided
import Pocx.Lib.RoundRobin
import Pocx.Lib.Scatter
import Pocx.Lib.RangeSum
import Pocx.Lib.KeyedSum
import Pocx.Lib.ArgMin
import Pocx.Lib.PairMerge
import Pocx.Lib.KeyedMap
import Pocx.Lib.Bisection
import Pocx.Lib.Panicking
import Pocx.Lib.Json
import Pocx.PlotFile.Layout
import Pocx.Hashlib.Scoop
import Pocx.Hashlib.Levels
import Pocx.Hashlib.Shabal256
import Pocx.Hashlib.Noncegen
import Pocx.Hashlib.ShabalLanes
import Pocx.Hashlib.ShabalVector
import Pocx.Hashlib.NoncegenCalls
import Pocx.Hashlib.NoncegenScatter
import Pocx.Hashlib.Quality
import Pocx.Hashlib.QualitySearch
import Pocx.Hashlib.NoncegenVector
import Pocx.Hashlib.NoncegenPaths
import Pocx.Hashlib.NoncegenCheck
import Pocx.Hashlib.BatchValidation
import Pocx.Hashlib.BatchValidationSpec
import Pocx.Hashlib.NoncegenBatch
import Pocx.Hashlib.ValidationRange
import Pocx.Plotter.RingLoop
import Pocx.Plotter.RingLoopRuns
import Pocx.Plotter.Task
import Pocx.Plotter.RingScheduler
import Pocx.Plotter.RingSchedulerRuns
import Pocx.Plotter.CpuHasher
import Pocx.Plotter.CpuCompressor
import Pocx.Plotter.GpuRing
import Pocx.Plotter.RingMemory
import Pocx.Plotter.RingFitting
import Pocx.Plotter.GpuNonces
import Pocx.Plotter.GpuCompressor
import Pocx.Plotter.Compressor
import Pocx.Plotter.CpuScheduler
import Pocx.Plotter.CpuSchedulerRuns
import Pocx.Plotter.CpuSent
import Pocx.Plotter.Plan
import Pocx.Plotter.CpuPlan
import Pocx.Plotter.XpuScheduler
import Pocx.Plotter.XpuPlan
import Pocx.Plotter.GpuHasher
import Pocx.Plotter.HybridHashing
import Pocx.Plotter.HybridFlow
import Pocx.Plotter.HybridHashingRuns
import Pocx.Plotter.HybridEnd
import Pocx.Plotter.HybridBuffer
import Pocx.PlotFile.File
import Pocx.PlotFile.Batches
import Pocx.PlotFile.Reading
import Pocx.PlotFile.Names
import Pocx.PlotFile.Crash
import Pocx.PlotFile.CrashContent
import Pocx.PlotFile.CrashCalls
import Pocx.PlotFile.CrashRuns
import Pocx.Plotter.DiskWriter
import Pocx.Plotter.PlotterRun
import Pocx.Plotter.CpuPlanWritten
import Pocx.Plotter.PlotLife
import Pocx.Plotter.PlotLifeRuns
import Pocx.Miner.Scheduler
import Pocx.Miner.SchedulerRuns
import Pocx.Miner.SchedulerBlocks
import Pocx.Miner.SchedulerSafety
import Pocx.Miner.Hasher
import Pocx.Miner.Ocl
import Pocx.Miner.NonceFilter
import Pocx.Miner.Disk
import Pocx.Miner.DiskRuns
import Pocx.Miner.ReadDisk
import Pocx.Miner.ReadDiskRuns
import Pocx.Miner.MinedPlot
import Pocx.Miner.PrioRetry
import Pocx.Address.Address
import Pocx.Mockchain.Forging
import Pocx.Mockchain.ForgingRuns
import Pocx.Mockchain.Store
import Pocx.Aggregator.SubmissionQueue
import Pocx.Protocol.Types
import Pocx.Protocol.Errors
import Pocx.Protocol.Server
import Pocx.Protocol.Client
import Pocx.Miner.RequestHandler
import Pocx.Aggregator.TimeBending
import Pocx.Aggregator.BlockFilter
import Pocx.Aggregator.BlockFilterRuns
import Pocx.Aggregator.Stats
import Pocx.Aggregator.Database
import Pocx.Aggregator.AggregatorServer
import Pocx.Aggregator.PoolManager
import Pocx.Verifier.Plotcheck
import Pocx.Miner.MiningRound
import Pocx.Miner.MiningRoundRuns
