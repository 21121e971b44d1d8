import LlmSystem.Config
import LlmSystem.Lib.Binary64
import LlmSystem.Lib.Keyed
import LlmSystem.Lib.Residues
import LlmSystem.Lib.Runs
import LlmSystem.Scheduler.Sequence
import LlmSystem.Scheduler.Operations
import LlmSystem.Scheduler.Updates
import LlmSystem.Scheduler.Filling
import LlmSystem.Scheduler.Admission
import LlmSystem.Scheduler.Runs
import LlmSystem.Scheduler.Places
import LlmSystem.Scheduler.OnTrack
import LlmSystem.Scheduler.Lengths
import LlmSystem.Hardware.Clock
import LlmSystem.Scheduler.Servable
import LlmSystem.Hardware.Iteration
import LlmSystem.Lib.Blocks
import LlmSystem.Module.Placement
import LlmSystem.Module.MoeTraffic
import LlmSystem.Module.MoeConservation
import LlmSystem.Lib.Radix
import LlmSystem.Dram.AddressMap
import LlmSystem.Dram.Ideal
import LlmSystem.Dram.RowRenaming
import LlmSystem.Lib.Memo
import LlmSystem.Dram.ExecutionCache
import LlmSystem.Dram.Kernels
import LlmSystem.Dram.Interface
import LlmSystem.Module.Graph
import LlmSystem.Module.GraphSteps
import LlmSystem.Module.ClusterRun
import LlmSystem.Module.Barrier
import LlmSystem.Module.BarrierRuns
import LlmSystem.Hardware.Starvation
import LlmSystem.Module.ExpertCoverage
import LlmSystem.Scheduler.Drain
import LlmSystem.Scheduler.Popping
import LlmSystem.Scheduler.TokenLimits
import LlmSystem.Scheduler.Following
import LlmSystem.Scheduler.Reports
import LlmSystem.Scheduler.Stages
import LlmSystem.Lib.Windows
import LlmSystem.Hardware.Arrivals
import LlmSystem.Lib.Tally
import LlmSystem.Module.ExpertCounts
import LlmSystem.Module.SharedRuns
import LlmSystem.Module.TraceLayers
import LlmSystem.Hardware.Fates
import LlmSystem.Module.Overlap
import LlmSystem.Hardware.Causality
import LlmSystem.Hardware.Latency
import LlmSystem.Hardware.SplitLatency
import LlmSystem.Lib.Nesting
import LlmSystem.Module.TimeBoard
import LlmSystem.Module.Intervals
import LlmSystem.Module.Charges
import LlmSystem.Lib.Selections
import LlmSystem.Module.LlmCalls
import LlmSystem.Module.LlmForward
import LlmSystem.Module.TimeBreakDown
import LlmSystem.Lib.Pairing
import LlmSystem.Module.LeafStamps
import LlmSystem.Hardware.Interference
import LlmSystem.Dram.AddressBijection
import LlmSystem.Hardware.Footprint
import LlmSystem.Hardware.MemoryLimit
import LlmSystem.Module.RankGroups
import LlmSystem.Executor.Linear
import LlmSystem.Executor.AttentionSum
import LlmSystem.Executor.LatentSum
import LlmSystem.Executor.AttentionGen
import LlmSystem.Executor.Dispatch
import LlmSystem.Executor.Reports
import LlmSystem.Executor.Scripted
import LlmSystem.Executor.Work
import LlmSystem.Executor.Reshaping
import LlmSystem.Executor.Traffic
import LlmSystem.Dram.Allocation
import LlmSystem.Dram.Bandwidth
import LlmSystem.Executor.Candidates
import LlmSystem.Executor.IdealCounts
import LlmSystem.Module.ReadyInputs
import LlmSystem.Lib.Descent
import LlmSystem.Module.ExpertSplit
import LlmSystem.Lib.Streams
import LlmSystem.Module.Locality
import LlmSystem.Module.TraceLayout
import LlmSystem.Executor.NearbankLatency
import LlmSystem.Executor.Idle
import LlmSystem.Executor.Shapes
import LlmSystem.Executor.Turns
import LlmSystem.Executor.Answers
import LlmSystem.Executor.StageTimes
import LlmSystem.Executor.ChargedMemory
import LlmSystem.Executor.ComputeTime
import LlmSystem.Executor.FlashTiles
import LlmSystem.Module.Rope
import LlmSystem.Executor.IntWork
import LlmSystem.Executor.IntProducts
import LlmSystem.Hardware.IntFootprint
import LlmSystem.Hardware.FootprintFits
import LlmSystem.Executor.Scratch
import LlmSystem.Module.AttentionRows
import LlmSystem.Dram.PIMDRAMController
import LlmSystem.Dram.CommandCounts
import LlmSystem.Dram.Departures
import LlmSystem.Dram.OpenPage
import LlmSystem.Dram.Progress
import LlmSystem.Lib.Paths
import LlmSystem.Module.Acceptance
import LlmSystem.Module.CacheSizes
import LlmSystem.Module.WeightShares
