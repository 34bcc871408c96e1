import ZeroTrace.ChangeTicks
import ZeroTrace.ChronoRefinement
import ZeroTrace.Commands
import ZeroTrace.ConcurrentLoad
import ZeroTrace.ConfigRepo
import ZeroTrace.DecapsulateInner
import ZeroTrace.EventBuffers
import ZeroTrace.FastPathRuns
import ZeroTrace.FirstPathLookup
import ZeroTrace.FlowAggrMerges
import ZeroTrace.FlowMapAccounts
import ZeroTrace.FlowMapExpiry
import ZeroTrace.FlowMatching
import ZeroTrace.GpidTables
import ZeroTrace.GreedyBatch
import ZeroTrace.HeaderLengths
import ZeroTrace.Hessian2Progress
import ZeroTrace.IpRanges
import ZeroTrace.L7Emissions
import ZeroTrace.LeakyBucket
import ZeroTrace.LogCacheKeys
import ZeroTrace.Mqtt
import ZeroTrace.OverwriteQueueFifo
import ZeroTrace.OverwriteQueueWakeups
import ZeroTrace.PerfStatsFlush
import ZeroTrace.PerfStatsTimeouts
import ZeroTrace.QuadrupleDocuments
import ZeroTrace.QueueFrees
import ZeroTrace.SeqListInvariant
import ZeroTrace.ServiceTable
import ZeroTrace.SessionQueueConservation
import ZeroTrace.SessionQueueCounters
import ZeroTrace.SourceShutdown
import ZeroTrace.StashRuns
import ZeroTrace.TcpOptionBounds
import ZeroTrace.TcpPerf
import ZeroTrace.UniformSender
import ZeroTrace.UnwindSearch
import ZeroTrace.WorldInsert
