import Ghost.Lib.TreeZipper
import Ghost.Avl.Basic
import Ghost.Lib.DoublyLinked
import Ghost.Avl.Caching
import Ghost.Avl.Conservation
import Ghost.Lib.BucketQueue
import Ghost.Lib.StackRotation
import Ghost.O1.Epochs
import Ghost.O1.Handlers
import Ghost.O1.Invariant
import Ghost.O1.QueueUse
import Ghost.O1.RoundRobin
import Ghost.O1.Stranded
import Ghost.O1.TimeSlice
import Ghost.Lib.Threads
import Ghost.Lib.RingLayout
import Ghost.Lib.Bits
import Ghost.Shared.SeqCount
import Ghost.Shared.PrioTableProperties
import Ghost.Channel.Delivery
import Ghost.Topology.CpuMapProperties
import Ghost.Bpf.ArrListProperties
import Ghost.Lib.Outcomes
import Ghost.Lib.Handover
import Ghost.O1.Assertions
import Ghost.O1.Discovery
import Ghost.O1.HandOffSafety
import Ghost.Fifo.Invariant
import Ghost.Fifo.Degenerate
import Ghost.Fifo.Assertions
import Ghost.Lib.Tally
import Ghost.Flux.BiffLoad
import Ghost.Topology.Siblings
import Ghost.Txn.LifeCycle
import Ghost.Txn.SyncGroupSafety
import Ghost.Agent.RpcSafety
import Ghost.Flux.CpuAccounting
import Ghost.Flux.RociLists
import Ghost.Flux.ProvLists
import Ghost.Bpf.PntRingSafety
import Ghost.Avl.Lookup
import Ghost.Bpf.ArrListConcat
import Ghost.Bpf.ArrListIterators
import Ghost.O1.PriorityChange
import Ghost.O1.FailedCommit
import Ghost.Fifo.FailedCommit
import Ghost.Topology.BpfNumaNodes
import Ghost.Bpf.CfsStatistics
import Ghost.Flux.Rejoining
import Ghost.Avl.Stepping
import Ghost.Avl.Capacity
import Ghost.Avl.NoExits
import Ghost.Lib.Numerals
import Ghost.Topology.AssignCpu
import Ghost.Topology.CpuMask
import Ghost.Topology.CpuStrProperties
import Ghost.Topology.CpuListAlgebra
import Ghost.Agent.TrivialStatus
import Ghost.Agent.RpcHistories
import Ghost.Bpf.PntAgentData
import Ghost.Bpf.CfsFairness
import Ghost.Avl.Ids
import Ghost.Avl.RotationLaws
import Ghost.Flux.PreemptCpu
import Ghost.Shared.PrioTableLayout
import Ghost.Shared.PrioTableOverflow
import Ghost.Lib.StepIntegral
import Ghost.Lib.Holder
import Ghost.Schedfair.Exactness
import Ghost.Biff.Queueing
import Ghost.Biff.Ticks
import Ghost.Agent.AgentOnline
import Ghost.Agent.UpgradeProgress
import Ghost.Agent.Termination
import Ghost.Flux.ProvPokes
