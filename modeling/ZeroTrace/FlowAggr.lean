import ZeroTrace.ChronoChains
import ZeroTrace.Tagger

/-!
# The aggregation of flow logs

`FlowAggr` merges the reports of a flow over a minute before they become one entry of the
flow log.  A minute of a flow starts at the second of the minute in which the flow
started, so there is a slot for each second, in a ring that a late report or a timeout
turns.  A report that ends its flow sends what was merged at once, except for the
flows of health checks: where they are aggregated, they go to a `ChronoMap` under their
addresses and are merged across flows there.

The map is read through its chains, whose operations the pointer code was shown to
compute.  `sent` records the calls of `send_flow` in their order.  `origin` is a ghost
that the source does not have: it carries the numbers of the reports that were merged
into a flow.  Times are in seconds.
-/

namespace ZeroTrace.Collector.Aggr

open RustExec FlowGenerator Chrono

/-- `FlowMetricsPeer`, as far as the aggregation depends on it. -/
structure FlowMetricsPeer where
  packetCount : Nat := 0
  totalPacketCount : Nat := 0
  natRealIp : IpAddr := .unspecified
  natRealPort : BitVec 16 := 0
  deriving DecidableEq

def FlowMetricsPeer.sequentialMerge (self other : FlowMetricsPeer) : FlowMetricsPeer where
  packetCount := self.packetCount + other.packetCount
  totalPacketCount := other.totalPacketCount
  natRealIp := other.natRealIp
  natRealPort := other.natRealPort

def FlowMetricsPeer.heartbeatSequentialMerge (self other : FlowMetricsPeer) : FlowMetricsPeer :=
  let merged := self.sequentialMerge other
  { merged with totalPacketCount := merged.totalPacketCount + self.totalPacketCount }

/-- `TaggedFlow`, as far as the aggregation depends on it. -/
structure TaggedFlow where
  flowKey : FlowKey
  peerSrc : FlowMetricsPeer := {}
  peerDst : FlowMetricsPeer := {}
  flowId : BitVec 64
  aggregatedFlowIds : List (BitVec 64) := []
  startTime : Nat
  flowStatTime : Nat
  closeType : CloseType := .forcedReport
  reversed : Bool := false
  tapSide : TapSide := .rest
  origin : List Nat := []
  deriving DecidableEq

structure HeartbeatAggrKey where
  tapSide : TapSide
  portDst : BitVec 16
  ipSrc : IpAddr
  ipDst : IpAddr
  deriving DecidableEq

namespace TaggedFlow

variable (f : TaggedFlow)

/-- `packet_count`, of both directions. -/
def packetCount : Nat := f.peerSrc.packetCount + f.peerDst.packetCount

def startTimeInMinute : Exec Nat :=
  let secondInMinute := f.startTime % secondsInMinute
  checkedSub f.flowStatTime secondInMinute >>= fun time =>
    .ok (time / secondsInMinute * secondsInMinute + secondInMinute)

/-- `reverse`, of a flow with statistics. -/
def reverse : TaggedFlow :=
  { f with
    reversed := !f.reversed
    tapSide := .rest
    flowKey := f.flowKey.reverse
    peerSrc := f.peerDst
    peerDst := f.peerSrc }

/-- The source of a translation that wins, written to the capture port. -/
def mergedTapPort (self other : TapPort) : TapPort :=
  if self.getNatSource < other.getNatSource then self.setNatSource other.getNatSource else self

def sequentialMerge (self other : TaggedFlow) : TaggedFlow :=
  let self :=
    if self.flowId ≠ other.flowId then
      { self with
        peerSrc := self.peerSrc.heartbeatSequentialMerge other.peerSrc
        peerDst := self.peerDst.heartbeatSequentialMerge other.peerDst
        aggregatedFlowIds := self.aggregatedFlowIds ++ [other.flowId] }
    else
      { self with
        peerSrc := self.peerSrc.sequentialMerge other.peerSrc
        peerDst := self.peerDst.sequentialMerge other.peerDst }
  { self with
    tapSide := other.tapSide
    closeType := other.closeType
    reversed := other.reversed
    flowKey :=
      { self.flowKey with tapPort := mergedTapPort self.flowKey.tapPort other.flowKey.tapPort }
    origin := self.origin ++ other.origin }

def getHeartbeatAggrKey : HeartbeatAggrKey where
  tapSide := f.tapSide
  portDst := f.flowKey.portDst
  ipSrc := f.flowKey.ipSrc
  ipDst := f.flowKey.ipDst

/-- The source port of health checks that were aggregated. -/
def clearSourcePort : TaggedFlow :=
  { f with
    flowKey := { f.flowKey with portSrc := 0 }
    peerSrc := { f.peerSrc with natRealPort := 0 } }

end TaggedFlow

/-- `FlowAggr`, with the counters that it writes. -/
structure FlowAggr where
  slotStartTime : Nat := 0
  flowStashs : List (AList fun _ : BitVec 64 => TaggedFlow)
  heartbeatFlowStash : Chains Nat HeartbeatAggrKey TaggedFlow := []
  slotCount : Nat
  sent : List TaggedFlow := []
  dropBeforeWindow : Nat := 0
  heartbeatAggred : Nat := 0

namespace FlowAggr

def timestampSlotCount : Nat := secondsInMinute

/-- `FlowAggr::new`. -/
def new (delay : Nat) : FlowAggr where
  flowStashs := List.replicate (timestampSlotCount + delay) ∅
  slotCount := timestampSlotCount + delay

variable (aggregate : Bool) (a : FlowAggr)

def sendFlow (f : TaggedFlow) : FlowAggr := { a with sent := a.sent ++ [f] }

def flushFrontSlotAndRotate : Exec FlowAggr :=
  unwrap a.flowStashs.head? >>= fun flowStash =>
    .ok { a with
      flowStashs := a.flowStashs.tail ++ [∅]
      sent := a.sent ++ Tables.values flowStash
      slotStartTime := a.slotStartTime + 1 }

/-- The loop of `flush_slots`. -/
def flushLoop : Nat → FlowAggr → Exec FlowAggr
  | 0, a => .ok a
  | count + 1, a => a.flushFrontSlotAndRotate >>= flushLoop count

/-- The health checks up to the start of the window are sent. -/
def forwardHeartbeats : FlowAggr :=
  let (sent, heartbeatFlowStash) :=
    a.heartbeatFlowStash.forwardTime a.slotStartTime
      (fun sent item => (none, item, sent ++ [item])) a.sent
  { a with sent := sent, heartbeatFlowStash := heartbeatFlowStash }

def flushSlots (slotCount : Nat) (a : FlowAggr) : Exec FlowAggr :=
  flushLoop (min slotCount a.slotCount) a >>= fun a =>
    let a :=
      if a.slotCount < slotCount then
        { a with slotStartTime := a.slotStartTime + (slotCount - a.slotCount) }
      else a
    .ok (if aggregate then a.forwardHeartbeats else a)

/-- The slot of a time, for which the ring may have to turn. -/
def locate (flowTime : Nat) (a : FlowAggr) : Exec (FlowAggr × Nat) :=
  let timeSlot := flowTime - a.slotStartTime
  if a.slotCount ≤ timeSlot then
    flushSlots aggregate (timeSlot - a.slotCount + 1) a >>= fun a =>
      checkedSub a.slotCount 1 >>= fun timeSlot => .ok (a, timeSlot)
  else .ok (a, timeSlot)

/-- A health check that was stashed ends: it is merged with those of its addresses, or
the first of them. -/
def addHeartbeat (flowTime : Nat) (newHbFlow : TaggedFlow) : FlowAggr :=
  let key := newHbFlow.getHeartbeatAggrKey
  match a.heartbeatFlowStash.find key with
  | some (_, hbFlow) =>
    { a with
      heartbeatFlowStash :=
        a.heartbeatFlowStash.setValue key (hbFlow.sequentialMerge newHbFlow).clearSourcePort
      heartbeatAggred := a.heartbeatAggred + 1 }
  | none =>
    { a with heartbeatFlowStash := (a.heartbeatFlowStash.insert flowTime key newHbFlow).2 }

/-- Whether a report ends a health check that is to be aggregated. -/
def IsHeartbeat (closeType : CloseType) : Prop :=
  aggregate = true ∧ closeType = .tcpFinClientRst

instance (aggregate : Bool) (closeType : CloseType) : Decidable (IsHeartbeat aggregate closeType) :=
  inferInstanceAs (Decidable (_ ∧ _))

/-- A stashed flow with one more report. -/
def merged (flow f : TaggedFlow) : TaggedFlow :=
  (if flow.reversed ≠ f.reversed then flow.reverse else flow).sequentialMerge f

/-- `minute_merge`, for a report whose flow is in its slot. -/
def mergeStashed (flowTime timeSlot : Nat)
    (flowStash : AList fun _ : BitVec 64 => TaggedFlow) (flow f : TaggedFlow) (a : FlowAggr) :
    Exec FlowAggr :=
  let flow := merged flow f
  if IsHeartbeat aggregate flow.closeType then
    store a.flowStashs timeSlot (flowStash.erase f.flowId) >>= fun flowStashs =>
      .ok ({ a with flowStashs := flowStashs }.addHeartbeat flowTime flow)
  else if flow.closeType ≠ .forcedReport then
    store a.flowStashs timeSlot (flowStash.erase f.flowId) >>= fun flowStashs =>
      .ok ({ a with flowStashs := flowStashs }.sendFlow flow)
  else
    store a.flowStashs timeSlot (flowStash.insert f.flowId flow) >>= fun flowStashs =>
      .ok { a with flowStashs := flowStashs }

/-- `minute_merge`, for a report whose flow is not.  A health check takes the place of
what is there under its addresses. -/
def mergeNew (flowTime timeSlot : Nat)
    (flowStash : AList fun _ : BitVec 64 => TaggedFlow) (f : TaggedFlow) (a : FlowAggr) :
    Exec FlowAggr :=
  if IsHeartbeat aggregate f.closeType then
    .ok { a with
      heartbeatFlowStash := (a.heartbeatFlowStash.insert flowTime f.getHeartbeatAggrKey f).2 }
  else if f.closeType ≠ .forcedReport then .ok (a.sendFlow f)
  else
    store a.flowStashs timeSlot (flowStash.insert f.flowId f) >>= fun flowStashs =>
      .ok { a with flowStashs := flowStashs }

def minuteMerge (f : TaggedFlow) (a : FlowAggr) : Exec FlowAggr :=
  f.startTimeInMinute >>= fun flowTime =>
    if flowTime < a.slotStartTime then .ok { a with dropBeforeWindow := a.dropBeforeWindow + 1 }
    else
      a.locate aggregate flowTime >>= fun (a, timeSlot) =>
        index a.flowStashs timeSlot >>= fun flowStash =>
          match flowStash.lookup f.flowId with
          | some flow => a.mergeStashed aggregate flowTime timeSlot flowStash flow f
          | none => a.mergeNew aggregate flowTime timeSlot flowStash f

end FlowAggr

end ZeroTrace.Collector.Aggr
