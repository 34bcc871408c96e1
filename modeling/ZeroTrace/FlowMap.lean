import ZeroTrace.FlowNode
import ZeroTrace.InPlacePartition
import ZeroTrace.TimeWheel

/-!
# The flow map

`FlowMap` files the nodes of all flows under the keys of their packets.  A time
wheel says when a key has to be looked at again: every node carries the second
for which its key was put down last.  A packet or a tick may move the start of
the time window forward; then all seconds that leave the window are drained, and
of the nodes under the drained keys those that have timed out are removed with a
last report, and the others are reported on and put down for the second in which
they will time out.

Reports are collected in the order in which they are emitted.  `injected`,
`serials` and `belowZero` are ghosts: which packet was given to which flow, how
many flows there have been, and whether the size was ever counted down below
zero.  A hash set is drained in an order of its own, which is why the order is
part of what the environment answers.
-/

namespace ZeroTrace.FlowGenerator

open RustExec Wheels

/-- The deadline of a node: the sum is one of `u64`s and wraps. -/
def FlowNode.deadline (node : FlowNode) : Nat := wrappingAdd 64 node.recentTime node.timeout

/-- What the environment answers during a call: the clock, the order in which a
hash set is drained, and whether the service table turns a node around when it
is looked at. -/
structure Env where
  now : Nat := 0
  turns : Nat → FlowMapKey → FlowNode → Bool := fun _ _ _ => false
  order : List FlowMapKey → List FlowMapKey := id
  perm : ∀ keys, (order keys).Perm keys := by exact fun _ => .refl _

/-- The time of a call: a timestamp of zero is a tick of the clock. -/
def Env.time (env : Env) (timestamp : Nat) : Nat := if timestamp = 0 then env.now else timestamp

/-- `FlowMapCounter`: the flows that were created and closed. -/
structure FlowMapCounter where
  new : Nat := 0
  closed : Nat := 0
  deriving DecidableEq

structure FlowMap where
  nodeMap : FlowMapKey → List FlowNode
  timeSet : Wheel FlowMapKey
  startTime : Nat
  startTimeInUnit : Nat
  id : Nat := 0
  totalFlow : Nat := 0
  size : Int := 0
  counter : FlowMapCounter := {}
  reports : List Flow := []
  injected : List (Nat × MetaPacket) := []
  serials : Nat := 0
  belowZero : Bool := false

namespace FlowMap

/-- The number of bits of `n.next_power_of_two()`. -/
def powerBits (n : Nat) : Nat := if n ≤ 1 then 0 else (n - 1).log2 + 1

theorem le_two_pow_powerBits (n : Nat) : n ≤ 2 ^ powerBits n := by
  unfold powerBits
  split
  · simpa
  · have := Nat.lt_log2_self (n := n - 1)
    omega

variable (config : Config) (env : Env) (m : FlowMap)

/-- The bits of `time_window_size`. -/
def windowBits : Nat :=
  powerBits (config.packetDelay / second + config.flowTimeout.max / second + 1)

/-- `FlowMap::new`, for the thread `id` at the system time `now`. -/
def new (id now : Nat) : Exec FlowMap := do
  let start ← checkedSub now config.packetDelay
  let start ← checkedSub start second
  return {
    nodeMap := fun _ => []
    timeSet := .empty (windowBits config)
    startTime := start
    startTimeInUnit := start / second
    id := id }

/-! ### Draining the wheel -/

variable (timestamp : Nat) (key : FlowMapKey)

/-- The node has to be looked at later, or has not timed out. -/
def notTimedOut (t : Nat) (node : FlowNode) : Bool :=
  decide (node.timestampKey > t) || decide (timestamp < node.deadline)

def sortNodesByTimeout (nodes : List FlowNode) (timestamp t : Nat) : List FlowNode × Nat :=
  InPlace.partition (notTimedOut timestamp t) nodes

/-- What becomes of a node that has not timed out: it is reported on, and moved
to the second of its deadline. -/
structure Visit where
  node : FlowNode
  reports : List Flow := []
  moved : Option Nat := none

/-- Look at a node that has not timed out. -/
def visit (t : Nat) (key : FlowMapKey) (node : FlowNode) : Visit :=
  if node.timestampKey > t then { node := node }
  else
    let (node, reports) := node.updatedAftercare config timestamp false (env.turns t key node)
    let timeout := node.deadline / second
    if node.timestampKey ≠ timeout then
      { node := { node with timestampKey := timeout }, reports := reports, moved := some timeout }
    else { node := node, reports := reports }

/-- Look at all nodes of a drained key.  The second component collects the
seconds that the key has to be put down for. -/
def scanKey (t : Nat) (s : FlowMap × List (Nat × FlowMapKey)) (key : FlowMapKey) :
    FlowMap × List (Nat × FlowMapKey) :=
  let (sorted, index) := sortNodesByTimeout (s.1.nodeMap key) timestamp t
  let removed := sorted.drop index
  let visits := (sorted.take index).map (visit config env timestamp t key)
  ({ s.1 with
      nodeMap := Function.update s.1.nodeMap key (visits.map Visit.node)
      size := s.1.size - removed.length
      counter := { s.1.counter with closed := s.1.counter.closed + removed.length }
      belowZero := s.1.belowZero || decide (s.1.size < removed.length)
      reports := s.1.reports ++
        (removed.map fun node => node.removedAftercare node.deadline (env.turns t key node)) ++
        visits.flatMap Visit.reports },
    s.2 ++ visits.filterMap fun v => v.moved.map fun time => (time, key))

def scanSlot (m : FlowMap) (t : Nat) : FlowMap :=
  let keys := env.order (m.timeSet.slots (m.timeSet.slot t))
  let (m, moved) := keys.foldl (scanKey config env timestamp t)
    ({ m with timeSet := m.timeSet.clear t }, [])
  { m with timeSet := m.timeSet.insertAll moved }

/-- Move the start of the window to the second `next`.  All seconds that leave
the window are drained, at most one turn of the wheel. -/
def push (next scan : Nat) : FlowMap :=
  let stop := min next (m.startTimeInUnit + m.timeSet.size)
  let m' := (List.range' m.startTimeInUnit (stop - m.startTimeInUnit)).foldl
    (scanSlot config env scan) { m with startTime := next * second }
  { m' with startTimeInUnit := next }

/-- `inject_flush_ticker`.  The answer is whether a packet of this time is to be
handled. -/
def injectFlushTicker : Exec (FlowMap × Bool) :=
  if timestamp ≠ 0 ∧ timestamp < m.startTime then .ok (m, false)
  else
    checkedSub (env.time timestamp) config.packetDelay >>= fun late =>
      checkedSub late second >>= fun later =>
        if later < m.startTime then .ok (m, true)
        else
          checkedSub (late / second * second) 1 >>= fun scan =>
            .ok (m.push config env (late / second) scan, true)

/-! ### Handling a packet -/

/-- The first node that the packet matches.  Also the nodes that refuse it may
set the direction of the packet. -/
def position (config : Config) : List FlowNode → MetaPacket → Option Nat × MetaPacket
  | [], packet => (none, packet)
  | node :: nodes, packet =>
    let (accepted, packet) := node.matchNode packet config.ignoreL2End config.ignoreTorMac
      config.ignoreIdcVlan config.agentType
    if accepted then (some 0, packet)
    else
      let (index, packet) := position config nodes packet
      (index.map (· + 1), packet)

/-- `generate_flow_id`, with the number of the flow and of the thread. -/
def generateFlowId (totalFlow threadId : Nat) : BitVec 64 :=
  (BitVec.ofNat 64 timestamp >>> 30 &&& 0xffffffff) <<< 32 |||
    (BitVec.ofNat 64 threadId &&& 0xff) <<< 24 ||| (BitVec.ofNat 64 totalFlow &&& 0xffffff)

/-- `new_flow_node`: there is no node when the map is full, or when the parsers
found no server port in eBPF data. -/
def newFlowNode (packet : MetaPacket) (answers : Answers) : Exec (FlowMap × Option FlowNode) :=
  if m.size < 0 ∨ m.size ≥ config.capacity then .ok (m, none)
  else
    let isEbpf := packet.signalSource = .ebpf
    let m := { m with counter := { m.counter with new := m.counter.new + 1 } }
    let m := if isEbpf then m else { m with totalFlow := m.totalFlow + 1 }
    let flowId :=
      if isEbpf then packet.generateEbpfFlowId
      else generateFlowId packet.lookupKey.timestamp m.totalFlow m.id
    FlowNode.new config packet answers m.serials flowId >>= fun node =>
      if isEbpf ∧ !answers.serverPortFound then
        .ok ({ m with counter := { m.counter with closed := m.counter.closed + 1 } }, none)
      else .ok ({ m with size := m.size + 1, serials := m.serials + 1 }, some node)

/-- A packet that belongs to no flow starts a new one. -/
def createFlow (packet : MetaPacket) (answers : Answers) : Exec FlowMap :=
  if packet.isSocketClosed then .ok m
  else
    newFlowNode config m packet answers >>= fun r =>
      match r.2 with
      | none => .ok r.1
      | some node =>
        .ok { r.1 with
          timeSet := r.1.timeSet.insert node.timestampKey key
          nodeMap := Function.update r.1.nodeMap key (r.1.nodeMap key ++ [node])
          injected := r.1.injected ++ [(node.flow.serial, packet)] }

def turnPacket (node : FlowNode) (packet : MetaPacket) (turns : Bool) : MetaPacket :=
  if node.reportDue packet.lookupKey.timestamp true ∧ node.turnsAround turns then
    packet.withDirection (turned packet.lookupKey.direction)
  else packet

/-- Keep an updated node, and put its key down for the second of the packet. -/
def keepNode (index : Nat) (node : FlowNode) (time : Nat) : FlowMap :=
  if node.timestampKey ≠ time then
    { m with
      nodeMap := Function.update m.nodeMap key
        ((m.nodeMap key).set index { node with timestampKey := time })
      timeSet := m.timeSet.insert time key }
  else { m with nodeMap := Function.update m.nodeMap key ((m.nodeMap key).set index node) }

/-- A packet of a flow: report on the last interval, update the node, and remove
or keep it. -/
def updateFlow (index : Nat) (packet : MetaPacket) (answers : Answers) : Exec FlowMap :=
  let timestamp := packet.lookupKey.timestamp
  RustExec.index (m.nodeMap key) index >>= fun old =>
    let reported := old.updatedAftercare config timestamp true answers.turnsReport
    let packet := turnPacket old packet answers.turnsReport
    reported.1.update config packet answers >>= fun r =>
      let m :=
        { m with
          reports := m.reports ++ reported.2
          injected := m.injected ++ [(r.1.flow.serial, packet)] }
      if r.2 then
        .ok { m with
          nodeMap := Function.update m.nodeMap key (InPlace.swapRemove (m.nodeMap key) index)
          size := m.size - 1
          counter := { m.counter with closed := m.counter.closed + 1 }
          belowZero := m.belowZero || decide (m.size < 1)
          reports := m.reports ++ [r.1.removedAftercare timestamp answers.turnsReport] }
      else .ok (m.keepNode key index r.1 (timestamp / second))

def injectMetaPacket (answers : Answers) (m : FlowMap) (packet : MetaPacket) : Exec FlowMap :=
  injectFlushTicker config env m packet.lookupKey.timestamp >>= fun r =>
    if !r.2 then .ok r.1
    else
      FlowMapKey.new packet >>= fun key =>
        let found := position config (r.1.nodeMap key) packet
        match found.1 with
        | none => createFlow config r.1 key found.2 answers
        | some index => updateFlow config r.1 key index found.2 answers

end FlowMap

inductive Call where
  | packet (packet : MetaPacket) (answers : Answers)
  | flush (timestamp : Nat)

/-- One call, with what the environment answers. -/
def FlowMap.step (config : Config) (m : FlowMap) (call : Call × Env) : Exec FlowMap :=
  match call.1 with
  | .packet packet answers => m.injectMetaPacket config call.2 answers packet
  | .flush timestamp => m.injectFlushTicker config call.2 timestamp >>= fun r => .ok r.1

end ZeroTrace.FlowGenerator
