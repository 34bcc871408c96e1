import ZeroTrace.FlowState

/-!
# Flow nodes

A `FlowNode` holds one flow: its addresses, the counts of both directions, the
time of its last packet and the timeout after which it ends.  This module has
the functions of the flow map that work on one node: creating it from its first
packet, matching a packet against it, updating it, turning it around, and
clearing its counts after a report.

What the node functions ask of the rest of the program is an `Answers`: what the
policy lookup finds about the packet, whether the service table wants the flow
turned around, and what the parsers of the payload report.  Of the fields that
are left out, none is read by the functions modelled here.
-/

namespace ZeroTrace.FlowGenerator

open RustExec

inductive AgentType where
  | ttUnknown
  | ttProcess
  | ttVm
  | ttPublicCloud
  | ttPhysicalMachine
  | ttDedicatedPhysicalMachine
  | ttHostPod
  | ttVmPod
  | ttTunnelDecapsulation
  | ttHyperVCompute
  | ttHyperVNetwork
  | ttK8sSidecar
  deriving DecidableEq

/-- `is_tt_hyper_v`. -/
def AgentType.isHyperV (agentType : AgentType) : Bool :=
  agentType == .ttHyperVCompute || agentType == .ttHyperVNetwork

/-- `is_tt_pod`. -/
def AgentType.isPod (agentType : AgentType) : Bool :=
  agentType == .ttHostPod || agentType == .ttVmPod || agentType == .ttK8sSidecar

/-- The parts of `FlowConfig` and `LogParserConfig` that the flow map reads. -/
structure Config where
  packetDelay : Nat := second
  tcpTimeout : TcpTimeout := {}
  l7LogSessionAggrMaxTimeout : Nat := 300 * second
  collectorEnabled : Bool := true
  ignoreL2End : Bool := false
  ignoreTorMac : Bool := false
  ignoreIdcVlan : Bool := false
  agentType : AgentType := .ttProcess
  capacity : Nat := 65535
  deriving DecidableEq

def Config.flowTimeout (config : Config) : FlowTimeout := config.tcpTimeout.flowTimeout

def defaultSocketCloseTimeout : Nat := 1 * second

structure FlowKey where
  tapType : CaptureNetworkType
  tapPort : TapPort
  macSrc : MacAddr
  macDst : MacAddr
  ipSrc : IpAddr
  ipDst : IpAddr
  portSrc : BitVec 16
  portDst : BitVec 16
  proto : IpProtocol
  deriving DecidableEq

def FlowKey.reverse (key : FlowKey) : FlowKey :=
  { key with
    macSrc := key.macDst, macDst := key.macSrc
    ipSrc := key.ipDst, ipDst := key.ipSrc
    portSrc := key.portDst, portDst := key.portSrc }

structure FlowMetricsPeer where
  packetCount : Nat := 0
  totalPacketCount : Nat := 0
  byteCount : Nat := 0
  totalByteCount : Nat := 0
  l3ByteCount : Nat := 0
  l4ByteCount : Nat := 0
  isL2End : Bool := false
  deriving DecidableEq

/-- The counts of a peer with one more packet. -/
def FlowMetricsPeer.add (peer : FlowMetricsPeer) (packet : MetaPacket) : FlowMetricsPeer :=
  { peer with
    packetCount := peer.packetCount + 1
    totalPacketCount := peer.totalPacketCount + 1
    byteCount := peer.byteCount + packet.packetLen
    l3ByteCount := peer.l3ByteCount + packet.l3PayloadLen
    l4ByteCount := peer.l4ByteCount + packet.l4PayloadLen
    totalByteCount := peer.totalByteCount + packet.packetLen }

/-- The counts of a peer after a report: the totals stay. -/
def FlowMetricsPeer.reset (peer : FlowMetricsPeer) : FlowMetricsPeer :=
  { peer with packetCount := 0, byteCount := 0, l3ByteCount := 0, l4ByteCount := 0 }

/-- `Flow`.  `serial` is a ghost, the number of the flow in the order in which
the map created them. -/
structure Flow where
  flowKey : FlowKey
  flowId : BitVec 64
  serial : Nat
  signalSource : SignalSource
  ethType : EthernetType
  vlan : BitVec 16
  tunnelType : TunnelType
  flowStatTime : Nat
  endTime : Nat := 0
  peerSrc : FlowMetricsPeer
  peerDst : FlowMetricsPeer := {}
  deriving DecidableEq

namespace Flow

/-- `Flow::reverse`. -/
def reverse (flow : Flow) : Flow :=
  { flow with
    flowKey := flow.flowKey.reverse
    peerSrc := flow.peerDst
    peerDst := flow.peerSrc }

/-- Change `flow_metrics_peers[direction]`. -/
def updatePeer (flow : Flow) (direction : PacketDirection)
    (f : FlowMetricsPeer → FlowMetricsPeer) : Flow :=
  match direction with
  | .clientToServer => { flow with peerSrc := f flow.peerSrc }
  | .serverToClient => { flow with peerDst := f flow.peerDst }

end Flow

structure FlowNode where
  flow : Flow
  recentTime : Nat
  timeout : Nat := 0
  timestampKey : Nat
  residualRequest : Int := 0
  packetInTick : Bool := true
  flowState : FlowState := .raw
  deriving DecidableEq

def turned (direction : PacketDirection) : PacketDirection :=
  match direction with
  | .clientToServer => .serverToClient
  | .serverToClient => .clientToServer

/-- What the rest of the program answers while a packet is handled: the NAT
source and the layer-2 ends that the policy lookup finds, whether the service
table turns the flow around when a report is due and when the packet is
handled, and what the payload parsers report, with the direction they settle
on and whether they found a server port. -/
structure Answers where
  natSource : BitVec 8 := 0
  l2Ends : Option (Bool × Bool) := none
  turnsReport : Bool := false
  turnsPacket : Bool := false
  count : Int := 0
  parsedDirection : PacketDirection := .clientToServer
  turnsParsed : Bool := false
  serverPortFound : Bool := true
  deriving DecidableEq

namespace FlowNode

/-! ### Matching -/

inductive MatchMac where
  | none
  | dst
  | src
  | all
  deriving DecidableEq

def macMatch (packet : MetaPacket) (ignoreL2End ignoreTorMac : Bool) (agentType : AgentType) :
    MatchMac :=
  let ignoreMac :=
    match packet.tunnel with
    | some tunnel =>
      (agentType.isHyperV && decide (tunnel.tier < 2)) || tunnel.tunnelType == .tencentGre ||
        tunnel.tunnelType == .ipip
    | none => false
  let isFromGateway := packet.tapPort.isFrom TapPort.fromGatewayMac
  let isFromIsp := packet.lookupKey.tapType != .cloud
  if isFromIsp || ignoreMac || ignoreTorMac || isFromGateway then .none
  else
    let isFromTrident := packet.lookupKey.tapType == .cloud && decide (packet.tapPort.low > 0)
    if !ignoreL2End && isFromTrident then
      if !packet.lookupKey.l2End0 && !packet.lookupKey.l2End1 then .none
      else if !packet.lookupKey.l2End0 then .dst
      else .src
    else .all

def macMatchWithDirection (packet : MetaPacket) (flowMacSrc flowMacDst : MacAddr)
    (matchMac : MatchMac) : Bool :=
  let macs :=
    match packet.lookupKey.direction with
    | .clientToServer => (flowMacSrc, flowMacDst)
    | .serverToClient => (flowMacDst, flowMacSrc)
  match matchMac with
  | .dst => macs.2 == packet.lookupKey.dstMac
  | .src => macs.1 == packet.lookupKey.srcMac
  | .all => macs.2 == packet.lookupKey.dstMac && macs.1 == packet.lookupKey.srcMac
  | .none => true

def endpointMatchWithDirection (peerSrc peerDst : FlowMetricsPeer) (packet : MetaPacket) : Bool :=
  if packet.tunnel.isNone then true
  else
    match packet.lookupKey.direction with
    | .clientToServer =>
      packet.lookupKey.l2End0 == peerSrc.isL2End && packet.lookupKey.l2End1 == peerDst.isL2End
    | .serverToClient =>
      packet.lookupKey.l2End0 == peerDst.isL2End && packet.lookupKey.l2End1 == peerSrc.isL2End

end FlowNode

def MetaPacket.withDirection (packet : MetaPacket) (direction : PacketDirection) : MetaPacket :=
  { packet with lookupKey := { packet.lookupKey with direction := direction } }

def MetaPacket.tcpFlags (packet : MetaPacket) : Exec (BitVec 8) :=
  match packet.protocolData with
  | .tcpHeader flags => .ok flags
  | .icmpData _ => .error .unreachable

namespace FlowNode

variable (config : Config) (node : FlowNode) (packet : MetaPacket) (answers : Answers)

/-- `match_node` for eBPF data: by the flow id alone. -/
def matchEbpf : Bool × MetaPacket :=
  if node.flow.flowId ≠ packet.generateEbpfFlowId then (false, packet)
  else if node.flow.flowKey.ipSrc = packet.lookupKey.srcIp ∧
      node.flow.flowKey.portSrc = packet.lookupKey.srcPort then
    (true, packet.withDirection .clientToServer)
  else (true, packet.withDirection .serverToClient)

/-- `match_node` for Ethernet types other than IP: by the addresses. -/
def matchOther (key : FlowKey) (packet : MetaPacket) : Bool × MetaPacket :=
  let lookupKey := packet.lookupKey
  if key.macSrc = lookupKey.srcMac ∧ key.macDst = lookupKey.dstMac ∧
      key.ipSrc = lookupKey.srcIp ∧ key.ipDst = lookupKey.dstIp then
    (true, packet.withDirection .clientToServer)
  else if key.macSrc = lookupKey.dstMac ∧ key.macDst = lookupKey.srcMac ∧
      key.ipSrc = lookupKey.dstIp ∧ key.ipDst = lookupKey.srcIp then
    (true, packet.withDirection .serverToClient)
  else (false, packet)

/-- `match_node` for IP: by addresses and ports, and the ends of the tunnel. -/
def matchIp (ignoreL2End ignoreTorMac : Bool) (agentType : AgentType) : Bool × MetaPacket :=
  let key := node.flow.flowKey
  let lookupKey := packet.lookupKey
  let tunnelType := (packet.tunnel.map TunnelInfo.tunnelType).getD .none
  if key.proto ≠ lookupKey.proto then (false, packet)
  else if node.flow.tunnelType ≠ tunnelType ∧ !agentType.isHyperV ∧ !agentType.isPod then
    (false, packet)
  else
    let matchMac := macMatch packet ignoreL2End ignoreTorMac agentType
    let ends (packet : MetaPacket) : Bool × MetaPacket :=
      (endpointMatchWithDirection node.flow.peerSrc node.flow.peerDst packet &&
        macMatchWithDirection packet key.macSrc key.macDst matchMac, packet)
    if key.ipSrc = lookupKey.srcIp ∧ key.ipDst = lookupKey.dstIp ∧
        key.portSrc = lookupKey.srcPort ∧ key.portDst = lookupKey.dstPort then
      ends (packet.withDirection .clientToServer)
    else if key.ipSrc = lookupKey.dstIp ∧ key.ipDst = lookupKey.srcIp ∧
        key.portSrc = lookupKey.dstPort ∧ key.portDst = lookupKey.srcPort then
      ends (packet.withDirection .serverToClient)
    else (false, packet)

/-- `match_node`: whether the packet belongs to the flow, and the packet with
the direction it then has.  A packet may keep the direction although it is
refused in the end. -/
def matchNode (ignoreL2End ignoreTorMac ignoreIdcVlan : Bool) (agentType : AgentType) :
    Bool × MetaPacket :=
  if packet.signalSource = .ebpf then node.matchEbpf packet
  else if node.flow.flowKey.tapPort.getTapMac ≠ packet.tapPort.getTapMac ∨
      node.flow.flowKey.tapType ≠ packet.lookupKey.tapType then (false, packet)
  else if node.flow.ethType ≠ packet.lookupKey.ethType then (false, packet)
  else if node.flow.vlan ≠ packet.vlan ∧ packet.lookupKey.tapType ≠ .cloud ∧ !ignoreIdcVlan then
    (false, packet)
  else if node.flow.ethType ≠ .ipv4 ∧ packet.lookupKey.ethType ≠ .ipv6 then
    matchOther node.flow.flowKey packet
  else node.matchIp packet ignoreL2End ignoreTorMac agentType

/-! ### Creating and updating -/

/-- `reverse_flow`. -/
def reverse : FlowNode := { node with flow := node.flow.reverse }

def turnIf (turns : Bool) : FlowNode := if turns then node.reverse else node

/-- Only TCP and UDP flows of captured packets are turned around for a report. -/
def turnsAround (turns : Bool) : Bool :=
  node.flow.signalSource != .ebpf &&
    (node.flow.flowKey.proto == .tcp || node.flow.flowKey.proto == .udp) && turns

def updateFlowDirection (turns : Bool) : FlowNode :=
  node.turnIf (node.turnsAround turns)

def resetFlowStatInfo : FlowNode :=
  { node with
    packetInTick := false
    flow :=
      { node.flow with
        flowStatTime := 0
        peerSrc := node.flow.peerSrc.reset
        peerDst := node.flow.peerDst.reset } }

/-- `update_flow_metrics_peers`, for the ends that a lookup found. -/
def setL2Ends (l2Ends : Option (Bool × Bool)) : FlowNode :=
  match l2Ends with
  | none => node
  | some ends =>
    { node with
      flow :=
        { node.flow with
          peerSrc := { node.flow.peerSrc with isL2End := ends.1 }
          peerDst := { node.flow.peerDst with isL2End := ends.2 } } }

def setNatSource (natSource : BitVec 8) : FlowNode :=
  { node with
    flow :=
      { node.flow with
        flowKey :=
          { node.flow.flowKey with tapPort := node.flow.flowKey.tapPort.setNatSource natSource } } }

variable (serial : Nat) (flowId : BitVec 64)

def ofPacket : FlowNode where
  flow :=
    { flowKey :=
        { tapType := packet.lookupKey.tapType
          tapPort := packet.tapPort
          macSrc := packet.lookupKey.srcMac
          macDst := packet.lookupKey.dstMac
          ipSrc := packet.lookupKey.srcIp
          ipDst := packet.lookupKey.dstIp
          portSrc := packet.lookupKey.srcPort
          portDst := packet.lookupKey.dstPort
          proto := packet.lookupKey.proto }
      flowId := flowId
      serial := serial
      signalSource := packet.signalSource
      ethType := packet.lookupKey.ethType
      vlan := packet.vlan
      tunnelType := (packet.tunnel.map TunnelInfo.tunnelType).getD .none
      flowStatTime := packet.lookupKey.timestamp / second * second
      peerSrc := FlowMetricsPeer.add {} packet }
  recentTime := packet.lookupKey.timestamp
  timestampKey := packet.lookupKey.timestamp / second

/-- `init_flow`.  eBPF flows are turned around on the word of the service
table, answers to a ping at once. -/
def initFlow : FlowNode :=
  let node := ((ofPacket packet serial flowId).setL2Ends answers.l2Ends).setNatSource
    answers.natSource
  if packet.signalSource = .ebpf then node.turnIf answers.turnsPacket
  else
    match packet.protocolData with
    | .icmpData icmpType => node.turnIf (icmpType == 0)
    | .tcpHeader _ => node

/-- The time of the last packet, and the interval that the counts belong to. -/
def noticeTime (timestamp : Nat) : FlowNode :=
  { node with
    recentTime := if timestamp > node.recentTime then timestamp else node.recentTime
    packetInTick := true
    flow :=
      { node.flow with
        flowStatTime :=
          if !node.packetInTick then timestamp / second * second else node.flow.flowStatTime } }

def countPacket : FlowNode :=
  let flow := node.flow.updatePeer packet.lookupKey.direction fun peer => peer.add packet
  { node with
    flow :=
      { flow with
        vlan := if packet.vlan > 0 then packet.vlan else flow.vlan
        tunnelType :=
          match packet.tunnel with
          | some tunnel => tunnel.tunnelType
          | none => flow.tunnelType } }

/-- `update_nat_info`: a NAT source gives way to a better one. -/
def updateNatInfo (natSource : BitVec 8) : FlowNode :=
  if natSource > node.flow.flowKey.tapPort.getNatSource then node.setNatSource natSource else node

def updateFlow : FlowNode :=
  let node := ((node.noticeTime packet.lookupKey.timestamp).setL2Ends
    answers.l2Ends).updateNatInfo answers.natSource
  if node.flow.signalSource = .ebpf then node else node.countPacket packet

def updateL4Direction : Exec (FlowNode × MetaPacket) :=
  let turn : FlowNode × MetaPacket :=
    if answers.turnsPacket then
      (node.reverse, packet.withDirection (turned packet.lookupKey.direction))
    else (node, packet)
  if packet.lookupKey.proto = .tcp then
    match packet.protocolData with
    | .tcpHeader _ => .ok turn
    | .icmpData _ => .error .unreachable
  else if packet.lookupKey.proto = .udp then .ok turn
  else .error .unreachable

def updateFlowStateMachine (flags : BitVec 8) (direction : PacketDirection) : FlowNode × Bool :=
  let value := StateMachine.valueFor config.flowTimeout node.flowState flags direction
  ({ node with
      flowState := value.state
      timeout :=
        if node.flow.peerSrc.totalPacketCount = 0 ∨ node.flow.peerDst.totalPacketCount = 0 then
          config.flowTimeout.singleDirection
        else value.timeout },
    value.closed)

/-- `collect_metric`: the parsers settle the direction of the packet and may
turn the flow around. -/
def collectMetric : FlowNode × MetaPacket × Int :=
  if config.collectorEnabled then
    (node.turnIf answers.turnsParsed, packet.withDirection answers.parsedDirection, answers.count)
  else (node, packet, 0)

/-- A segment that opens a connection, or that asks for it, corrects the
direction of the flow. -/
def correctDirection (flags : BitVec 8) (answers : Answers) : Exec (FlowNode × MetaPacket) :=
  if flags &&& TcpFlags.syn ≠ 0 ∨ packet.needReverseFlow then
    node.updateL4Direction packet answers
  else .ok (node, packet)

def enterState (flags : BitVec 8) (direction : PacketDirection) : FlowNode × Bool :=
  if TcpFlags.isInvalid flags then
    ({ node with timeout := config.flowTimeout.exception, flowState := .exception }, false)
  else node.updateFlowStateMachine config flags direction

/-- `update_tcp_flow`.  The state machine gets the direction that the packet
had on entry, also when the flow is turned around in between. -/
def updateTcpFlow : Exec (FlowNode × MetaPacket × Bool) :=
  packet.tcpFlags >>= fun flags =>
    let node := node.updateFlow packet answers
    if node.flow.signalSource = .ebpf then .ok (node, packet, false)
    else
      node.correctDirection packet flags answers >>= fun r =>
        let s := r.1.enterState config flags packet.lookupKey.direction
        .ok (s.1, r.2, s.2)

/-- The value that an `i32` has after arithmetic. -/
def wrapI32 (n : Int) : Int := (n + 2 ^ 31) % 2 ^ 32 - 2 ^ 31

/-- The open requests after `count` messages of a direction. -/
def residualAfter (direction : PacketDirection) (count : Int) : Int :=
  match direction with
  | .clientToServer => wrapI32 (node.residualRequest + count)
  | .serverToClient => wrapI32 (node.residualRequest - count)

/-- The timeout of an eBPF flow after a packet with `count` messages: short when
no request is open, else long enough for the session to be put together. -/
def settleEbpf (direction : PacketDirection) (count : Int) : FlowNode :=
  if node.flow.signalSource = .ebpf ∧ count > 0 then
    { node with
      residualRequest := node.residualAfter direction count
      timeout :=
        if node.residualAfter direction count = 0 then config.flowTimeout.opening
        else config.l7LogSessionAggrMaxTimeout }
  else node

def updateTcpNode : Exec (FlowNode × Bool) :=
  if packet.isSocketClosed then .ok ({ node with timeout := defaultSocketCloseTimeout }, false)
  else
    node.updateTcpFlow config packet answers >>= fun r =>
      let s := r.1.collectMetric config r.2.1 answers
      .ok (s.1.settleEbpf config s.2.1.lookupKey.direction s.2.2, r.2.2)

def bothDirections : Bool :=
  decide (node.flow.peerSrc.packetCount > 0) && decide (node.flow.peerDst.packetCount > 0)

/-- A flow with packets in both directions gets another timeout. -/
def relax (timeout : Nat) : FlowNode :=
  if node.bothDirections then { node with timeout := timeout } else node

def updateUdpNode : Exec (FlowNode × Bool) :=
  let node := (node.updateFlow packet answers).relax config.flowTimeout.closing
  let r := node.collectMetric config packet answers
  if packet.needReverseFlow then
    r.1.updateL4Direction r.2.1 answers >>= fun s => .ok (s.1, false)
  else .ok (r.1, false)

def updateOtherNode : Exec (FlowNode × Bool) :=
  let node := (node.updateFlow packet answers).relax config.flowTimeout.establishedRst
  .ok ((node.collectMetric config packet answers).1, false)

def update : Exec (FlowNode × Bool) :=
  if node.flow.flowKey.proto = .tcp then node.updateTcpNode config packet answers
  else if node.flow.flowKey.proto = .udp then node.updateUdpNode config packet answers
  else node.updateOtherNode config packet answers

def openTcp : Exec (FlowNode × MetaPacket) :=
  node.updateL4Direction packet answers >>= fun r =>
    r.2.tcpFlags >>= fun flags =>
      let node :=
        if TcpFlags.isInvalid flags then
          { r.1 with timeout := config.flowTimeout.exception, flowState := .exception }
        else r.1
      .ok ((node.updateFlowStateMachine config flags r.2.lookupKey.direction).1, r.2)

def openEbpf : FlowNode :=
  { node with
    timeout :=
      if packet.isSocketClosed then defaultSocketCloseTimeout
      else config.l7LogSessionAggrMaxTimeout }

def newTcpNode : Exec FlowNode :=
  let node := initFlow packet answers serial flowId
  (if node.flow.signalSource = .ebpf then .ok (node.openEbpf config packet, packet)
    else node.openTcp config packet answers) >>= fun r =>
      let s := r.1.collectMetric config r.2 answers
      if s.1.flow.signalSource = .ebpf ∧ packet.isSocketClosed ∧ s.2.2 > 0 then
        .ok { s.1 with
          residualRequest := s.1.residualAfter s.2.1.lookupKey.direction s.2.2 }
      else .ok s.1

def newUdpNode : Exec FlowNode :=
  let node :=
    { initFlow packet answers serial flowId with
      flowState := .established, timeout := config.flowTimeout.opening }
  (if node.flow.signalSource = .ebpf then .ok (node, packet)
    else node.updateL4Direction packet answers) >>= fun r =>
      .ok (r.1.collectMetric config r.2 answers).1

def newOtherNode : FlowNode :=
  let node :=
    { initFlow packet answers serial flowId with
      flowState := .established, timeout := config.flowTimeout.opening }
  (node.collectMetric config packet answers).1

def new : Exec FlowNode :=
  if packet.lookupKey.proto = .tcp then newTcpNode config packet answers serial flowId
  else if packet.lookupKey.proto = .udp then newUdpNode config packet answers serial flowId
  else .ok (newOtherNode config packet answers serial flowId)

/-! ### Reports -/

/-- The report on a node is due: on a tick, or on a packet of another interval. -/
def reportDue (timestamp : Nat) (onPacket : Bool) : Bool :=
  node.packetInTick &&
    (!onPacket || decide (timestamp ≥ node.flow.flowStatTime + second) ||
      decide (timestamp < node.flow.flowStatTime))

/-- `node_updated_aftercare`: report on the flow and clear its counts, when a
report is due. -/
def updatedAftercare (timestamp : Nat) (onPacket turns : Bool) : FlowNode × List Flow :=
  if node.reportDue timestamp onPacket then
    let node := node.updateFlowDirection turns
    if config.collectorEnabled then (node.resetFlowStatInfo, [node.flow]) else (node, [])
  else (node, [])

/-- `node_removed_aftercare`: the last report on a flow. -/
def removedAftercare (timeout : Nat) (turns : Bool) : Flow :=
  { (node.updateFlowDirection turns).flow with
    endTime := timeout
    flowStatTime := timeout / second * second }

end FlowNode

end ZeroTrace.FlowGenerator
