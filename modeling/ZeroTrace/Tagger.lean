import ZeroTrace.FlowNode
import ZeroTrace.SubQuadGen

/-!
# The tags of a document

The collector turns every merged meter of a flow into documents.  A document of
one end of the flow is tagged by `get_single_tagger`, a document of the path between
both ends by `get_edge_tagger`; which of the tags count is written into a bit set,
the `Code`.  Both read the flow as `MiniFlow` keeps it.

A capture port has 20 reserved bits that the key of a document is written into.
Every constructor of a port leaves them clear (`reserved_ofFields`), and a capture network
type is read from its number, so a flow carries both facts.
-/

namespace ZeroTrace.FlowGenerator

/-- `TryFrom<u16> for CaptureNetworkType`. -/
def CaptureNetworkType.tryFrom (t : BitVec 16) : Option CaptureNetworkType :=
  if t = 0 then some .any
  else if t = 3 then some .cloud
  else if t = 0xffff then some .unknown
  else if t < 256 then some (.idc (t.setWidth 8))
  else none

/-- The types that `try_from` delivers are read back from their number. -/
def CaptureNetworkType.Numbered (t : CaptureNetworkType) : Prop := tryFrom t.toU16 = some t

instance (t : CaptureNetworkType) : Decidable t.Numbered :=
  inferInstanceAs (Decidable (_ = _))

/-- `tunnel_type as u8`. -/
def TunnelType.toU8 : TunnelType → BitVec 8
  | .none => 0
  | .vxlan => 1
  | .ipip => 2
  | .tencentGre => 3
  | .geneve => 4
  | .vxlanNsh => 5
  | .erspan => 6
  | .teb => 7

/-- `TryFrom<u8> for TunnelType`. -/
def TunnelType.tryFrom (t : BitVec 8) : Option TunnelType :=
  if t = 0 then some .none
  else if t = 1 then some .vxlan
  else if t = 2 then some .ipip
  else if t = 3 then some .tencentGre
  else if t = 4 then some .geneve
  else if t = 5 then some .vxlanNsh
  else if t = 6 then some .erspan
  else if t = 7 then some .teb
  else none

namespace TapPort

/-- A port from its fields, as all constructors put it together. -/
def ofFields (low : BitVec 32) (tunnelType : TunnelType) (natSource kind : BitVec 8) : TapPort :=
  ⟨low.setWidth 64 ||| (tunnelType.toU8.setWidth 64 &&& 0xf#64) <<< 32 |||
    natSource.setWidth 64 <<< 36 ||| kind.setWidth 64 <<< 60⟩

/-- `from_local_mac`. -/
def ofLocalMac (natSource : BitVec 8) (tunnelType : TunnelType) (mac : BitVec 32) : TapPort :=
  ofFields mac tunnelType natSource 0

def reservedMask : BitVec 32 := 0xfffff

variable (port : TapPort)

/-- The bits that `set_reserved_bytes` writes to. -/
def reserved : BitVec 64 := port.bits &&& reservedMask.setWidth 64 <<< 40

def setReservedBytes (tapType : BitVec 32) : TapPort :=
  ⟨port.bits ||| (tapType &&& reservedMask).setWidth 64 <<< 40⟩

/-- `split_fields().1`, what kind of port it is. -/
def kind : BitVec 8 := (port.bits >>> 60).setWidth 8

/-- `split_fields().2`, with `None` for a number that no tunnel has. -/
def tunnelType : TunnelType :=
  (TunnelType.tryFrom ((port.bits >>> 32 &&& 0xf).setWidth 8)).getD .none

end TapPort

end ZeroTrace.FlowGenerator

namespace ZeroTrace.Collector

open FlowGenerator

def sideNode : BitVec 8 := 1#8 <<< 3

def sideHypervisor : BitVec 8 := 2#8 <<< 3

def sideGatewayHypervisor : BitVec 8 := 3#8 <<< 3

def sideGateway : BitVec 8 := 4#8 <<< 3

def sideProcess : BitVec 8 := 5#8 <<< 3

def sideApp : BitVec 8 := 6#8 <<< 3

/-- `Direction`: the side of a flow that it was captured at. -/
inductive Direction where
  | none
  | clientToServer
  | serverToClient
  | localToLocal
  | clientNodeToServer
  | serverNodeToClient
  | clientHypervisorToServer
  | serverHypervisorToClient
  | clientGatewayHypervisorToServer
  | serverGatewayHypervisorToClient
  | clientGatewayToServer
  | serverGatewayToClient
  | clientProcessToServer
  | serverProcessToClient
  | clientAppToServer
  | serverAppToClient
  | app
  deriving DecidableEq

namespace Direction

/-- `direction as u8`. -/
def toU8 : Direction → BitVec 8
  | none => 0
  | clientToServer => 1
  | serverToClient => 2
  | localToLocal => 4
  | clientNodeToServer => 1 ||| sideNode
  | serverNodeToClient => 2 ||| sideNode
  | clientHypervisorToServer => 1 ||| sideHypervisor
  | serverHypervisorToClient => 2 ||| sideHypervisor
  | clientGatewayHypervisorToServer => 1 ||| sideGatewayHypervisor
  | serverGatewayHypervisorToClient => 2 ||| sideGatewayHypervisor
  | clientGatewayToServer => 1 ||| sideGateway
  | serverGatewayToClient => 2 ||| sideGateway
  | clientProcessToServer => 1 ||| sideProcess
  | serverProcessToClient => 2 ||| sideProcess
  | clientAppToServer => 1 ||| sideApp
  | serverAppToClient => 2 ||| sideApp
  | app => sideApp

/-- `Direction::reverse`. -/
def reverse : Direction → Direction
  | clientToServer => serverToClient
  | serverToClient => clientToServer
  | clientNodeToServer => serverNodeToClient
  | serverNodeToClient => clientNodeToServer
  | clientHypervisorToServer => serverHypervisorToClient
  | serverHypervisorToClient => clientHypervisorToServer
  | clientGatewayHypervisorToServer => serverGatewayHypervisorToClient
  | serverGatewayHypervisorToClient => clientGatewayHypervisorToServer
  | clientGatewayToServer => serverGatewayToClient
  | serverGatewayToClient => clientGatewayToServer
  | clientProcessToServer => serverProcessToClient
  | serverProcessToClient => clientProcessToServer
  | clientAppToServer => serverAppToClient
  | serverAppToClient => clientAppToServer
  | direction => direction

/-- `From<&[Direction; 2]>`: the one side that is known, if it is only one. -/
def ofEnds (src dst : Direction) : Direction :=
  if src ≠ none ∧ dst = none then src
  else if src = none ∧ dst ≠ none then dst
  else none

end Direction

inductive TapSide where
  | rest
  | client
  | server
  | local
  | clientNode
  | serverNode
  | clientHypervisor
  | serverHypervisor
  | clientGatewayHypervisor
  | serverGatewayHypervisor
  | clientGateway
  | serverGateway
  | clientProcess
  | serverProcess
  | clientApp
  | serverApp
  | app
  deriving DecidableEq

namespace TapSide

/-- `tap_side as u8`. -/
def toU8 : TapSide → BitVec 8
  | rest => 0
  | client => 1
  | server => 2
  | «local» => 4
  | clientNode => 1 ||| sideNode
  | serverNode => 2 ||| sideNode
  | clientHypervisor => 1 ||| sideHypervisor
  | serverHypervisor => 2 ||| sideHypervisor
  | clientGatewayHypervisor => 1 ||| sideGatewayHypervisor
  | serverGatewayHypervisor => 2 ||| sideGatewayHypervisor
  | clientGateway => 1 ||| sideGateway
  | serverGateway => 2 ||| sideGateway
  | clientProcess => 1 ||| sideProcess
  | serverProcess => 2 ||| sideProcess
  | clientApp => 1 ||| sideApp
  | serverApp => 2 ||| sideApp
  | app => sideApp

/-- `TapSide::reverse`. -/
def reverse : TapSide → TapSide
  | client => server
  | server => client
  | clientNode => serverNode
  | serverNode => clientNode
  | clientHypervisor => serverHypervisor
  | serverHypervisor => clientHypervisor
  | clientGatewayHypervisor => serverGatewayHypervisor
  | serverGatewayHypervisor => clientGatewayHypervisor
  | clientGateway => serverGateway
  | serverGateway => clientGateway
  | clientProcess => serverProcess
  | serverProcess => clientProcess
  | clientApp => serverApp
  | serverApp => clientApp
  | side => side

end TapSide

/-- `From<Direction> for TapSide`. -/
def Direction.tapSide : Direction → TapSide
  | clientToServer => .client
  | serverToClient => .server
  | localToLocal => .local
  | clientNodeToServer => .clientNode
  | serverNodeToClient => .serverNode
  | clientHypervisorToServer => .clientHypervisor
  | serverHypervisorToClient => .serverHypervisor
  | clientGatewayHypervisorToServer => .clientGatewayHypervisor
  | serverGatewayHypervisorToClient => .serverGatewayHypervisor
  | clientGatewayToServer => .clientGateway
  | serverGatewayToClient => .serverGateway
  | clientProcessToServer => .clientProcess
  | serverProcessToClient => .serverProcess
  | clientAppToServer => .clientApp
  | serverAppToClient => .serverApp
  | app => .app
  | none => .rest

/-- `Code`, a set of tags. -/
structure Code where
  bits : BitVec 64
  deriving DecidableEq

namespace Code

instance : OrOp Code := ⟨fun a b => ⟨a.bits ||| b.bits⟩⟩

/-- `contains`, for one tag. -/
def contains (code tag : Code) : Bool := code.bits &&& tag.bits == tag.bits

/-- `Code::IP`. -/
def ip : Code := ⟨1#64 <<< 0⟩

/-- `Code::L3_EPC_ID`. -/
def l3EpcId : Code := ⟨1#64 <<< 1⟩

/-- `Code::MAC`. -/
def mac : Code := ⟨1#64 <<< 11⟩

/-- `Code::GPID`. -/
def gpid : Code := ⟨1#64 <<< 15⟩

/-- `Code::IP_PATH`. -/
def ipPath : Code := ⟨1#64 <<< 20⟩

/-- `Code::L3_EPC_PATH`. -/
def l3EpcPath : Code := ⟨1#64 <<< 21⟩

/-- `Code::MAC_PATH`. -/
def macPath : Code := ⟨1#64 <<< 31⟩

/-- `Code::GPID_PATH`. -/
def gpidPath : Code := ⟨1#64 <<< 35⟩

/-- `Code::DIRECTION`. -/
def direction : Code := ⟨1#64 <<< 40⟩

/-- `Code::ACL_GID`. -/
def aclGid : Code := ⟨1#64 <<< 41⟩

/-- `Code::PROTOCOL`. -/
def protocol : Code := ⟨1#64 <<< 42⟩

/-- `Code::SERVER_PORT`. -/
def serverPort : Code := ⟨1#64 <<< 43⟩

/-- `Code::TAP_TYPE`. -/
def tapType : Code := ⟨1#64 <<< 45⟩

/-- `Code::VTAP_ID`. -/
def vtapId : Code := ⟨1#64 <<< 47⟩

/-- `Code::TAP_PORT`. -/
def tapPort : Code := ⟨1#64 <<< 49⟩

/-- `Code::L7_PROTOCOL`. -/
def l7Protocol : Code := ⟨1#64 <<< 51⟩

/-- `Code::TUNNEL_IP_ID`. -/
def tunnelIpId : Code := ⟨1#64 <<< 62⟩

end Code

/-- `Tagger`, with its defaults. -/
structure Tagger where
  code : Code := ⟨0⟩
  ip : IpAddr := .unspecified
  ip1 : IpAddr := .unspecified
  globalThreadId : BitVec 8 := 0
  isIpv6 : Bool := false
  l3EpcId : BitVec 16 := -2
  l3EpcId1 : BitVec 16 := -2
  mac : MacAddr := {}
  mac1 : MacAddr := {}
  direction : Direction := .clientToServer
  tapSide : TapSide := .rest
  protocol : IpProtocol := ⟨0⟩
  aclGid : BitVec 16 := 0
  serverPort : BitVec 16 := 0
  agentId : BitVec 16 := 0
  tapPort : TapPort := {}
  tapType : CaptureNetworkType := .any
  l7Protocol : L7Protocol := .unknown
  gpid : BitVec 32 := 0
  gpid1 : BitVec 32 := 0
  otelService : Option String := none
  otelInstance : Option String := none
  endpoint : Option String := none
  bizType : BitVec 8 := 0
  signalSource : SignalSource := .packet
  podId : BitVec 32 := 0
  timeSpan : BitVec 32 := 0
  deriving DecidableEq

def Tagger.reverse (t : Tagger) (serverPort : BitVec 16) : Tagger :=
  { t with
    ip := t.ip1, ip1 := t.ip
    l3EpcId := t.l3EpcId1, l3EpcId1 := t.l3EpcId
    mac := t.mac1, mac1 := t.mac
    gpid := t.gpid1, gpid1 := t.gpid
    serverPort := serverPort
    tapSide := t.tapSide.reverse
    direction := t.direction.reverse }

structure PeerInfo where
  l3EpcId : BitVec 32 := 0
  isActiveHost : Bool := false
  isDevice : Bool := false
  isVipInterface : Bool := false
  hasPackets : Bool := false
  gpid : BitVec 32 := 0
  natRealIp : IpAddr := .unspecified
  natRealPort : BitVec 16 := 0
  deriving DecidableEq

/-- `FLOW_METRICS_PEER_SRC` and `FLOW_METRICS_PEER_DST`. -/
inductive Peer where
  | src
  | dst
  deriving DecidableEq

structure MiniFlow where
  flowKey : FlowKey
  ethType : EthernetType
  peerSrc : PeerInfo := {}
  peerDst : PeerInfo := {}
  signalSource : SignalSource := .packet
  directionSrc : Direction := .none
  directionDst : Direction := .none
  isActiveService : Bool := false
  closeType : CloseType := .unknown
  otelService : Option String := none
  otelInstance : Option String := none
  podId : BitVec 32 := 0
  networkNumbered : flowKey.tapType.Numbered := by decide
  reservedClear : flowKey.tapPort.reserved = 0 := by decide
  deriving DecidableEq

namespace MiniFlow

/-- `peers[ep]`. -/
def peer (flow : MiniFlow) : Peer → PeerInfo
  | .src => flow.peerSrc
  | .dst => flow.peerDst

/-- `directions[ep]`. -/
def direction (flow : MiniFlow) : Peer → Direction
  | .src => flow.directionSrc
  | .dst => flow.directionDst

/-- `eth_type == EthernetType::IPV6`. -/
def isIpv6 (flow : MiniFlow) : Bool := flow.ethType == .ipv6

end MiniFlow

/-- `CollectorConfig`, as far as tags depend on it. -/
structure CollectorConfig where
  inactiveServerPortAggregation : Bool := false
  inactiveIpAggregation : Bool := false
  agentId : BitVec 16 := 0
  deriving DecidableEq

inductive RunningMode where
  | managed
  | standalone
  deriving DecidableEq

/-- What a collector thread tags its documents with. -/
structure Context where
  globalThreadId : BitVec 8 := 0
  config : CollectorConfig := {}
  agentMode : RunningMode := .managed
  deriving DecidableEq

/-- The tags that a meter of the application layer brings along.  The meters of
the layers below bring the defaults. -/
structure AppTags where
  endpoint : Option String := none
  bizType : BitVec 8 := 0
  timeSpan : BitVec 32 := 0
  l7Protocol : L7Protocol := .unknown
  isReversed : Bool := false
  deriving DecidableEq

variable (ctx : Context) (flow : MiniFlow)

def epcInternet : BitVec 32 := -2

def unspecifiedIp (isIpv6 : Bool) : IpAddr :=
  if isIpv6 then .v6 (.replicate 16 0) else .unspecified

def getL3EpcId (l3EpcId : BitVec 32) (signalSource : SignalSource) : BitVec 16 :=
  if l3EpcId.slt 0 ∧ signalSource = .oTel then 0 else l3EpcId.setWidth 16

def ignoreServerPort (inactiveServerPortAggregation : Bool) : Bool :=
  (!flow.isActiveService && inactiveServerPortAggregation) ||
    (flow.flowKey.proto != .tcp && flow.flowKey.proto != .udp)

variable (ep : Peer) (direction : Direction)

/-- The address in the tags of one end. -/
def singleIp (isActiveHost : Bool) : IpAddr :=
  match ctx.agentMode with
  | .standalone =>
    if ep = .src then flow.peerSrc.natRealIp else flow.peerDst.natRealIp
  | .managed =>
    if ctx.config.inactiveIpAggregation then
      if !isActiveHost then unspecifiedIp flow.isIpv6 else (flow.peer ep).natRealIp
    else if ep = .src then
      if flow.peerSrc.l3EpcId ≠ epcInternet ∨ flow.signalSource = .oTel then
        flow.peerSrc.natRealIp
      else unspecifiedIp flow.isIpv6
    else flow.peerDst.natRealIp

/-- Whether the tags of one end have a hardware address. -/
def hasMac : Bool :=
  (flow.peer ep).isVipInterface || direction == .localToLocal

/-- The port in the tags of one end: only that of the server counts. -/
def singlePort (isReversed : Bool) : BitVec 16 :=
  if ignoreServerPort flow ctx.config.inactiveServerPortAggregation then 0
  else if ep = .src then
    if isReversed then flow.peerSrc.natRealPort else 0
  else if isReversed then 0
  else flow.peerDst.natRealPort

/-- `get_single_tagger`.  Reversing the direction writes to the variable that the
side is then made from, so the side is turned twice. -/
def getSingleTagger (isActiveHost : Bool) (app : AppTags) : Tagger :=
  let turned := if app.isReversed then direction.reverse else direction
  { globalThreadId := ctx.globalThreadId
    agentId := ctx.config.agentId
    mac :=
      if !hasMac flow ep direction then {}
      else if ep = .src then flow.flowKey.macSrc
      else flow.flowKey.macDst
    ip := singleIp ctx flow ep isActiveHost
    l3EpcId := getL3EpcId (flow.peer ep).l3EpcId flow.signalSource
    gpid := (flow.peer ep).gpid
    protocol := flow.flowKey.proto
    direction := turned
    tapSide := if app.isReversed then turned.tapSide.reverse else turned.tapSide
    tapPort := flow.flowKey.tapPort
    tapType := flow.flowKey.tapType
    serverPort := singlePort ctx flow ep app.isReversed
    isIpv6 := flow.isIpv6
    code :=
      let code := .ip ||| .l3EpcId ||| .gpid ||| .vtapId ||| .protocol ||| .serverPort |||
        .direction ||| .tapType
      if hasMac flow ep direction then code ||| .mac else code
    l7Protocol := app.l7Protocol
    signalSource := flow.signalSource
    otelService := flow.otelService
    otelInstance := flow.otelInstance
    endpoint := app.endpoint
    bizType := app.bizType
    podId := flow.podId
    timeSpan := app.timeSpan }

/-- The address of the source in the tags of a path. -/
def edgeSrcIp (isActiveHost0 : Bool) : IpAddr :=
  match ctx.agentMode with
  | .standalone => flow.peerSrc.natRealIp
  | .managed =>
    if ctx.config.inactiveIpAggregation then
      if !isActiveHost0 then unspecifiedIp flow.isIpv6 else flow.peerSrc.natRealIp
    else if flow.peerSrc.l3EpcId = epcInternet ∧ flow.signalSource ≠ .oTel then
      unspecifiedIp flow.isIpv6
    else flow.peerSrc.natRealIp

/-- The address of the destination in the tags of a path. -/
def edgeDstIp (isActiveHost1 : Bool) : IpAddr :=
  match ctx.agentMode with
  | .standalone => flow.peerDst.natRealIp
  | .managed =>
    if ctx.config.inactiveIpAggregation ∧ !isActiveHost1 then unspecifiedIp flow.isIpv6
    else flow.peerDst.natRealIp

/-- The hardware address of one end in the tags of a path. -/
def edgeMac : Peer → MacAddr
  | .src =>
    if direction ≠ .localToLocal ∧ !flow.peerSrc.isVipInterface then {} else flow.flowKey.macSrc
  | .dst =>
    if direction ≠ .localToLocal ∧ !flow.peerDst.isVipInterface then {} else flow.flowKey.macDst

/-- Whether the tags of a path have a hardware address. -/
def hasMacPath : Bool :=
  edgeMac flow direction .src != {} || edgeMac flow direction .dst != {}

/-- The port in the tags of a path: that of the end that serves. -/
def edgePort : BitVec 16 :=
  if ignoreServerPort flow ctx.config.inactiveServerPortAggregation then 0
  else (flow.peer ep).natRealPort

def getEdgeTagger (isActiveHost0 isActiveHost1 : Bool) (app : AppTags) : Tagger :=
  let tagger : Tagger :=
    { globalThreadId := ctx.globalThreadId
      agentId := ctx.config.agentId
      mac := edgeMac flow direction .src
      mac1 := edgeMac flow direction .dst
      ip := edgeSrcIp ctx flow isActiveHost0
      ip1 := edgeDstIp ctx flow isActiveHost1
      l3EpcId := getL3EpcId flow.peerSrc.l3EpcId flow.signalSource
      l3EpcId1 := getL3EpcId flow.peerDst.l3EpcId flow.signalSource
      gpid := flow.peerSrc.gpid
      gpid1 := flow.peerDst.gpid
      protocol := flow.flowKey.proto
      direction := direction
      tapSide := direction.tapSide
      tapPort := flow.flowKey.tapPort
      tapType := flow.flowKey.tapType
      serverPort := edgePort ctx flow .dst
      code :=
        let code := .ipPath ||| .l3EpcPath ||| .gpidPath ||| .vtapId ||| .protocol |||
          .serverPort ||| .direction ||| .tapType ||| .tapPort
        if hasMacPath flow direction then code ||| .macPath else code
      l7Protocol := app.l7Protocol
      isIpv6 := flow.isIpv6
      signalSource := flow.signalSource
      otelService := flow.otelService
      otelInstance := flow.otelInstance
      endpoint := app.endpoint
      podId := flow.podId
      bizType := app.bizType
      timeSpan := app.timeSpan }
  if app.isReversed then tagger.reverse (edgePort ctx flow .src) else tagger

end ZeroTrace.Collector
