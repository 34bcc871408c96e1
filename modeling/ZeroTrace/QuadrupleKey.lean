import ZeroTrace.PossibleHost
import ZeroTrace.StashKeyTags

/-!
# The key of the quadruple generator

Before a flow reaches the collector, its reports are merged with those of other flows
under a key of 32 or 56 bytes, and the first of them lends its addresses, sides and flags
to all.  This module has that key, and the documents that the collector makes of a flow.
-/

namespace ZeroTrace.Collector

open FlowGenerator

/-- `FlowMetricsPeer`, as far as keys and documents depend on it. -/
structure FlowPeer where
  l3EpcId : BitVec 32 := 0
  isActiveHost : Bool := false
  isDevice : Bool := false
  isVipInterface : Bool := false
  totalPacketCount : Nat := 0
  gpid : BitVec 32 := 0
  natRealIp : IpAddr := .unspecified
  natRealPort : BitVec 16 := 0
  deriving DecidableEq

/-- `Flow`, as far as keys and documents depend on it. -/
structure Flow where
  flowKey : FlowKey
  ethType : EthernetType
  peerSrc : FlowPeer := {}
  peerDst : FlowPeer := {}
  signalSource : SignalSource := .packet
  tapSide : TapSide := .rest
  directionSrc : Direction := .none
  directionDst : Direction := .none
  isActiveService : Bool := false
  closeType : CloseType := .unknown
  perfL7Protocol : Option L7Protocol := none
  otelService : Option String := none
  otelInstance : Option String := none
  podId : BitVec 32 := 0
  networkNumbered : flowKey.tapType.Numbered := by decide
  reservedClear : flowKey.tapPort.reserved = 0 := by decide

/-- `From<&FlowMetricsPeer> for PeerInfo`. -/
def FlowPeer.info (peer : FlowPeer) : PeerInfo where
  l3EpcId := peer.l3EpcId
  isActiveHost := peer.isActiveHost
  isDevice := peer.isDevice
  isVipInterface := peer.isVipInterface
  hasPackets := peer.totalPacketCount > 0
  gpid := peer.gpid
  natRealIp := peer.natRealIp
  natRealPort := peer.natRealPort

/-- `From<&Flow> for MiniFlow`. -/
def Flow.mini (flow : Flow) : MiniFlow where
  flowKey := flow.flowKey
  ethType := flow.ethType
  peerSrc := flow.peerSrc.info
  peerDst := flow.peerDst.info
  signalSource := flow.signalSource
  directionSrc := flow.directionSrc
  directionDst := flow.directionDst
  isActiveService := flow.isActiveService
  closeType := flow.closeType
  otelService := flow.otelService
  otelInstance := flow.otelInstance
  podId := flow.podId
  networkNumbered := flow.networkNumbered
  reservedClear := flow.reservedClear

/-- The low two bytes of a word, the higher one first. -/
def lowBytes2 {w : Nat} (x : BitVec w) : List (BitVec 8) :=
  [(x >>> 8).setWidth 8, x.setWidth 8]

/-- The low four bytes of a word, the highest first. -/
def lowBytes4 {w : Nat} (x : BitVec w) : List (BitVec 8) :=
  [(x >>> 24).setWidth 8, (x >>> 16).setWidth 8, (x >>> 8).setWidth 8, x.setWidth 8]

/-- `set_key`, by the fields in the order of their offsets.  Where the port does not
count, OpenTelemetry data have their protocol in its first byte. -/
def setKey (flow : Flow) : List (BitVec 8) :=
  lowBytes2 flow.peerSrc.l3EpcId ++ lowBytes2 flow.peerDst.l3EpcId ++
    (lowBytes4 flow.flowKey.tapPort.low ++
      [flow.flowKey.tapPort.kind, flow.flowKey.tapType.toU16.setWidth 8,
        flow.flowKey.tapPort.tunnelType.toU8, flow.tapSide.toU8]) ++
    [0] ++ [flow.flowKey.proto.value] ++
    (if flow.signalSource = .packet ∨ flow.isActiveService then lowBytes2 flow.flowKey.portDst
      else if flow.signalSource = .oTel then [l7Byte (flow.perfL7Protocol.getD .unknown), 0]
      else [0, 0]) ++
    lowBytes4 flow.peerSrc.gpid ++ lowBytes4 flow.peerDst.gpid

/-- `get_key`.  Addresses of the wrong family are left out. -/
def getKey (flow : Flow) : QgKey (List (BitVec 8)) :=
  if flow.ethType = .ipv6 then
    ⟨true, setKey flow ++
      match flow.flowKey.ipSrc, flow.flowKey.ipDst with
      | .v6 src, .v6 dst => src.toList ++ dst.toList
      | _, _ => List.replicate 32 0⟩
  else
    ⟨false, setKey flow ++
      match flow.flowKey.ipSrc, flow.flowKey.ipDst with
      | .v4 src, .v4 dst => src.toList ++ dst.toList
      | _, _ => List.replicate 8 0⟩

/-- The end that a document is about, none for the path. -/
def Entry.peer : Entry → Option Peer
  | single _ _ ep _ _ _ _ _ => some ep
  | _ => none

/-- What the collector receives of a flow, with the activity of its ends. -/
def accFlow [Lru.Crate] (hosts : Option PossibleHost) (flow : MiniFlow) : AccFlow Unit where
  flow := flow
  isActiveHost0 := (checkActive hosts flow).1.1
  isActiveHost1 := (checkActive hosts flow).1.2
  flowMeter := ()

def documents [Lru.Crate] (ctx : Context) (hosts : Option PossibleHost) (flow : MiniFlow) :
    List (Option Peer × RustExec.Exec StashKey) :=
  (flowEntriesL4 ctx (accFlow hosts flow)).map fun e => (e.peer, e.key)

end ZeroTrace.Collector
