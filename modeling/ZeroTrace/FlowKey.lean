import ZeroTrace.RustExec
import ZeroTrace.L7ProtocolInfo

/-!
# Packets and the key of the flow map

A packet is filed under a `FlowMapKey`, two words that pack its addresses,
ports, capture network and capture port.  The packing differs by Ethernet type:
for IP and ARP the capture port is shifted by 32 bits, so that only its low
word stays; for every other type the whole port stays, except for the four bits
that say how an address was translated.  A key is the same for both directions
of a flow, because addresses and ports are put in order before they are packed.

Machine words are bit vectors.  Of a packet the fields are kept that the flow
map reads.
-/

namespace ZeroTrace.FlowGenerator

open RustExec

/-- `EthernetType`, a `u16`. -/
structure EthernetType where
  value : BitVec 16
  deriving DecidableEq

namespace EthernetType

/-- `EthernetType::LLC`, the default. -/
def llc : EthernetType := ⟨0⟩

/-- `EthernetType::IPV4`. -/
def ipv4 : EthernetType := ⟨0x0800⟩

/-- `EthernetType::ARP`. -/
def arp : EthernetType := ⟨0x0806⟩

/-- `EthernetType::IPV6`. -/
def ipv6 : EthernetType := ⟨0x86dd⟩

end EthernetType

/-- `IpProtocol`, a `u8`. -/
structure IpProtocol where
  value : BitVec 8
  deriving DecidableEq

namespace IpProtocol

/-- `IpProtocol::TCP`. -/
def tcp : IpProtocol := ⟨6⟩

/-- `IpProtocol::UDP`. -/
def udp : IpProtocol := ⟨17⟩

end IpProtocol

inductive CaptureNetworkType where
  | any
  | idc (value : BitVec 8)
  | cloud
  | max
  | unknown
  deriving DecidableEq

/-- `u16::from(CaptureNetworkType)`. -/
def CaptureNetworkType.toU16 : CaptureNetworkType → BitVec 16
  | .any => 0
  | .idc value => value.setWidth 16
  | .cloud => 3
  | .max => 256
  | .unknown => 0xffff

/-- `u32::from_le_bytes`. -/
def fromLeBytes (b₀ b₁ b₂ b₃ : BitVec 8) : BitVec 32 := b₃ ++ b₂ ++ b₁ ++ b₀

/-- `IpAddr`, by its octets. -/
inductive IpAddr where
  | v4 (octets : Vector (BitVec 8) 4)
  | v6 (octets : Vector (BitVec 8) 16)
  deriving DecidableEq

/-- `Ipv4Addr::UNSPECIFIED`. -/
def IpAddr.unspecified : IpAddr := .v4 (.replicate 4 0)

/-- The octets of an IPv4 address as a `u32`. -/
def word4 (octets : Vector (BitVec 8) 4) : BitVec 32 :=
  fromLeBytes (octets.get 0) (octets.get 1) (octets.get 2) (octets.get 3)

/-- The octets of an IPv6 address are numbered by literals. -/
instance neZero_sixteen : NeZero 16 := ⟨by decide⟩

/-- The four chunks of an IPv6 address, each a `u32`. -/
def words6 (octets : Vector (BitVec 8) 16) : List (BitVec 32) :=
  [fromLeBytes (octets.get 0) (octets.get 1) (octets.get 2) (octets.get 3),
    fromLeBytes (octets.get 4) (octets.get 5) (octets.get 6) (octets.get 7),
    fromLeBytes (octets.get 8) (octets.get 9) (octets.get 10) (octets.get 11),
    fromLeBytes (octets.get 12) (octets.get 13) (octets.get 14) (octets.get 15)]

/-- `MacAddr`, six octets in network order. -/
structure MacAddr where
  octets : Vector (BitVec 8) 6 := .replicate 6 0
  deriving DecidableEq

/-- `u64::from(MacAddr)`. -/
def MacAddr.toU64 (mac : MacAddr) : BitVec 64 :=
  (mac.octets.get 0 ++ mac.octets.get 1).setWidth 64 <<< 32 |||
    (mac.octets.get 2 ++ mac.octets.get 3 ++ mac.octets.get 4 ++ mac.octets.get 5).setWidth 64

/-- `TapPort`: where a packet was captured.  Bits 60 to 63 say what kind of
port it is, 40 to 59 are reserved, 36 to 39 say how an address was translated,
32 to 35 hold the tunnel type and 0 to 31 the port itself. -/
structure TapPort where
  bits : BitVec 64 := 0
  deriving DecidableEq

namespace TapPort

def fromGatewayMac : BitVec 8 := 1

def fromEbpf : BitVec 8 := 7

/-- `NAT_SOURCE_MASK << NAT_SOURCE_OFFSET`. -/
def natSourceMask : BitVec 64 := 0xf <<< 36

def tapMacMask : BitVec 64 := 0xf0000000ffffffff

variable (port : TapPort)

def isFrom (w : BitVec 8) : Bool := (port.bits >>> 60).setWidth 8 == w

def getTapMac : BitVec 64 := port.bits &&& tapMacMask

def ignoreNatSource : BitVec 64 := port.bits &&& ~~~natSourceMask

def getNatSource : BitVec 8 := (port.bits >>> 36 &&& 0xf).setWidth 8

def setNatSource (w : BitVec 8) : TapPort :=
  ⟨port.bits &&& ~~~natSourceMask ||| w.setWidth 64 <<< 36⟩

/-- `split_fields().0`, the low word. -/
def low : BitVec 32 := port.bits.setWidth 32

end TapPort

inductive TunnelType where
  | none
  | vxlan
  | ipip
  | tencentGre
  | geneve
  | vxlanNsh
  | erspan
  | teb
  deriving DecidableEq

/-- `TunnelInfo`, with the fields that decide about a match. -/
structure TunnelInfo where
  tunnelType : TunnelType := .none
  tier : Nat := 0
  deriving DecidableEq

/-- `ProtocolData`: the flags of a TCP header, or the type of an ICMP message. -/
inductive ProtocolData where
  | tcpHeader (flags : BitVec 8)
  | icmpData (icmpType : BitVec 8)
  deriving DecidableEq

structure LookupKey where
  timestamp : Nat := 0
  srcMac : MacAddr := {}
  dstMac : MacAddr := {}
  srcIp : IpAddr := .unspecified
  dstIp : IpAddr := .unspecified
  srcPort : BitVec 16 := 0
  dstPort : BitVec 16 := 0
  ethType : EthernetType := .llc
  l2End0 : Bool := false
  l2End1 : Bool := false
  proto : IpProtocol := ⟨0⟩
  tapType : CaptureNetworkType := .any
  direction : PacketDirection := .clientToServer
  deriving DecidableEq

/-- `MetaPacket`.  eBPF data are marked twice, by their source and by their
capture port, and only they report that a socket was closed. -/
structure MetaPacket where
  lookupKey : LookupKey := {}
  tapPort : TapPort := {}
  signalSource : SignalSource := .packet
  vlan : BitVec 16 := 0
  tunnel : Option TunnelInfo := none
  protocolData : ProtocolData := .tcpHeader 0
  packetLen : Nat := 0
  l3PayloadLen : Nat := 0
  l4PayloadLen : Nat := 0
  needReverseFlow : Bool := false
  ebpfType : EbpfType := .none
  socketId : BitVec 64 := 0
  isSocketClosed : Bool := false
  fromEbpf : signalSource = .ebpf ↔ tapPort.isFrom TapPort.fromEbpf = true := by decide
  closedByEbpf : isSocketClosed = true → signalSource = .ebpf := by decide
  deriving DecidableEq

theorem captured_fromEbpf :
    SignalSource.packet = .ebpf ↔ ({} : TapPort).isFrom TapPort.fromEbpf = true := by
  decide

theorem captured_closedByEbpf : false = true → SignalSource.packet = .ebpf := by
  decide

/-- `u8::from(EbpfType)`. -/
def ebpfTypeToU8 : EbpfType → BitVec 8
  | .tracePoint => 0
  | .tlsUprobe => 1
  | .goHttp2Uprobe => 2
  | .ioEvent => 4
  | .goHttp2UprobeData => 5
  | .unixSocket => 8
  | .none => 255

def MetaPacket.generateEbpfFlowId (packet : MetaPacket) : BitVec 64 :=
  (ebpfTypeToU8 packet.ebpfType).setWidth 64 <<< 48 |||
    (packet.socketId &&& ~~~((0xff : BitVec 64) <<< 48))

/-- The larger of two words is put in front. -/
def packSorted {w : Nat} (n : Nat) (a b : BitVec w) : BitVec 64 :=
  if b ≤ a then a.setWidth 64 <<< n ||| b.setWidth 64 else b.setWidth 64 <<< n ||| a.setWidth 64

structure FlowMapKey where
  lhs : BitVec 64 := 0
  rhs : BitVec 64 := 0
  deriving DecidableEq

namespace FlowMapKey

/-- The two addresses, each folded into a `u32`.  The two are of one kind. -/
def foldIps (src dst : IpAddr) : Exec (BitVec 32 × BitVec 32) :=
  match src, dst with
  | .v4 s, .v4 d => .ok (word4 s, word4 d)
  | .v6 s, .v6 d =>
    .ok (((words6 s).zip (words6 d)).foldl (fun h b => (h.1 ^^^ b.1, h.2 ^^^ b.2)) (0, 0))
  | _, _ => .error .unreachable

def l3Hash (lookupKey : LookupKey) : Exec (BitVec 64) :=
  foldIps lookupKey.srcIp lookupKey.dstIp >>= fun ips => .ok (packSorted 32 ips.1 ips.2)

def l4Hash (lookupKey : LookupKey) : BitVec 64 :=
  packSorted 16 lookupKey.srcPort lookupKey.dstPort

/-- The capture network and the capture port of a key. -/
def tapBits (packet : MetaPacket) : BitVec 64 :=
  packet.lookupKey.tapType.toU16.setWidth 64 <<< 24 ||| packet.tapPort.ignoreNatSource

def macBits (lookupKey : LookupKey) : BitVec 64 :=
  lookupKey.srcMac.toU64 ^^^ lookupKey.dstMac.toU64

/-- `FlowMapKey::new`. -/
def new (packet : MetaPacket) : Exec FlowMapKey :=
  if packet.tapPort.isFrom TapPort.fromEbpf then
    .ok { lhs := 0, rhs := packet.generateEbpfFlowId }
  else if packet.lookupKey.ethType = .ipv4 ∨ packet.lookupKey.ethType = .ipv6 then
    l3Hash packet.lookupKey >>= fun lhs =>
      .ok { lhs := lhs, rhs := tapBits packet <<< 32 ||| l4Hash packet.lookupKey }
  else if packet.lookupKey.ethType = .arp then
    l3Hash packet.lookupKey >>= fun lhs =>
      .ok { lhs := lhs, rhs := tapBits packet <<< 32 ||| macBits packet.lookupKey }
  else .ok { lhs := tapBits packet, rhs := macBits packet.lookupKey }

end FlowMapKey

end ZeroTrace.FlowGenerator
