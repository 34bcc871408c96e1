import ZeroTrace.TcpOptions

/-!
# The headers of a captured frame

`MetaPacket::update_fields` reads the headers of a frame: Ethernet with up to two VLAN tags,
ARP, IPv4 with options, IPv6 with its chain of extension headers, and above them ICMP, UDP and
TCP.  What is left of the captured bytes is counted down in `size_checker`; the lengths of the
payloads are computed from the lengths that the headers declare.

The frame is a list of bytes.  A refused frame leaves no packet.
-/

namespace ZeroTrace.Headers

open RustExec Slices

inductive HeaderType where
  | invalid
  | eth
  | arp
  | ipv4
  | ipv4Icmp
  | ipv6
  | ipv6Icmp
  | ipv4Tcp
  | ipv4Udp
  | ipv6Tcp
  | ipv6Udp
  deriving DecidableEq

namespace HeaderType

def code : HeaderType → Nat
  | invalid => 0
  | eth => 0x1
  | arp => 0x2
  | ipv4 => 0x20
  | ipv4Icmp => 0x21
  | ipv6 => 0x40
  | ipv6Icmp => 0x41
  | ipv4Tcp => 0x80
  | ipv4Udp => 0x81
  | ipv6Tcp => 0xb0
  | ipv6Udp => 0xb1

/-- `min_packet_size`; the source has none for `Invalid`. -/
def minPacketSize : HeaderType → Nat
  | invalid => 0
  | eth => 14
  | arp => 14 + 28
  | ipv4 => 14 + 20
  | ipv4Icmp => 14 + 20 + 8
  | ipv6 => 14 + 20
  | ipv6Icmp => 14 + 20 + 8
  | ipv4Tcp => 14 + 20 + 20
  | ipv4Udp => 14 + 20 + 8
  | ipv6Tcp => 14 + 40 + 20
  | ipv6Udp => 14 + 40 + 8

/-- `min_header_size`; the source has none for `Invalid`. -/
def minHeaderSize : HeaderType → Nat
  | invalid => 0
  | eth => 14
  | arp => 28
  | ipv4 => 20
  | ipv4Icmp => 8
  | ipv6 => 20
  | ipv6Icmp => 8
  | ipv4Tcp => 20
  | ipv4Udp => 8
  | ipv6Tcp => 20
  | ipv6Udp => 8

end HeaderType

namespace EthernetType

def ipv4 : BitVec 16 := 0x0800

def arp : BitVec 16 := 0x0806

def ipv6 : BitVec 16 := 0x86dd

/-- `DOT1Q`. -/
def dot1q : BitVec 16 := 0x8100

end EthernetType

namespace IpProtocol

def icmpv4 : BitVec 8 := 1

def tcp : BitVec 8 := 6

def udp : BitVec 8 := 17

def icmpv6 : BitVec 8 := 58

end IpProtocol

inductive IpAddr where
  | v4 (octets : Bytes)
  | v6 (octets : Bytes)
  deriving DecidableEq

inductive PacketDirection where
  | clientToServer
  | serverToClient
  deriving DecidableEq

structure IcmpData where
  icmpType : BitVec 8
  echoIdSeq : BitVec 32 := 0
  deriving DecidableEq

inductive ProtocolData where
  | tcpHeader (header : MetaPacketTcpHeader)
  | icmpData (data : IcmpData)
  deriving DecidableEq

/-- The fields of `LookupKey` that are read from a frame.  `srcNat` is the address that a proxy
has put into the options of a TCP header. -/
structure LookupKey where
  timestamp : Nat := 0
  l2End0 : Bool := false
  l2End1 : Bool := false
  ethType : BitVec 16 := 0
  srcMac : Bytes := .replicate 6 0
  dstMac : Bytes := .replicate 6 0
  srcIp : IpAddr := .v4 (.replicate 4 0)
  dstIp : IpAddr := .v4 (.replicate 4 0)
  srcPort : BitVec 16 := 0
  dstPort : BitVec 16 := 0
  proto : BitVec 8 := 0
  direction : PacketDirection := .clientToServer
  srcNat : Option (BitVec 16 × BitVec 32) := none
  deriving DecidableEq

/-- The fields of `MetaPacket` that are read from a frame. -/
structure MetaPacket where
  lookupKey : LookupKey := {}
  packetLen : Nat := 0
  vlanTagSize : Nat := 0
  vlan : BitVec 16 := 0
  ttl : BitVec 8 := 0
  offsetIpv6LastOption : Nat := 0
  offsetIpv6FragmentOption : Nat := 0
  headerType : HeaderType := .invalid
  l2L3OptSize : Nat := 0
  l4OptSize : Nat := 0
  l3PayloadLen : Nat := 0
  l4PayloadLen : Nat := 0
  npbIgnoreL4 : Bool := false
  ndReplyOrArpRequest : Bool := false
  nextHeader : BitVec 8 := 0
  tcpOptionsFlag : BitVec 8 := 0
  protocolData : ProtocolData := .tcpHeader {}
  payloadLen : Nat := 0
  ipId : BitVec 16 := 0
  deriving DecidableEq

/-- What a part of `update_fields` leaves: the packet when it returns, or something to go on
with. -/
inductive Stage (α : Type) where
  | done (m : MetaPacket)
  | more (a : α)

variable (packet : Bytes)

/-- The length of a payload: the declared length of the packet without the captured headers. -/
def payloadAfter (sizeChecker : Int) (packetLen : Nat) : Exec Nat :=
  checkedSub packet.length sizeChecker.toNat >>= fun headers =>
    checkedSub packetLen headers >>= fun length => .ok (length % 2 ^ 16)

/-! ### Ethernet -/

/-- The Ethernet type, the size of the VLAN tags before it, and what is left of the frame. -/
structure Eth where
  ethType : BitVec 16
  vlanTagSize : Nat
  sizeChecker : Int
  vlan : BitVec 16
  deriving DecidableEq

/-- The error of a frame that ends in its Ethernet header. -/
def truncated : String := "packet truncated"

/-- The Ethernet header of a frame, with up to two VLAN tags. -/
def parseEth : Exec (Except String Eth) :=
  let sizeChecker : Int := (packet.length : Int) - HeaderType.eth.minHeaderSize
  if sizeChecker < 0 then .ok (.error truncated)
  else
    u16At packet 12 >>= fun ethType =>
      if ethType ≠ EthernetType.dot1q then .ok (.ok ⟨ethType, 0, sizeChecker, 0⟩)
      else if sizeChecker - 4 < 0 then .ok (.error truncated)
      else
        u16At packet (12 + 2) >>= fun tag =>
          u16At packet (12 + 4) >>= fun ethType =>
            if ethType ≠ EthernetType.dot1q then
              .ok (.ok ⟨ethType, 4, sizeChecker - 4, tag &&& 0xfff⟩)
            else if sizeChecker - 4 - 4 < 0 then .ok (.error truncated)
            else
              u16At packet (12 + 4 + 2) >>= fun tag =>
                u16At packet (12 + 8) >>= fun ethType =>
                  .ok (.ok ⟨ethType, 8, sizeChecker - 4 - 4, tag &&& 0xfff⟩)

variable (eth : Eth) (m : MetaPacket)

def updateMacs : Exec MetaPacket :=
  slice packet 6 (6 + 6) >>= fun srcMac =>
    slice packet 0 (0 + 6) >>= fun dstMac =>
      .ok { m with
        lookupKey := { m.lookupKey with
          ethType := eth.ethType, srcMac := srcMac, dstMac := dstMac }
        vlan := eth.vlan
        headerType := .eth
        vlanTagSize := eth.vlanTagSize
        l2L3OptSize := eth.vlanTagSize }

def updateArp : Exec MetaPacket :=
  let v := eth.vlanTagSize
  if eth.sizeChecker - HeaderType.arp.minHeaderSize < 0 then .ok m
  else
    slice packet (28 + v) (28 + v + 4) >>= fun src =>
      slice packet (38 + v) (38 + v + 4) >>= fun dst =>
        u16At packet (v + 20) >>= fun op =>
          .ok { m with
            headerType := .arp
            lookupKey := { m.lookupKey with srcIp := .v4 src, dstIp := .v4 dst }
            ndReplyOrArpRequest := decide (op = 1) }

/-! ### IPv6 -/

/-- What `update_ip6_opt` records: where the last extension header and a fragment header
begin. -/
structure Ip6Offsets where
  last : Nat := 0
  fragment : Nat := 0
  deriving DecidableEq

/-- The loop of `update_ip6_opt`: the header after the chain and where it begins, or nothing
when the chain is cut off. -/
def ip6Options (packet : Bytes) :
    Nat → BitVec 8 → Nat → Int → Ip6Offsets → Exec (Option (BitVec 8 × Nat) × Ip6Offsets)
  | 0, _, _, _, _ => .error .outOfFuel
  | fuel + 1, nextHeader, offset, sizeChecker, offsets =>
    if nextHeader = 51 then
      if sizeChecker < 2 then .ok (none, offsets)
      else
        index packet offset >>= fun next =>
          index packet (offset + 1) >>= fun units =>
            let length := (units.toNat + 2) * 4
            let offsets := { offsets with last := offset % 2 ^ 16 }
            if sizeChecker - length < 0 then .ok (none, offsets)
            else ip6Options packet fuel next (offset + length) (sizeChecker - length) offsets
    else if nextHeader = 60 ∨ nextHeader = 0 ∨ nextHeader = 43 then
      if sizeChecker - 8 < 0 then .ok (none, offsets)
      else
        index packet offset >>= fun next =>
          index packet (offset + 1) >>= fun units =>
            let length := units.toNat
            let offsets := { offsets with last := offset % 2 ^ 16 }
            if sizeChecker - 8 - length * 8 < 0 then .ok (none, offsets)
            else
              ip6Options packet fuel next (offset + (length * 8 + 8))
                (sizeChecker - 8 - length * 8) offsets
    else if nextHeader = 44 then
      if sizeChecker - 8 < 0 then .ok (none, offsets)
      else
        index packet offset >>= fun next =>
          ip6Options packet fuel next (offset + 8) (sizeChecker - 8)
            ⟨offset % 2 ^ 16, offset % 2 ^ 16⟩
    else if nextHeader = 50 then
      .ok (some (nextHeader, offset + sizeChecker.toNat), { offsets with last := offset % 2 ^ 16 })
    else .ok (some (nextHeader, offset), offsets)

/-- `update_ip6_opt`: the header after the chain and the size of the chain. -/
def updateIp6Opt (l2OptSize : Nat) (m : MetaPacket) : Exec ((BitVec 8 × Nat) × MetaPacket) :=
  index packet (20 + l2OptSize) >>= fun nextHeader =>
    let original := 14 + 40 + l2OptSize
    ip6Options packet (packet.length + 1) nextHeader original
        ((packet.length : Int) - original) ⟨m.offsetIpv6LastOption, m.offsetIpv6FragmentOption⟩ >>=
      fun r =>
        let m := { m with nextHeader := nextHeader }
        match r.1 with
        | none =>
          .ok ((nextHeader, 0), { m with offsetIpv6LastOption := 0, offsetIpv6FragmentOption := 0 })
        | some (proto, offset) =>
          checkedSub offset original >>= fun size =>
            .ok ((proto, size), { m with
              offsetIpv6LastOption := r.2.last, offsetIpv6FragmentOption := r.2.fragment })

/-- An IP packet whose header has been read: the protocol in it and what is left. -/
structure Ip where
  isIpv6 : Bool
  proto : BitVec 8
  sizeChecker : Int
  metaPacket : MetaPacket

def updateIpv6 : Exec (Stage Ip) :=
  let v := eth.vlanTagSize
  let sizeChecker := eth.sizeChecker - (HeaderType.ipv6.minHeaderSize + 20 : Nat)
  if sizeChecker < 0 then .ok (.done m)
  else
    slice packet (22 + v) (22 + v + 16) >>= fun src =>
      slice packet (38 + v) (38 + v + 16) >>= fun dst =>
        index packet (21 + v) >>= fun ttl =>
          u16At packet (18 + v) >>= fun payload =>
            let payload := if payload = 0 then sizeChecker.toNat % 2 ^ 16 else payload.toNat
            let m := { m with
              headerType := .ipv6
              lookupKey := { m.lookupKey with srcIp := .v6 src, dstIp := .v6 dst }
              ttl := ttl }
            updateIp6Opt packet v m >>= fun r =>
              checkedAdd 16 r.2.l2L3OptSize (r.1.2 % 2 ^ 16) >>= fun l2L3OptSize =>
                checkedAdd 32 payload (HeaderType.ipv6.minPacketSize + v + 20) >>= fun packetLen =>
                  let m := { r.2 with
                    l2L3OptSize := l2L3OptSize
                    packetLen := packetLen
                    lookupKey := { r.2.lookupKey with proto := r.1.1 } }
                  let sizeChecker := sizeChecker - r.1.2
                  if sizeChecker < 0 then .ok (.done { m with npbIgnoreL4 := true })
                  else
                    .ok (.more ⟨true, r.1.1, sizeChecker,
                      { m with l3PayloadLen := sizeChecker.toNat % 2 ^ 16 }⟩)

/-! ### IPv4 -/

def updateIpv4 : Exec (Stage Ip) :=
  let v := eth.vlanTagSize
  let sizeChecker := eth.sizeChecker - HeaderType.ipv4.minHeaderSize
  if sizeChecker < 0 then .ok (.done m)
  else
    index packet (14 + v) >>= fun versionIhl =>
      slice packet (26 + v) (26 + v + 4) >>= fun src =>
        slice packet (30 + v) (30 + v + 4) >>= fun dst =>
          index packet (22 + v) >>= fun ttl =>
            u16At packet (16 + v) >>= fun total =>
              let totalLength :=
                if total = 0 then sizeChecker.toNat + HeaderType.ipv4.minHeaderSize
                else total.toNat
              let packetLen := max ((totalLength + HeaderType.eth.minPacketSize + v) % 2 ^ 32)
                (HeaderType.ipv4.minPacketSize + v)
              let l3OptSize : Int := max ((versionIhl &&& 0xf).toNat * 4 - 20) 0
              let m := { m with
                headerType := .ipv4
                lookupKey := { m.lookupKey with srcIp := .v4 src, dstIp := .v4 dst }
                ttl := ttl
                packetLen := packetLen }
              let sizeChecker := sizeChecker - l3OptSize
              if sizeChecker < 0 then .ok (.done { m with npbIgnoreL4 := true })
              else
                checkedAdd 16 m.l2L3OptSize l3OptSize.toNat >>= fun l2L3OptSize =>
                  payloadAfter packet sizeChecker packetLen >>= fun l3PayloadLen =>
                    index packet (23 + v) >>= fun proto =>
                      u16At packet (18 + v) >>= fun ipId =>
                        u16At packet (20 + v) >>= fun frag =>
                          let m := { m with
                            l2L3OptSize := l2L3OptSize
                            l3PayloadLen := l3PayloadLen
                            lookupKey := { m.lookupKey with proto := proto }
                            ipId := ipId }
                          if frag &&& 0xfff ≠ 0 then
                            .ok (.done { m with npbIgnoreL4 := true, l4PayloadLen := l3PayloadLen })
                          else .ok (.more ⟨false, proto, sizeChecker, m⟩)

/-! ### ICMP, UDP and TCP -/

/-- The messages of ICMP that quote a packet. -/
def quotesPacket (icmpType : BitVec 8) : Bool :=
  icmpType = 3 || icmpType = 4 || icmpType = 5 || icmpType = 12

def recordIcmp (sizeChecker : Int) (headerType : HeaderType) (data : IcmpData)
    (m : MetaPacket) : Exec MetaPacket :=
  payloadAfter packet sizeChecker m.packetLen >>= fun length =>
    .ok { m with
      protocolData := .icmpData data, payloadLen := length, headerType := headerType }

def updateIcmpv4 (ip : Ip) : Exec MetaPacket :=
  let m := ip.metaPacket
  checkedAdd 32 HeaderType.ipv4Icmp.minPacketSize m.l2L3OptSize >>= fun least =>
    let m := { m with packetLen := max m.packetLen least }
    let sizeChecker := ip.sizeChecker - HeaderType.ipv4Icmp.minHeaderSize
    if sizeChecker < 0 then .ok m
    else
      let typeIndex := 34 + m.l2L3OptSize
      index packet typeIndex >>= fun icmpType =>
        if quotesPacket icmpType then
          if sizeChecker - 28 < 0 then .ok { m with l4OptSize := 0 }
          else
            recordIcmp packet (sizeChecker - 28) .ipv4Icmp ⟨icmpType, 0⟩ { m with l4OptSize := 28 }
        else if icmpType = 8 then
          u32At packet (typeIndex + 4) >>= fun echo =>
            recordIcmp packet sizeChecker .ipv4Icmp ⟨icmpType, echo⟩ m
        else if icmpType = 0 then
          u32At packet (typeIndex + 4) >>= fun echo =>
            recordIcmp packet sizeChecker .ipv4Icmp ⟨icmpType, echo⟩
              { m with lookupKey := { m.lookupKey with direction := .serverToClient } }
        else recordIcmp packet sizeChecker .ipv4Icmp ⟨icmpType, 0⟩ m

def isUnicastLinkLocal (octets : Bytes) : Bool := wordAt octets 0 &&& 0xffc0 = 0xfe80

/-- A neighbour advertisement counts unless it comes from a link-local address. -/
def isNdReply (icmpType : BitVec 8) : Bool :=
  let reply := decide (icmpType = 136) || m.ndReplyOrArpRequest
  match m.lookupKey.srcIp with
  | .v6 octets => reply && !isUnicastLinkLocal octets
  | .v4 _ => reply

def updateIcmpv6 (ip : Ip) : Exec MetaPacket :=
  let m := ip.metaPacket
  let sizeChecker := ip.sizeChecker - HeaderType.ipv6Icmp.minHeaderSize
  if sizeChecker < 0 then .ok m
  else
    let typeIndex := 54 + m.l2L3OptSize
    index packet typeIndex >>= fun icmpType =>
      let m := { m with ndReplyOrArpRequest := isNdReply m icmpType }
      if icmpType = 128 then
        u32At packet (typeIndex + 4) >>= fun echo =>
          recordIcmp packet sizeChecker .ipv6Icmp ⟨icmpType, echo⟩ m
      else if icmpType = 129 then
        u32At packet (typeIndex + 4) >>= fun echo =>
          recordIcmp packet sizeChecker .ipv6Icmp ⟨icmpType, echo⟩
            { m with lookupKey := { m.lookupKey with direction := .serverToClient } }
      else recordIcmp packet sizeChecker .ipv6Icmp ⟨icmpType, 0⟩ m

def updateUdp (ip : Ip) : Exec (Stage MetaPacket) :=
  let m := ip.metaPacket
  let headerType := if ip.isIpv6 then HeaderType.ipv6Udp else .ipv4Udp
  checkedAdd 32 headerType.minPacketSize m.l2L3OptSize >>= fun least =>
    let m := { m with packetLen := max m.packetLen least }
    let sizeChecker := ip.sizeChecker - headerType.minHeaderSize
    if sizeChecker < 0 then .ok (.done m)
    else
      payloadAfter packet sizeChecker m.packetLen >>= fun length =>
        .ok (.more { m with
          l4PayloadLen := length, payloadLen := length, headerType := headerType })

/-- The fields of a TCP header that begins at `offset`. -/
def updateTcpHeader (offset : Nat) (dataOffset : BitVec 8) (m : MetaPacket) : Exec MetaPacket :=
  match m.protocolData with
  | .icmpData _ => .ok m
  | .tcpHeader header =>
    u16At packet (offset + 14) >>= fun winSize =>
      index packet (offset + 13) >>= fun flags =>
        u32At packet (offset + 4) >>= fun seq =>
          u32At packet (offset + 8) >>= fun ack =>
            .ok { m with protocolData := .tcpHeader { header with
              dataOffset := dataOffset, winSize := winSize, flags := flags &&& 0x3f
              seq := seq, ack := ack } }

/-- The branch of TCP up to its options, with the data offset. -/
def acceptTcp (ip : Ip) : Exec (Stage (BitVec 8 × MetaPacket)) :=
  let m := ip.metaPacket
  let headerType := if ip.isIpv6 then HeaderType.ipv6Tcp else .ipv4Tcp
  let offset := (if ip.isIpv6 then 54 else 34) + m.l2L3OptSize
  checkedAdd 32 headerType.minPacketSize m.l2L3OptSize >>= fun least =>
    let m := { m with packetLen := max m.packetLen least }
    let sizeChecker := ip.sizeChecker - headerType.minHeaderSize
    if sizeChecker < 0 then .ok (.done { m with npbIgnoreL4 := true })
    else
      index packet (offset + 12) >>= fun byte =>
        let dataOffset := byte >>> 4
        let l4OptSize : Int := max (dataOffset.toNat * 4 - 20) 0
        let m := { m with l4OptSize := l4OptSize.toNat }
        let sizeChecker := sizeChecker - l4OptSize
        if sizeChecker < 0 then .ok (.done { m with npbIgnoreL4 := true })
        else
          payloadAfter packet sizeChecker m.packetLen >>= fun length =>
            updateTcpHeader packet offset dataOffset
                { m with
                  l4PayloadLen := length, payloadLen := length, headerType := headerType } >>=
              fun m => .ok (.more (dataOffset, m))

/-- The walk of `update_tcp_opt` through the options of a packet. -/
def readTcpOptions : Exec OptionState :=
  match m.protocolData with
  | .icmpData _ => .error .unreachable
  | .tcpHeader header =>
    updateTcpOpt packet (m.headerType.minPacketSize + m.l2L3OptSize) m.l4OptSize
      { tcpOptionsFlag := m.tcpOptionsFlag, header := header, toa := m.lookupKey.srcNat }

/-- `update_tcp_opt`, on the packet. -/
def updateTcpOptions : Exec MetaPacket :=
  readTcpOptions packet m >>= fun s =>
    .ok { m with
      tcpOptionsFlag := s.tcpOptionsFlag
      protocolData := .tcpHeader s.header
      lookupKey := { m.lookupKey with srcNat := s.toa } }

def updateTcp (ip : Ip) : Exec (Stage MetaPacket) :=
  acceptTcp packet ip >>= fun
    | .done m => .ok (.done m)
    | .more (dataOffset, m) =>
      if dataOffset > 5 then updateTcpOptions packet m >>= fun m => .ok (.more m)
      else .ok (.more m)

def updateOther (ip : Ip) : Exec MetaPacket :=
  payloadAfter packet ip.sizeChecker ip.metaPacket.packetLen >>= fun length =>
    .ok { ip.metaPacket with payloadLen := length }

/-- The ports, and the length of a packet that was longer than it says. -/
def updatePorts (isIpv6 : Bool) (originalLength : Nat) (m : MetaPacket) : Exec MetaPacket :=
  let offset := (if isIpv6 then 54 else 34) + m.l2L3OptSize
  let calibrated (m : MetaPacket) : MetaPacket :=
    if m.packetLen + 16 < originalLength then { m with packetLen := originalLength % 2 ^ 32 }
    else m
  if m.headerType.code ≥ HeaderType.ipv4.code then
    u16At packet offset >>= fun srcPort =>
      u16At packet (offset + 2) >>= fun dstPort =>
        .ok (calibrated { m with
          lookupKey := { m.lookupKey with srcPort := srcPort, dstPort := dstPort } })
  else .ok (calibrated m)

/-- The ports are read unless the packet is done. -/
def finish (isIpv6 : Bool) (originalLength : Nat) : Stage MetaPacket → Exec MetaPacket
  | .done m => .ok m
  | .more m => updatePorts packet isIpv6 originalLength m

/-- What is in an IP packet. -/
def updateTransport (originalLength : Nat) (ip : Ip) : Exec MetaPacket :=
  if ip.proto = IpProtocol.icmpv4 then updateIcmpv4 packet ip
  else if ip.proto = IpProtocol.udp then
    updateUdp packet ip >>= finish packet ip.isIpv6 originalLength
  else if ip.proto = IpProtocol.tcp then
    updateTcp packet ip >>= finish packet ip.isIpv6 originalLength
  else if ip.proto = IpProtocol.icmpv6 then updateIcmpv6 packet ip
  else updateOther packet ip

/-! ### Frames -/

def updateIp : Exec (Stage Ip) :=
  if eth.ethType = EthernetType.arp then updateArp packet eth m >>= fun m => .ok (.done m)
  else if eth.ethType = EthernetType.ipv6 then updateIpv6 packet eth m
  else if eth.ethType = EthernetType.ipv4 then updateIpv4 packet eth m
  else .ok (.done m)

/-- What else is known of a captured frame. -/
structure Capture where
  srcEndpoint : Bool := false
  dstEndpoint : Bool := false
  timestamp : Nat := 0
  originalLength : Nat := 0

/-- The packet before its frame is read. -/
def Capture.start (capture : Capture) (packet : Bytes) : MetaPacket :=
  { lookupKey := {
      timestamp := capture.timestamp
      l2End0 := capture.srcEndpoint
      l2End1 := capture.dstEndpoint }
    packetLen := packet.length % 2 ^ 32 }

/-- What comes after the IP header, unless the packet is done. -/
def updatePayload (originalLength : Nat) : Stage Ip → Exec MetaPacket
  | .done m => .ok m
  | .more ip => updateTransport packet originalLength ip

/-- `update_fields`, on an empty packet. -/
def updateFields (capture : Capture) : Exec (Except String MetaPacket) :=
  parseEth packet >>= fun
    | .error e => .ok (.error e)
    | .ok eth =>
      updateMacs packet eth (capture.start packet) >>= fun m =>
        updateIp packet eth m >>= fun stage =>
          updatePayload packet capture.originalLength stage >>= fun m => .ok (.ok m)

end ZeroTrace.Headers
