import ZeroTrace.SliceReads

/-!
# Tunnels

A captured frame may carry another frame in a tunnel.  `TunnelInfo::decapsulate` and
`decapsulate_v6` look at the IP packet of a frame and return how far behind its Ethernet header
the inner frame begins, 0 if there is none; the outermost tunnel is remembered.  For IP in IP
there is no inner frame, so the Ethernet header is moved in front of the inner IP packet.  The
dispatcher applies them twice, the second time to what is behind the first offset.

The functions of the plugin crate `tunnel` return nothing in this repository.  The offset of
IP in IP is a difference of two sizes: it is computed as a signed number first, and must not be
negative.
-/

namespace ZeroTrace.Decap

open RustExec Slices

inductive TunnelType where
  | none
  | vxlan
  | ipip
  | tencentGre
  | geneve
  | vxlanNsh
  | erspan
  | teb
  deriving DecidableEq

def TunnelType.code : TunnelType → Nat
  | .none => 0
  | .vxlan => 1
  | .ipip => 2
  | .tencentGre => 3
  | .geneve => 4
  | .vxlanNsh => 5
  | .erspan => 6
  | .teb => 7

structure TunnelTypeBitmap where
  bits : BitVec 16 := 0

namespace TunnelTypeBitmap

variable (bitmap : TunnelTypeBitmap)

def has (tunnelType : TunnelType) : Bool :=
  bitmap.bits.getLsbD tunnelType.code

def isEmpty : Bool := bitmap.bits == 0

end TunnelTypeBitmap

/-- `TunnelInfo`; `tunnelFrom` is its field `from`. -/
structure TunnelInfo where
  src : BitVec 32 := 0
  dst : BitVec 32 := 0
  macSrc : BitVec 32 := 0
  macDst : BitVec 32 := 0
  id : BitVec 32 := 0
  tunnelType : TunnelType := .none
  tier : Nat := 0
  isIpv6 : Bool := false
  tunnelFrom : BitVec 32 := 0
  deriving DecidableEq

namespace TunnelInfo

def resetAndRetainErspanFrom (info : TunnelInfo) : TunnelInfo :=
  { tunnelFrom := if info.tunnelType = .erspan then info.src else 0 }

def decapsulateAddr (l3Packet : Bytes) (info : TunnelInfo) : Exec TunnelInfo :=
  u32At l3Packet 12 >>= fun src =>
    u32At l3Packet 16 >>= fun dst => .ok { info with src := src, dst := dst }

def decapsulateV6Addr (l3Packet : Bytes) (info : TunnelInfo) : Exec TunnelInfo :=
  u32At l3Packet 20 >>= fun src =>
    u32At l3Packet 36 >>= fun dst => .ok { info with src := src, dst := dst }

def decapsulateMac (packet : Bytes) (info : TunnelInfo) : Exec TunnelInfo :=
  u32At packet 8 >>= fun macSrc =>
    u32At packet 2 >>= fun macDst => .ok { info with macSrc := macSrc, macDst := macDst }

/-- `self.tier += 1`. -/
def nextTier (info : TunnelInfo) : Exec TunnelInfo :=
  checkedAdd 8 info.tier 1 >>= fun tier => .ok { info with tier := tier }

/-- Only the outermost tunnel is remembered. -/
def recordOutermost (packet l3Packet : Bytes) (isIpv6 : Bool) (tunnelType : TunnelType)
    (id : Exec (BitVec 32)) (info : TunnelInfo) : Exec TunnelInfo :=
  if info.tier = 0 then
    (if isIpv6 then decapsulateV6Addr l3Packet info else decapsulateAddr l3Packet info) >>=
      fun info =>
        decapsulateMac packet info >>= fun info =>
          id >>= fun id =>
            .ok { info with
              tunnelType := tunnelType, id := id, isIpv6 := isIpv6 || info.isIpv6 }
  else .ok info

end TunnelInfo

open TunnelInfo

/-! ### Tunnels over UDP -/

variable (packet : Bytes) (l2Len : Nat) (tunnelTypes : TunnelTypeBitmap) (info : TunnelInfo)

/-- A VXLAN header behind `headers` bytes of IP and UDP. -/
def vxlanBehind (isIpv6 : Bool) (headers : Nat) (packet : Bytes) (l2Len : Nat)
    (info : TunnelInfo) : Exec (Nat × TunnelInfo) :=
  sliceFrom packet l2Len >>= fun l3Packet =>
    if l3Packet.length < 42 + 8 then .ok (0, info)
    else
      index l3Packet headers >>= fun flags =>
        if flags ≠ 8 then .ok (0, info)
        else
          recordOutermost packet l3Packet isIpv6 .vxlan
              (u32At l3Packet (headers + 4) >>= fun vni => .ok (vni >>> 8)) info >>= fun info =>
            nextTier info >>= fun info => .ok (headers + 8, info)

def decapsulateVxlan : Bytes → Nat → TunnelInfo → Exec (Nat × TunnelInfo) :=
  vxlanBehind false (42 - 14)

def decapsulateV6Vxlan : Bytes → Nat → TunnelInfo → Exec (Nat × TunnelInfo) :=
  vxlanBehind true (40 + 8)

def decapsulateGeneveHeader (l4Payload : Bytes) : Exec (BitVec 32 × Nat) :=
  if l4Payload.length < 8 then .ok (0, 0)
  else
    index l4Payload 0 >>= fun versionAndOptionLength =>
      if versionAndOptionLength >>> 6 ≠ 0 then .ok (0, 0)
      else
        let geneveHeaderSize := ((versionAndOptionLength &&& 0x3f) <<< 2).toNat + 8
        if l4Payload.length < geneveHeaderSize then .ok (0, 0)
        else
          u16LeAt l4Payload 2 >>= fun protocolType =>
            if protocolType ≠ 0x5865 then .ok (0, 0)
            else u32At l4Payload 4 >>= fun vni => .ok (vni >>> 8, geneveHeaderSize)

/-- A Geneve header behind `headers` bytes of IP and UDP, in a packet of at least `least`
bytes.  The offset is that of a header behind IPv4 and UDP, whatever it is behind of. -/
def geneveBehind (isIpv6 : Bool) (least headers : Nat) (packet : Bytes) (l2Len : Nat)
    (info : TunnelInfo) : Exec (Nat × TunnelInfo) :=
  sliceFrom packet l2Len >>= fun l3Packet =>
    if l3Packet.length < least then .ok (0, info)
    else
      sliceFrom l3Packet headers >>= fun l4Payload =>
        decapsulateGeneveHeader l4Payload >>= fun r =>
          if r.2 = 0 then .ok (0, info)
          else
            recordOutermost packet l3Packet isIpv6 .geneve (.ok r.1) info >>= fun info =>
              nextTier info >>= fun info => .ok (42 - 14 + r.2, info)

def decapsulateGeneve : Bytes → Nat → TunnelInfo → Exec (Nat × TunnelInfo) :=
  geneveBehind false (42 + 8) (20 + 8)

def decapsulateV6Geneve : Bytes → Nat → TunnelInfo → Exec (Nat × TunnelInfo) :=
  geneveBehind true (62 + 8) (40 + 8)

/-- What the functions of the plugin crate return. -/
def pluginTunnel : Option (Nat × BitVec 32) := none

/-- A tunnel that the plugin crate looks for: GPE VXLAN, ERSPAN, the GRE of Tencent and TEB. -/
def decapsulatePlugin (tunnelType : TunnelType) (packet : Bytes) (l2Len : Nat)
    (info : TunnelInfo) : Exec (Nat × TunnelInfo) :=
  match pluginTunnel with
  | none => .ok (0, info)
  | some r =>
    sliceFrom packet l2Len >>= fun l3Packet =>
      recordOutermost packet l3Packet false tunnelType (.ok r.2) info >>= fun info =>
        nextTier info >>= fun info => .ok (r.1, info)

/-- The destination ports of VXLAN, as they are read in little endian order. -/
def isVxlanPort (port : BitVec 16) : Bool := port = 0xb512 || port = 0x1821 || port = 0x801a

/-- A frame whose tunnel does not show in its port: the first two bytes of its address are set
and both ports are the same. -/
def hashedPorts (macPrefix0 macPrefix1 : BitVec 8) (srcPort : Exec (BitVec 16))
    (dstPort : BitVec 16) (tunnelTypes : TunnelTypeBitmap) : Exec Bool :=
  if macPrefix0 = 0xff ∧ macPrefix1 = 0xff ∧ tunnelTypes.has .vxlan = true then
    srcPort >>= fun srcPort => .ok (srcPort == dstPort)
  else .ok false

def decapsulateUdp : Exec (Nat × TunnelInfo) :=
  index packet 0 >>= fun macPrefix0 =>
    index packet 1 >>= fun macPrefix1 =>
      sliceFrom packet l2Len >>= fun l3Packet =>
        if 36 - 14 + 2 > l3Packet.length then .ok (0, info)
        else
          u16LeAt l3Packet (36 - 14) >>= fun dstPort =>
            if isVxlanPort dstPort ∧ tunnelTypes.has .vxlan = true then
              decapsulateVxlan packet l2Len info
            else if dstPort = 0xb612 ∧ tunnelTypes.has .vxlanNsh = true then
              decapsulatePlugin .vxlanNsh packet l2Len info
            else if dstPort = 0xc117 ∧ tunnelTypes.has .geneve = true then
              decapsulateGeneve packet l2Len info
            else
              hashedPorts macPrefix0 macPrefix1 (u16LeAt l3Packet (34 - 14)) dstPort
                  tunnelTypes >>= fun hashed =>
                if hashed then decapsulateVxlan packet l2Len info else .ok (0, info)

def decapsulateV6Udp : Exec (Nat × TunnelInfo) :=
  index packet 0 >>= fun macPrefix0 =>
    index packet 1 >>= fun macPrefix1 =>
      sliceFrom packet l2Len >>= fun l3Packet =>
        if 40 + 2 + 2 > l3Packet.length then .ok (0, info)
        else
          u16LeAt l3Packet (40 + 2) >>= fun dstPort =>
            if isVxlanPort dstPort ∧ tunnelTypes.has .vxlan = true then
              decapsulateV6Vxlan packet l2Len info
            else if dstPort = 0xc117 ∧ tunnelTypes.has .geneve = true then
              decapsulateV6Geneve packet l2Len info
            else
              hashedPorts macPrefix0 macPrefix1 (u16LeAt l3Packet (40 + 2 - 2)) dstPort
                  tunnelTypes >>= fun hashed =>
                if hashed then decapsulateV6Vxlan packet l2Len info else .ok (0, info)

/-! ### GRE -/

def decapsulateGre : Exec (Nat × TunnelInfo) :=
  sliceFrom packet l2Len >>= fun l3Packet =>
    index l3Packet 0 >>= fun versionIhl =>
      let ipHeaderSize := (versionIhl &&& 0xf).toNat <<< 2
      u16At l3Packet (ipHeaderSize + 0) >>= fun _flags =>
        u16LeAt l3Packet (ipHeaderSize + 2) >>= fun greProtocolType =>
          if (greProtocolType = 0xbe88 ∨ greProtocolType = 0xeb22) ∧
              tunnelTypes.has .erspan = true then
            decapsulatePlugin .erspan packet l2Len info
          else if (greProtocolType = 0x0008 ∨ greProtocolType = 0xdd86) ∧
              tunnelTypes.has .tencentGre = true then
            decapsulatePlugin .tencentGre packet l2Len info
          else if greProtocolType = 0x5865 ∧ tunnelTypes.has .teb = true then
            decapsulatePlugin .teb packet l2Len info
          else .ok (0, info)

/-! ### IP in IP -/

/-- `copy_within(0..count, dest)`. -/
def copyFront (count dest : Nat) : Exec Bytes :=
  if count ≤ packet.length ∧ dest ≤ packet.length - count then
    .ok (packet.take dest ++ packet.take count ++ packet.drop (dest + count))
  else .error .outOfBounds

/-- `write_u16_be(&mut packet[i..], v)`. -/
def writeU16At (i : Nat) (v : BitVec 16) : Exec Bytes :=
  sliceFrom packet i >>= fun rest =>
    if 2 ≤ rest.length then
      .ok (packet.take i ++ [v.extractLsb' 8 8, v.extractLsb' 0 8] ++ packet.drop (i + 2))
    else .error .assertFailed

/-- The Ethernet addresses of the outermost tunnel. -/
def recordIpipMac : Exec TunnelInfo :=
  if info.tier = 0 then decapsulateMac packet info else .ok info

def underlayIpHeaderSize (underlayIpv6 : Bool) (l3Packet : Bytes) : Exec Nat :=
  if underlayIpv6 then .ok 40
  else index l3Packet 0 >>= fun versionIhl => .ok ((versionIhl &&& 0xf) <<< 2).toNat

/-- The IP addresses and the type of the outermost tunnel. -/
def recordIpip (underlayIpv6 : Bool) (l3Packet : Bytes) (info : TunnelInfo) : Exec TunnelInfo :=
  if info.tier = 0 then
    (if underlayIpv6 then decapsulateV6Addr l3Packet { info with isIpv6 := true }
      else decapsulateAddr l3Packet info) >>= fun info =>
        .ok { info with tunnelType := .ipip, id := 0 }
  else .ok info

/-- `decapsulate_ipip` up to its last subtraction: the signed offset, the moved packet and the
tunnel. -/
def decapsulateIpip (underlayIpv6 overlayIpv6 : Bool)
    (info : TunnelInfo) : Exec (Int × Bytes × TunnelInfo) :=
  recordIpipMac packet info >>= fun info =>
    sliceFrom packet l2Len >>= fun l3Packet =>
      underlayIpHeaderSize underlayIpv6 l3Packet >>= fun headerSize =>
        recordIpip underlayIpv6 l3Packet info >>= fun info =>
          nextTier info >>= fun info =>
            checkedSub (l2Len + headerSize) l2Len >>= fun start =>
              copyFront packet l2Len start >>= fun packet =>
                checkedSub (start + l2Len) 2 >>= fun place =>
                  writeU16At packet place (if overlayIpv6 then 0x86dd else 0x0800) >>=
                    fun packet => .ok ((start : Int) - l2Len, packet, info)

/-! ### Both versions of IP -/

/-- The packet stays as it is. -/
def unmoved (x : Exec (Nat × TunnelInfo)) : Exec (Int × Bytes × TunnelInfo) :=
  x >>= fun r => .ok ((r.1 : Int), packet, r.2)

/-- `decapsulate`, with a signed offset. -/
def decapsulateSigned : Exec (Int × Bytes × TunnelInfo) :=
  if tunnelTypes.isEmpty ∨ info.tier = 2 then .ok (0, packet, info)
  else
    sliceFrom packet l2Len >>= fun l3Packet =>
      if l3Packet.length < 20 + 4 + 12 + 8 then .ok (0, packet, info)
      else
        index l3Packet (23 - 14) >>= fun protocol =>
          if protocol = 17 then unmoved packet (decapsulateUdp packet l2Len tunnelTypes info)
          else if protocol = 47 then unmoved packet (decapsulateGre packet l2Len tunnelTypes info)
          else if protocol = 4 ∧ tunnelTypes.has .ipip = true then
            decapsulateIpip packet l2Len false false info
          else if protocol = 41 ∧ tunnelTypes.has .ipip = true then
            decapsulateIpip packet l2Len false true info
          else .ok (0, packet, info)

/-- `decapsulate_v6`, with a signed offset. -/
def decapsulateV6Signed : Exec (Int × Bytes × TunnelInfo) :=
  if tunnelTypes.isEmpty ∨ info.tier = 2 then .ok (0, packet, info)
  else
    sliceFrom packet l2Len >>= fun l3Packet =>
      if l3Packet.length < 40 + 4 + 12 + 8 then .ok (0, packet, info)
      else
        index l3Packet 6 >>= fun protocol =>
          if protocol = 17 then unmoved packet (decapsulateV6Udp packet l2Len tunnelTypes info)
          else if protocol = 4 ∧ tunnelTypes.has .ipip = true then
            decapsulateIpip packet l2Len true false info
          else if protocol = 41 ∧ tunnelTypes.has .ipip = true then
            decapsulateIpip packet l2Len true true info
          else .ok (0, packet, info)

/-- The offset is an unsigned number: a negative difference underflows. -/
def unsigned (x : Exec (Int × Bytes × TunnelInfo)) : Exec (Nat × Bytes × TunnelInfo) :=
  x >>= fun r => if r.1 < 0 then .error .overflow else .ok (r.1.toNat, r.2)

/-- `decapsulate`: the offset behind the Ethernet header, the packet and the tunnel. -/
def decapsulate : Exec (Nat × Bytes × TunnelInfo) :=
  unsigned (decapsulateSigned packet l2Len tunnelTypes info)

def decapsulateV6 : Exec (Nat × Bytes × TunnelInfo) :=
  unsigned (decapsulateV6Signed packet l2Len tunnelTypes info)

/-! ### The dispatcher -/

/-- `get_l2_info`: the Ethernet type and the length of the Ethernet header. -/
def getL2Info : Exec (BitVec 16 × Nat) :=
  u16At packet 12 >>= fun ethType =>
    if ethType = 0x8100 ∧ packet.length ≥ 14 + 4 then
      u16At packet 14 >>= fun _vlanTag =>
        u16At packet (12 + 4) >>= fun ethType =>
          if ethType = 0x8100 ∧ packet.length ≥ 14 + 2 * 4 then
            u16At packet (12 + 8) >>= fun ethType =>
              u16At packet (14 + 4) >>= fun _innerVlanTag => .ok (ethType, 14 + 8)
          else .ok (ethType, 14 + 4)
    else .ok (ethType, 14)

/-- A layer of a frame, with the tunnel it is in. -/
structure Layer where
  packet : Bytes
  info : TunnelInfo

/-- The error of a frame without an Ethernet header. -/
def packetInvalid : String := "packet.len() < ETH_HEADER_SIZE"

/-- `BaseDispatcher::decapsulate`: where the inner frame begins, 0 if there is none. -/
def decapsulateLayer (layer : Layer) : Exec (Except String (Nat × Layer)) :=
  if layer.packet.length < 14 then .ok (.error packetInvalid)
  else
    getL2Info layer.packet >>= fun l2 =>
      (if l2.1 = 0x0800 then decapsulate layer.packet l2.2 tunnelTypes layer.info
        else if l2.1 = 0x86dd then decapsulateV6 layer.packet l2.2 tunnelTypes layer.info
        else .ok (0, layer.packet, layer.info)) >>=
      fun r => .ok (.ok (if r.1 = 0 then 0 else l2.2 + r.1, ⟨r.2.1, r.2.2⟩))

/-- The tunnel after a layer; one that is trimmed is forgotten. -/
def trimmed (trim : TunnelTypeBitmap) (info : TunnelInfo) : TunnelInfo :=
  if trim.has info.tunnelType then info.resetAndRetainErspanFrom else info

/-- The loop of `decap_tunnel_with_erspan`: how much of the packet is before the inner frame. -/
def decapLoop (tunnelTypes trim : TunnelTypeBitmap) :
    Nat → Nat → Layer → Exec (Except String (Nat × Layer))
  | 0, decapLen, layer => .ok (.ok (decapLen, layer))
  | n + 1, decapLen, layer =>
    sliceFrom layer.packet decapLen >>= fun inner =>
      decapsulateLayer tunnelTypes ⟨inner, layer.info⟩ >>= fun
        | .error e => .ok (.error e)
        | .ok (offset, inner') =>
          let layer' : Layer := ⟨layer.packet.take decapLen ++ inner'.packet, inner'.info⟩
          if inner'.info.tunnelType = .none then .ok (.ok (decapLen, layer'))
          else
            decapLoop tunnelTypes trim n (decapLen + offset)
              ⟨layer'.packet, trimmed trim inner'.info⟩

def decapTunnelWithErspan (trim : TunnelTypeBitmap) (layer : Layer) :
    Exec (Except String (Nat × Layer)) :=
  decapLoop tunnelTypes trim 2 0 layer

end ZeroTrace.Decap
