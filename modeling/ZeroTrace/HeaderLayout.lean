import ZeroTrace.HeaderFields

/-!
# The layout of a frame

Where the headers of a frame are, and what they declare, is said here on its own, by reading
bytes of the frame.  The stages of `update_fields` up to the IP header are then compared with
it: they find the same VLAN tags, the same chain of extension headers and the same IP header.
-/

namespace ZeroTrace.Headers

open RustExec Slices HeaderType EthernetType

/-! ### Layouts -/

def vlanSize (packet : Bytes) : Nat :=
  if wordAt packet 12 ≠ dot1q then 0
  else if wordAt packet 16 ≠ dot1q then 4
  else 8

def etherType (packet : Bytes) : BitVec 16 := wordAt packet (12 + vlanSize packet)

def ipStart (packet : Bytes) : Nat := 14 + vlanSize packet

/-- The size of an extension header of a kind, at a place; nothing for other headers. -/
def extensionSize (packet : Bytes) (kind : BitVec 8) (offset : Nat) : Option Nat :=
  let units := (byteAt packet (offset + 1)).toNat
  if kind = 51 then some ((units + 2) * 4)
  else if kind = 60 ∨ kind = 0 ∨ kind = 43 then some (units * 8 + 8)
  else if kind = 44 then some 8
  else none

/-- The header after a chain of extension headers, and where it begins; nothing if the chain
goes beyond the frame.  An encrypted payload (50) takes the rest of the frame. -/
def chain (packet : Bytes) : Nat → BitVec 8 → Nat → Option (BitVec 8 × Nat)
  | 0, _, _ => none
  | fuel + 1, kind, offset =>
    match extensionSize packet kind offset with
    | none => some (kind, if kind = 50 then packet.length else offset)
    | some size =>
      if offset + size ≤ packet.length then
        chain packet fuel (byteAt packet offset) (offset + size)
      else none

/-- The protocol of an IPv6 packet, and where it begins.  A chain that is cut off is not
followed. -/
def extensions (packet : Bytes) : BitVec 8 × Nat :=
  let kind := byteAt packet (ipStart packet + 6)
  (chain packet (packet.length + 1) kind (ipStart packet + 40)).getD (kind, ipStart packet + 40)

/-- An IP packet in a frame: where it begins, the size of its header, the length it declares and
the protocol in it. -/
structure IpLayout where
  isIpv6 : Bool
  start : Nat
  size : Nat
  declared : Nat
  proto : BitVec 8
  deriving DecidableEq

namespace IpLayout

def payload (ip : IpLayout) : Nat := ip.start + ip.size

end IpLayout

/-- The IPv4 packet of a frame.  A total length of zero stands for the rest of the frame. -/
def ipv4Layout (packet : Bytes) : IpLayout where
  isIpv6 := false
  start := ipStart packet
  size := max ((byteAt packet (ipStart packet) &&& 0xf).toNat * 4) 20
  declared :=
    if wordAt packet (ipStart packet + 2) = 0 then packet.length - ipStart packet
    else (wordAt packet (ipStart packet + 2)).toNat
  proto := byteAt packet (ipStart packet + 9)

/-- The IPv6 packet of a frame.  A payload length of zero stands for the rest of the frame. -/
def ipv6Layout (packet : Bytes) : IpLayout where
  isIpv6 := true
  start := ipStart packet
  size := (extensions packet).2 - ipStart packet
  declared :=
    if wordAt packet (ipStart packet + 4) = 0 then packet.length - ipStart packet
    else 40 + (wordAt packet (ipStart packet + 4)).toNat
  proto := (extensions packet).1

def ipLayout (packet : Bytes) : Option IpLayout :=
  if etherType packet = EthernetType.ipv6 then
    if ipStart packet + 40 ≤ packet.length then some (ipv6Layout packet) else none
  else if etherType packet = EthernetType.ipv4 then
    if (ipv4Layout packet).payload ≤ packet.length then some (ipv4Layout packet) else none
  else none

/-! ### The Ethernet header -/

section Ethernet

variable {packet : Bytes}

theorem vlanSize_untagged (h : wordAt packet 12 ≠ dot1q) : vlanSize packet = 0 :=
  if_pos h

theorem vlanSize_tagged (h : wordAt packet 12 = dot1q) (h' : wordAt packet 16 ≠ dot1q) :
    vlanSize packet = 4 := by
  rw [vlanSize, if_neg (not_not.mpr h), if_pos h']

theorem vlanSize_twice (h : wordAt packet 12 = dot1q) (h' : wordAt packet 16 = dot1q) :
    vlanSize packet = 8 := by
  rw [vlanSize, if_neg (not_not.mpr h), if_neg (not_not.mpr h')]

/-- **The Ethernet header** is found unless the frame ends in it. -/
theorem parseEth_ok (h : ipStart packet ≤ packet.length) :
    ∃ vlan, parseEth packet = .ok (.ok ⟨etherType packet, vlanSize packet,
      (packet.length : Int) - ipStart packet, vlan⟩) := by
  unfold ipStart at h
  have heth : eth.minHeaderSize = 14 := rfl
  unfold parseEth ipStart etherType
  rw [if_neg (by omega), u16At_bind (by omega)]
  by_cases hfirst : wordAt packet 12 = dot1q
  · rw [if_neg (not_not.mpr hfirst)]
    by_cases hsecond : wordAt packet 16 = dot1q
    · rw [vlanSize_twice hfirst hsecond] at h ⊢
      rw [if_neg (by omega), u16At_bind (by omega), u16At_bind (by omega),
        if_neg (not_not.mpr hsecond), if_neg (by omega), u16At_bind (by omega),
        u16At_bind (by omega)]
      have hleft : (packet.length : Int) - eth.minHeaderSize - 4 - 4 =
          packet.length - (14 + 8 : Nat) := by omega
      exact ⟨_, by rw [hleft]⟩
    · rw [vlanSize_tagged hfirst hsecond] at h ⊢
      rw [if_neg (by omega), u16At_bind (by omega), u16At_bind (by omega),
        if_pos hsecond]
      have hleft : (packet.length : Int) - eth.minHeaderSize - 4 =
          packet.length - (14 + 4 : Nat) := by omega
      exact ⟨_, by rw [hleft]⟩
  · rw [if_pos hfirst, vlanSize_untagged hfirst]
    exact ⟨_, rfl⟩

theorem parseEth_truncated (h : packet.length < ipStart packet) :
    parseEth packet = .ok (.error truncated) := by
  unfold ipStart at h
  have heth : eth.minHeaderSize = 14 := rfl
  unfold parseEth
  by_cases hshort : packet.length < 14
  · rw [if_pos (by omega)]
  rw [if_neg (by omega), u16At_bind (by omega)]
  by_cases hfirst : wordAt packet 12 = dot1q
  · rw [if_neg (not_not.mpr hfirst)]
    by_cases hshort' : packet.length < 18
    · rw [if_pos (by omega)]
    rw [if_neg (by omega), u16At_bind (by omega), u16At_bind (by omega)]
    by_cases hsecond : wordAt packet 16 = dot1q
    · rw [vlanSize_twice hfirst hsecond] at h
      rw [if_neg (not_not.mpr hsecond), if_pos (by omega)]
    · rw [vlanSize_tagged hfirst hsecond] at h
      omega
  · rw [vlanSize_untagged hfirst] at h
    omega

end Ethernet

/-! ### The chain of extension headers -/

section Chain

variable {packet : Bytes} {kind proto : BitVec 8} {offset stop size fuel : Nat}

theorem chain_le (hoffset : offset ≤ packet.length)
    (h : chain packet fuel kind offset = some (proto, stop)) :
    offset ≤ stop ∧ stop ≤ packet.length := by
  induction fuel generalizing kind offset with
  | zero => cases h
  | succ fuel ih =>
    rw [chain] at h
    cases hsize : extensionSize packet kind offset with
    | none =>
      simp only [hsize, Option.some.injEq, Prod.mk.injEq] at h
      split at h <;> omega
    | some size =>
      simp only [hsize] at h
      split at h
      next hfit =>
        have hstop := ih hfit h
        exact ⟨(Nat.le_add_right offset size).trans hstop.1, hstop.2⟩
      · cases h

/-- **The loop of `update_ip6_opt`** follows the chain. -/
theorem ip6Options_eq (hoffset : offset ≤ packet.length) (hfuel : packet.length - offset < fuel)
    (offsets : Ip6Offsets) :
    ∃ offsets', ip6Options packet fuel kind offset ((packet.length : Int) - offset) offsets =
      .ok (chain packet fuel kind offset, offsets') := by
  induction fuel generalizing kind offset offsets with
  | zero => omega
  | succ fuel ih =>
    have hstep : ∀ size offsets, 8 ≤ size → offset + size ≤ packet.length →
        ∃ offsets', ip6Options packet fuel (byteAt packet offset) (offset + size)
          ((packet.length : Int) - offset - size) offsets =
            .ok (chain packet fuel (byteAt packet offset) (offset + size), offsets') := by
      intro size offsets hsize hfit
      obtain ⟨offsets', h⟩ := @ih (byteAt packet offset) (offset + size) hfit (by omega) offsets
      refine ⟨offsets', ?_⟩
      rw [← h]
      congr 1
      omega
    rw [ip6Options, chain, extensionSize]
    by_cases hah : kind = 51
    · rw [if_pos hah, if_pos hah]
      dsimp only
      by_cases hfit : offset + ((byteAt packet (offset + 1)).toNat + 2) * 4 ≤ packet.length
      · rw [if_pos hfit, if_neg (by omega), index_bind (by omega),
          index_bind (by omega), if_neg (by omega)]
        exact hstep _ _ (by omega) hfit
      rw [if_neg hfit]
      by_cases hshort : (packet.length : Int) - offset < 2
      · exact ⟨offsets, if_pos hshort⟩
      · rw [if_neg hshort, index_bind (by omega), index_bind (by omega),
          if_pos (by omega)]
        exact ⟨_, rfl⟩
    rw [if_neg hah, if_neg hah]
    by_cases hoptions : kind = 60 ∨ kind = 0 ∨ kind = 43
    · rw [if_pos hoptions, if_pos hoptions]
      dsimp only
      by_cases hfit : offset + ((byteAt packet (offset + 1)).toNat * 8 + 8) ≤ packet.length
      · rw [if_pos hfit, if_neg (by omega), index_bind (by omega),
          index_bind (by omega), if_neg (by omega), Int.sub_sub, Int.add_comm 8]
        exact hstep _ _ (by omega) hfit
      rw [if_neg hfit]
      by_cases hshort : (packet.length : Int) - offset - 8 < 0
      · exact ⟨offsets, if_pos hshort⟩
      · rw [if_neg hshort, index_bind (by omega), index_bind (by omega),
          if_pos (by omega)]
        exact ⟨_, rfl⟩
    rw [if_neg hoptions, if_neg hoptions]
    by_cases hfragment : kind = 44
    · rw [if_pos hfragment, if_pos hfragment]
      dsimp only
      by_cases hfit : offset + 8 ≤ packet.length
      · rw [if_pos hfit, if_neg (by omega), index_bind (by omega)]
        exact hstep _ _ (by omega) hfit
      · rw [if_neg hfit, if_pos (by omega)]
        exact ⟨_, rfl⟩
    rw [if_neg hfragment, if_neg hfragment]
    split_ifs
    · have hend : offset + ((packet.length : Int) - offset).toNat = packet.length := by omega
      exact ⟨_, by rw [hend]⟩
    · exact ⟨offsets, rfl⟩

end Chain

/-! ### IP headers -/

section Ip

variable {packet : Bytes} {eth : Eth} {m : MetaPacket} {headers : Nat}

theorem payloadAfter_eq (h : headers ≤ packet.length) (packetLen : Nat) :
    payloadAfter packet ((packet.length : Int) - headers) packetLen =
      (checkedSub packetLen headers >>= fun length => .ok (length % 2 ^ 16)) := by
  have hleft : packet.length - ((packet.length : Int) - headers).toNat = headers := by omega
  rw [payloadAfter, checkedSub_ok (by omega), ok_bind, hleft]

/-- What is behind the Ethernet header of a frame. -/
structure Eth.Of (eth : Eth) (packet : Bytes) : Prop where
  ethType : eth.ethType = etherType packet
  vlanTagSize : eth.vlanTagSize = vlanSize packet
  sizeChecker : eth.sizeChecker = (packet.length : Int) - ipStart packet

structure BeforeIp (packet : Bytes) (m : MetaPacket) : Prop where
  l2L3OptSize : m.l2L3OptSize = vlanSize packet
  header : ∃ header, m.protocolData = .tcpHeader header

theorem updateMacs_ok (heth : eth.Of packet) (h : ipStart packet ≤ packet.length)
    (capture : Capture) :
    ∃ m, updateMacs packet eth (capture.start packet) = .ok m ∧ BeforeIp packet m := by
  unfold ipStart at h
  unfold updateMacs
  rw [slice_ok (by omega) (by omega), ok_bind, slice_ok (by omega) (by omega), ok_bind]
  exact ⟨_, rfl, heth.vlanTagSize, _, rfl⟩

section

variable (h : ipStart packet + 40 ≤ packet.length)

include h

theorem le_extensions :
    ipStart packet + 40 ≤ (extensions packet).2 ∧ (extensions packet).2 ≤ packet.length := by
  unfold extensions
  dsimp only
  cases hchain : chain packet (packet.length + 1) (byteAt packet (ipStart packet + 6))
      (ipStart packet + 40) with
  | none => exact ⟨le_rfl, h⟩
  | some r => exact chain_le h hchain

theorem updateIp6Opt_eq (m : MetaPacket) :
    ∃ m', updateIp6Opt packet (vlanSize packet) m =
        .ok (((extensions packet).1, (extensions packet).2 - (ipStart packet + 40)), m') ∧
      m'.l2L3OptSize = m.l2L3OptSize ∧ m'.protocolData = m.protocolData := by
  have hkind : 20 + vlanSize packet = ipStart packet + 6 := by unfold ipStart; omega
  have horiginal : 14 + 40 + vlanSize packet = ipStart packet + 40 := by unfold ipStart; omega
  obtain ⟨offsets, hloop⟩ := @ip6Options_eq packet (byteAt packet (ipStart packet + 6))
    (ipStart packet + 40) (packet.length + 1) h (by omega)
    ⟨m.offsetIpv6LastOption, m.offsetIpv6FragmentOption⟩
  unfold updateIp6Opt extensions
  rw [hkind, index_bind (by omega)]
  dsimp only
  rw [horiginal, hloop, ok_bind]
  cases hchain : chain packet (packet.length + 1) (byteAt packet (ipStart packet + 6))
      (ipStart packet + 40) with
  | none =>
    rw [Option.getD_none, Nat.sub_self]
    exact ⟨_, rfl, rfl, rfl⟩
  | some r =>
    have hle := chain_le h hchain
    dsimp only
    rw [checkedSub_ok hle.1, ok_bind]
    exact ⟨_, rfl, rfl, rfl⟩

/-- The payload length that an IPv6 header declares, as `update_fields` computes it. -/
def ipv6Payload (packet : Bytes) : Nat :=
  if wordAt packet (ipStart packet + 4) = 0 then
    (packet.length - (ipStart packet + 40)) % 2 ^ 16
  else (wordAt packet (ipStart packet + 4)).toNat

/-- **An IPv6 header.** -/
theorem updateIpv6_eq (heth : eth.Of packet) (hm : m.l2L3OptSize = vlanSize packet) :
    ∃ m' : MetaPacket, m'.protocolData = m.protocolData ∧ updateIpv6 packet eth m =
      (checkedAdd 16 (vlanSize packet)
          (((extensions packet).2 - (ipStart packet + 40)) % 2 ^ 16) >>= fun l2L3OptSize =>
        checkedAdd 32 (ipv6Payload packet) (ipStart packet + 40) >>= fun packetLen =>
          .ok (.more ⟨true, (extensions packet).1,
            (packet.length : Int) - (extensions packet).2,
            { m' with
              l2L3OptSize := l2L3OptSize
              packetLen := packetLen
              l3PayloadLen := (packet.length - (extensions packet).2) % 2 ^ 16 }⟩)) := by
  have hstart : ipStart packet = 14 + vlanSize packet := rfl
  have hsize : ipv6.minHeaderSize + 20 = 40 := rfl
  have hpacket : ipv6.minPacketSize + vlanSize packet + 20 = ipStart packet + 40 := by
    simp only [minPacketSize, ipStart]
    omega
  have hends := le_extensions h
  have hleft : ((packet.length : Int) - ipStart packet - (40 : Nat)).toNat =
      packet.length - (ipStart packet + 40) := by omega
  have hword : 18 + vlanSize packet = ipStart packet + 4 := by omega
  unfold updateIpv6
  rw [heth.vlanTagSize, heth.sizeChecker, hsize]
  dsimp only
  rw [hpacket, hword, if_neg (by omega), slice_ok (by omega) (by omega), ok_bind,
    slice_ok (by omega) (by omega), ok_bind, index_bind (by omega), u16At_bind (by omega)]
  obtain ⟨m', hoptions, hopt, hdata⟩ := updateIp6Opt_eq h
    { m with
      headerType := .ipv6
      lookupKey := { m.lookupKey with
        srcIp := .v6 (rangeOf packet (22 + vlanSize packet) (22 + vlanSize packet + 16))
        dstIp := .v6 (rangeOf packet (38 + vlanSize packet) (38 + vlanSize packet + 16)) }
      ttl := byteAt packet (21 + vlanSize packet) }
  rw [hoptions, ok_bind]
  rw [hopt, hm, hleft]
  refine ⟨{ m' with lookupKey := { m'.lookupKey with proto := (extensions packet).1 } }, hdata, ?_⟩
  have hrest : (packet.length : Int) - ipStart packet - (40 : Nat) -
      ((extensions packet).2 - (ipStart packet + 40) : Nat) =
        packet.length - (extensions packet).2 := by omega
  have hrestNat : ((packet.length : Int) - (extensions packet).2).toNat =
      packet.length - (extensions packet).2 := by omega
  rw [hrest, hrestNat]
  have hcaptured : ¬ (packet.length : Int) - (extensions packet).2 < 0 := by omega
  simp only [if_neg hcaptured]
  rfl

end

theorem updateIpv6_short (heth : eth.Of packet) (h : packet.length < ipStart packet + 40) :
    updateIpv6 packet eth m = .ok (.done m) := by
  have hsize : ipv6.minHeaderSize + 20 = 40 := rfl
  unfold updateIpv6
  rw [heth.sizeChecker, hsize]
  exact if_pos (by omega)

/-- The IPv4 packet is a fragment, and not the first one. -/
def isFragment (packet : Bytes) : Prop := wordAt packet (ipStart packet + 6) &&& 0xfff ≠ 0

instance (packet : Bytes) : Decidable (isFragment packet) :=
  inferInstanceAs (Decidable (wordAt packet (ipStart packet + 6) &&& 0xfff ≠ 0))

/-- The length of an IPv4 frame, as `update_fields` computes it. -/
def ipv4PacketLen (packet : Bytes) : Nat :=
  max ((ipStart packet + (ipv4Layout packet).declared) % 2 ^ 32) (ipStart packet + 20)

theorem ipv4Layout_size (packet : Bytes) :
    20 ≤ (ipv4Layout packet).size ∧ (ipv4Layout packet).size ≤ 60 := by
  have hihl : (byteAt packet (ipStart packet) &&& 0xf).toNat ≤ 15 := by
    rw [BitVec.toNat_and]
    exact Nat.and_le_right
  unfold ipv4Layout
  dsimp only
  omega

theorem ipv4Layout_options (packet : Bytes) :
    max (((byteAt packet (ipStart packet) &&& 0xf).toNat : Int) * 4 - 20) 0 =
      (((ipv4Layout packet).size - 20 : Nat) : Int) := by
  unfold ipv4Layout
  dsimp only
  omega

theorem vlanSize_le (packet : Bytes) : vlanSize packet ≤ 8 := by
  unfold vlanSize
  split
  · omega
  · split <;> omega

/-- **An IPv4 header.** -/
theorem updateIpv4_eq (heth : eth.Of packet) (hm : m.l2L3OptSize = vlanSize packet)
    (h : (ipv4Layout packet).payload ≤ packet.length) :
    ∃ m' : MetaPacket, m'.protocolData = m.protocolData ∧
      m'.packetLen = ipv4PacketLen packet ∧ 34 + m'.l2L3OptSize = (ipv4Layout packet).payload ∧
      updateIpv4 packet eth m =
        (checkedSub (ipv4PacketLen packet) (ipv4Layout packet).payload >>= fun length =>
          if isFragment packet then
            .ok (.done { m' with
              npbIgnoreL4 := true, l3PayloadLen := length % 2 ^ 16
              l4PayloadLen := length % 2 ^ 16 })
          else
            .ok (.more ⟨false, (ipv4Layout packet).proto,
              (packet.length : Int) - (ipv4Layout packet).payload,
              { m' with l3PayloadLen := length % 2 ^ 16 }⟩)) := by
  have hstart : ipStart packet = 14 + vlanSize packet := rfl
  have hpayload : (ipv4Layout packet).payload = ipStart packet + (ipv4Layout packet).size := rfl
  have hsize := ipv4Layout_size packet
  have hvlan := vlanSize_le packet
  have hheader : ipv4.minHeaderSize = 20 := rfl
  have hleast : ipv4.minPacketSize + vlanSize packet = ipStart packet + 20 := by
    simp only [minPacketSize, hstart]
    omega
  have hword : 16 + vlanSize packet = ipStart packet + 2 := by omega
  have hfrag : 20 + vlanSize packet = ipStart packet + 6 := by omega
  have hproto : 23 + vlanSize packet = ipStart packet + 9 := by omega
  unfold updateIpv4
  rw [heth.vlanTagSize, heth.sizeChecker]
  dsimp only
  rw [hleast, hword, hfrag, hproto, if_neg (by omega), index_bind (by omega),
    slice_ok (by omega) (by omega), ok_bind, slice_ok (by omega) (by omega), ok_bind,
    index_bind (by omega), u16At_bind (by omega), ← hstart,
    ipv4Layout_options packet]
  have hlength : (if wordAt packet (ipStart packet + 2) = 0 then
      ((packet.length : Int) - ipStart packet - ipv4.minHeaderSize).toNat + ipv4.minHeaderSize
      else (wordAt packet (ipStart packet + 2)).toNat) + HeaderType.eth.minPacketSize +
        vlanSize packet = ipStart packet + (ipv4Layout packet).declared := by
    have heth : HeaderType.eth.minPacketSize = 14 := rfl
    unfold ipv4Layout
    dsimp only
    split <;> omega
  have hleft : (packet.length : Int) - ipStart packet - ipv4.minHeaderSize -
      ((ipv4Layout packet).size - 20 : Nat) = packet.length - (ipv4Layout packet).payload := by
    omega
  rw [hlength, hleft, if_neg (by omega), hm, Int.toNat_natCast, checkedAdd_ok (by omega), ok_bind,
    payloadAfter_eq h]
  refine ⟨{ m with
    headerType := .ipv4
    lookupKey := { m.lookupKey with
      srcIp := .v4 (rangeOf packet (26 + vlanSize packet) (26 + vlanSize packet + 4))
      dstIp := .v4 (rangeOf packet (30 + vlanSize packet) (30 + vlanSize packet + 4))
      proto := (ipv4Layout packet).proto }
    ttl := byteAt packet (22 + vlanSize packet)
    packetLen := ipv4PacketLen packet
    l2L3OptSize := vlanSize packet + ((ipv4Layout packet).size - 20)
    ipId := wordAt packet (18 + vlanSize packet) }, rfl, rfl, ?_, ?_⟩
  · dsimp only
    omega
  change (checkedSub (ipv4PacketLen packet) (ipv4Layout packet).payload >>= _) >>= _ = _
  cases checkedSub (ipv4PacketLen packet) (ipv4Layout packet).payload with
  | error e => rfl
  | ok length =>
    rw [ok_bind, ok_bind, index_bind (by omega), u16At_bind (by omega), u16At_bind (by omega)]
    rfl

theorem updateIpv4_short (heth : eth.Of packet) (h : packet.length < (ipv4Layout packet).payload) :
    ∃ m', updateIpv4 packet eth m = .ok (.done m') := by
  have hstart : ipStart packet = 14 + vlanSize packet := rfl
  have hpayload : (ipv4Layout packet).payload = ipStart packet + (ipv4Layout packet).size := rfl
  have hheader : ipv4.minHeaderSize = 20 := rfl
  unfold updateIpv4
  rw [heth.vlanTagSize, heth.sizeChecker]
  by_cases hshort : packet.length < ipStart packet + 20
  · exact ⟨m, if_pos (by omega)⟩
  rw [if_neg (by omega), index_bind (by omega),
    slice_ok (by omega) (by omega), ok_bind, slice_ok (by omega) (by omega), ok_bind,
    index_bind (by omega), u16At_bind (by omega), ← hstart,
    ipv4Layout_options packet, if_pos (by omega)]
  exact ⟨_, rfl⟩

end Ip

end ZeroTrace.Headers
