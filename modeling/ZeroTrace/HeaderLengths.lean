import ZeroTrace.HeaderLayout

/-!
# When the lengths of a frame are read safely

The headers of a frame are compared with what was captured, but the lengths of its payloads are
computed from what the headers declare.  A frame is therefore read safely, and with the right
lengths, exactly when the two agree: an IPv4 header with options, a TCP header with options and
an ICMP message declare at least their own sizes, an ICMP message comes in the IP version it
belongs to or is long enough, an IPv6 packet is captured as it is declared, and the addresses
among TCP options are captured.
-/

namespace ZeroTrace.Headers

open RustExec Slices ZeroTrace.Outcomes HeaderType IpProtocol Nat Exactly

/-! ### The conditions -/

namespace IpLayout

/-- Where the payload of an IP packet begins in a frame without VLAN tags, options and extension
headers. -/
def base (ip : IpLayout) : Nat := if ip.isIpv6 then 54 else 34

theorem base_eq (ip : IpLayout) :
    ip.base = 34 ∧ ip.isIpv6 = false ∨ ip.base = 54 ∧ ip.isIpv6 = true := by
  unfold base
  cases ip.isIpv6 with
  | false => exact .inl ⟨rfl, rfl⟩
  | true => exact .inr ⟨rfl, rfl⟩

end IpLayout

variable (packet : Bytes) (ip : IpLayout)

def tcpSize (start : Nat) : Nat :=
  max ((byteAt packet (start + 12) >>> 4).toNat * 4) 20

def IpLayout.isFragment : Prop :=
  ip.isIpv6 = false ∧ Headers.isFragment packet

instance (packet : Bytes) (ip : IpLayout) : Decidable (ip.isFragment packet) :=
  inferInstanceAs (Decidable (ip.isIpv6 = false ∧ Headers.isFragment packet))

/-- The size of the transport header, if there is one whose payload is counted and it has been
captured.  A fragment has none. -/
def transportSize : Option Nat :=
  if ip.isFragment packet then some 0
  else if ip.proto = udp ∧ ip.payload + 8 ≤ packet.length then some 8
  else if ip.proto = tcp ∧ ip.payload + tcpSize packet ip.payload ≤ packet.length then
    some (tcpSize packet ip.payload)
  else none

/-- The recorded lengths are the declared ones, without the headers. -/
def RightLengths (m : MetaPacket) : Prop :=
  ∀ ip, ipLayout packet = some ip →
    m.l3PayloadLen = ip.declared - ip.size ∧
      ∀ n, transportSize packet ip = some n → m.l4PayloadLen = ip.declared - (ip.size + n)

/-- What an ICMPv4 message needs: its type is looked up behind an IPv4 header. -/
def Icmpv4Fits : Prop :=
  ip.payload + 8 ≤ packet.length →
    if quotesPacket (byteAt packet (ip.payload + 34 - ip.base)) then
      ip.payload + 36 ≤ packet.length → ip.size + 36 ≤ ip.declared
    else ip.isIpv6 = true → ip.size + 8 ≤ ip.declared

/-- What an ICMPv6 message needs: its type is looked up behind an IPv6 header. -/
def Icmpv6Fits : Prop :=
  ip.payload + 8 ≤ packet.length →
    ip.size + 8 ≤ ip.declared ∧
      ip.payload + 54 - ip.base < packet.length ∧
      (byteAt packet (ip.payload + 54 - ip.base) = 128 ∨
          byteAt packet (ip.payload + 54 - ip.base) = 129 →
        ip.payload + 54 - ip.base + 8 ≤ packet.length)

/-- What a TCP header needs: declared options, and captured addresses in them. -/
def TcpFits : Prop :=
  ip.payload + tcpSize packet ip.payload ≤ packet.length →
    (tcpSize packet ip.payload = 20 ∨ ip.size + tcpSize packet ip.payload ≤ ip.declared) ∧
      AddressesFit packet (ip.payload + tcpSize packet ip.payload) (ip.payload + 20) packet.length

/-- What the payload of an IP packet needs. -/
def TransportFits : Prop :=
  if ip.proto = icmpv4 then Icmpv4Fits packet ip
  else if ip.proto = udp then True
  else if ip.proto = tcp then TcpFits packet ip
  else if ip.proto = icmpv6 then Icmpv6Fits packet ip
  else ip.size = 20 ∨ ip.size ≤ ip.declared

/-- What an IP packet needs: an IPv4 header with options declares at least its own size, an IPv6
packet is captured as declared, and its payload is as it should be. -/
def Fits : Prop :=
  (if ip.isIpv6 then packet.length - ip.payload = ip.declared - ip.size
    else ip.size = 20 ∨ ip.size ≤ ip.declared) ∧
  (¬ ip.isFragment packet → TransportFits packet ip)

/-! ### Transport headers -/

/-- The IP header has been read as it is laid out. -/
structure Accepted (packet : Bytes) (ip : IpLayout) (r : Ip) : Prop where
  isIpv6 : r.isIpv6 = ip.isIpv6
  proto : r.proto = ip.proto
  left : r.sizeChecker = (packet.length : Int) - ip.payload
  options : ip.base + r.metaPacket.l2L3OptSize = ip.payload
  packetLen : r.metaPacket.packetLen = max (ip.start + ip.declared) (ip.start + 20)
  header : ∃ header, r.metaPacket.protocolData = .tcpHeader header
  captured : ip.payload ≤ packet.length
  size : 20 ≤ ip.size
  bounded : ip.declared ≤ 65535 + ip.size
  whole : ¬ ip.isFragment packet

def Records (l3 : Nat) (m : MetaPacket) : Prop :=
  m.l3PayloadLen = l3 ∧
    ∀ n, transportSize packet ip = some n → m.l4PayloadLen = ip.declared - (ip.size + n)

section Transport

variable {packet ip} {r : Ip} {m : MetaPacket} {headers l3 : Nat}

theorem checkedSub_exactly (a b : Nat) : Exactly (b ≤ a) (checkedSub a b) (· = a - b) := by
  unfold checkedSub
  split
  next h => exact .pure h rfl
  next h => exact h

theorem payloadAfter_exactly (h : headers ≤ packet.length) (packetLen : Nat) :
    Exactly (headers ≤ packetLen)
      (payloadAfter packet ((packet.length : Int) - headers) packetLen)
      (· = (packetLen - headers) % 2 ^ 16) := by
  rw [payloadAfter_eq h]
  exact (checkedSub_exactly packetLen headers).bind_ok fun length _ hvalue =>
    ⟨_, rfl, by rw [hvalue]⟩

theorem recordIcmp_exactly (h : headers ≤ packet.length) {headerType : HeaderType}
    {data : IcmpData} (m : MetaPacket) :
    Exactly (headers ≤ m.packetLen)
      (recordIcmp packet ((packet.length : Int) - headers) headerType data m)
      (·.l3PayloadLen = m.l3PayloadLen) := by
  exact (payloadAfter_exactly h m.packetLen).bind_ok fun _ _ _ => ⟨_, rfl, rfl⟩

theorem updatePorts_ok {isIpv6 : Bool} (originalLength : Nat)
    (h : (if isIpv6 then 54 else 34) + m.l2L3OptSize + 4 ≤ packet.length) :
    ∃ m', updatePorts packet isIpv6 originalLength m = .ok m' ∧
      m'.l3PayloadLen = m.l3PayloadLen ∧ m'.l4PayloadLen = m.l4PayloadLen := by
  unfold updatePorts
  dsimp only
  split
  · rw [u16At_bind (by omega), u16At_bind (by omega)]
    refine ⟨_, rfl, ?_, ?_⟩ <;> split <;> rfl
  · refine ⟨_, rfl, ?_, ?_⟩ <;> split <;> rfl

theorem recorded_length {start declared size k n : Nat} (hsize : 20 ≤ size) (hk : k ≤ n)
    (hbounded : declared ≤ 65535 + size) :
    (max (max (start + declared) (start + 20)) (start + size + k) - (start + size + n)) % 2 ^ 16 =
      declared - (size + n) := by
  have hlength : max (max (start + declared) (start + 20)) (start + size + k) -
      (start + size + n) = declared - (size + n) := by omega
  rw [hlength, mod_eq_of_lt (by omega)]

theorem tcpType_sizes (hisIpv6 : r.isIpv6 = ip.isIpv6) :
    (if r.isIpv6 then ipv6Tcp else .ipv4Tcp).minPacketSize = ip.base + 20 ∧
      (if r.isIpv6 then ipv6Tcp else .ipv4Tcp).minHeaderSize = 20 ∧
      (if r.isIpv6 then 54 else 34) = ip.base := by
  rw [hisIpv6, IpLayout.base]
  cases ip.isIpv6 <;> exact ⟨rfl, rfl, rfl⟩

theorem tcpSize_options (packet : Bytes) (start : Nat) :
    max (((byteAt packet (start + 12) >>> 4).toNat : Int) * 4 - 20) 0 =
      (tcpSize packet start - 20 : Nat) := by
  unfold tcpSize
  omega

theorem tcpSize_small {start : Nat} (h : ¬ byteAt packet (start + 12) >>> 4 > 5) :
    tcpSize packet start = 20 := by
  unfold tcpSize
  have hle : (byteAt packet (start + 12) >>> 4).toNat ≤ 5 := BitVec.not_lt.mp h
  omega

theorem addressesFit_nil {stop limit : Nat} : AddressesFit packet stop stop limit :=
  fun _ ho => absurd (beginsAt_iff.mp ho).1 (by omega)

/-- The packet that the options of a TCP header are read into. -/
structure BeforeOptions (packet : Bytes) (ip : IpLayout) (r : Ip) (m : MetaPacket) : Prop where
  header : ∃ header, m.protocolData = .tcpHeader header
  l2L3OptSize : m.l2L3OptSize = r.metaPacket.l2L3OptSize
  l4OptSize : m.l4OptSize = tcpSize packet ip.payload - 20
  headerType : m.headerType.minPacketSize = ip.base + 20
  l3 : m.l3PayloadLen = r.metaPacket.l3PayloadLen
  l4 : m.l4PayloadLen = ip.declared - (ip.size + tcpSize packet ip.payload)

variable (hr : Accepted packet ip r)

include hr

/-- **ICMPv6.** -/
theorem updateIcmpv6_exactly :
    Exactly (Icmpv6Fits packet ip) (updateIcmpv6 packet r)
      (·.l3PayloadLen = r.metaPacket.l3PayloadLen) := by
  obtain ⟨-, -, hleft, hoptions, hpacketLen, -, hcaptured, hsize, -, -⟩ := hr
  have hpayload : ip.payload = ip.start + ip.size := rfl
  have hheader : ipv6Icmp.minHeaderSize = 8 := rfl
  have hplace : 54 + r.metaPacket.l2L3OptSize = ip.payload + 54 - ip.base := by omega
  unfold updateIcmpv6
  dsimp only
  by_cases hshort : packet.length < ip.payload + 8
  · rw [if_pos (by omega)]
    exact .pure (fun h => absurd h (by omega)) rfl
  have hmessage : r.sizeChecker - ipv6Icmp.minHeaderSize =
      (packet.length : Int) - (ip.payload + 8 : Nat) := by omega
  rw [if_neg (by omega), hplace, hmessage]
  unfold Icmpv6Fits
  generalize ip.payload + 54 - ip.base = place
  by_cases hplaced : place < packet.length
  · rw [index_bind hplaced]
    generalize byteAt packet place = icmpType
    have hecho : ∀ m : MetaPacket, m.packetLen = r.metaPacket.packetLen →
        m.l3PayloadLen = r.metaPacket.l3PayloadLen → icmpType = 128 ∨ icmpType = 129 →
        Exactly (ip.payload + 8 ≤ packet.length → ip.size + 8 ≤ ip.declared ∧
            place < packet.length ∧ (icmpType = 128 ∨ icmpType = 129 → place + 8 ≤ packet.length))
          (u32At packet (place + 4) >>= fun echo =>
            recordIcmp packet ((packet.length : Int) - (ip.payload + 8 : Nat)) .ipv6Icmp
              ⟨icmpType, echo⟩ m) (·.l3PayloadLen = r.metaPacket.l3PayloadLen) := by
      intro m hpacket hl3 htype
      rw [← hl3]
      refine ((u32At_exactly packet (place + 4)).bind fun echo _ _ =>
        recordIcmp_exactly (by omega) m).congr ?_
      simp only [htype, true_implies]
      omega
    by_cases hrequest : icmpType = 128
    · rw [if_pos hrequest]
      exact hecho _ rfl rfl (.inl hrequest)
    split_ifs with hreply
    · exact hecho _ rfl rfl (.inr hreply)
    · refine (recordIcmp_exactly (by omega) _).congr ?_
      simp only [hrequest, hreply, or_self, false_implies, and_true]
      omega
  · obtain ⟨e, he⟩ := (index_exactly packet place).exists_error hplaced
    rw [he]
    exact .fail fun h => hplaced (h (by omega)).2.1

/-- **Other protocols.** -/
theorem updateOther_exactly :
    Exactly (ip.size = 20 ∨ ip.size ≤ ip.declared) (updateOther packet r)
      (·.l3PayloadLen = r.metaPacket.l3PayloadLen) := by
  obtain ⟨-, -, hleft, hoptions, hpacketLen, -, hcaptured, hsize, -, -⟩ := hr
  have hpayload : ip.payload = ip.start + ip.size := rfl
  unfold updateOther
  rw [hleft]
  refine congr ((payloadAfter_exactly hcaptured _).bind_ok fun _ _ _ => ⟨_, rfl, rfl⟩) ?_
  omega

theorem updateTcpOptions_exactly (hm : BeforeOptions packet ip r m)
    (h : ip.payload + tcpSize packet ip.payload ≤ packet.length) :
    Exactly (AddressesFit packet (ip.payload + tcpSize packet ip.payload) (ip.payload + 20)
        packet.length)
      (updateTcpOptions packet m) fun m' => m'.l2L3OptSize = m.l2L3OptSize ∧
        m'.l3PayloadLen = m.l3PayloadLen ∧ m'.l4PayloadLen = m.l4PayloadLen := by
  obtain ⟨header, hheader⟩ := hm.header
  have hsize : 20 ≤ tcpSize packet ip.payload := le_max_right _ _
  have hstart : m.headerType.minPacketSize + m.l2L3OptSize = ip.payload + 20 := by
    have hoptions := hr.options
    rw [hm.headerType, hm.l2L3OptSize]
    omega
  have hend : ip.payload + 20 + (tcpSize packet ip.payload - 20) =
      ip.payload + tcpSize packet ip.payload := by omega
  have hiff := @updateTcpOpt_ok_iff packet (ip.payload + 20)
    { tcpOptionsFlag := m.tcpOptionsFlag, header := header, toa := m.lookupKey.srcNat }
    (tcpSize packet ip.payload - 20) (by omega)
  rw [hend] at hiff
  unfold updateTcpOptions readTcpOptions
  rw [hheader]
  dsimp only
  rw [hstart, hm.l4OptSize]
  cases hwalk : updateTcpOpt packet (ip.payload + 20) (tcpSize packet ip.payload - 20)
      { tcpOptionsFlag := m.tcpOptionsFlag, header := header, toa := m.lookupKey.srcNat } with
  | ok s => exact .pure (hiff.mp ⟨s, hwalk⟩) ⟨rfl, rfl, rfl⟩
  | error e =>
    refine .fail fun hfit => ?_
    obtain ⟨s, hs⟩ := hiff.mpr hfit
    rw [hwalk] at hs
    cases hs

variable (hlength : packet.length ≤ 65535)

include hlength

/-- **ICMPv4.** -/
theorem updateIcmpv4_exactly :
    Exactly (Icmpv4Fits packet ip) (updateIcmpv4 packet r)
      (·.l3PayloadLen = r.metaPacket.l3PayloadLen) := by
  obtain ⟨-, -, hleft, hoptions, hpacketLen, -, hcaptured, hsize, -, -⟩ := hr
  have hpayload : ip.payload = ip.start + ip.size := rfl
  have hleast : ipv4Icmp.minPacketSize = 42 := rfl
  have hheader : ipv4Icmp.minHeaderSize = 8 := rfl
  have hbase := ip.base_eq
  have hplace : 34 + r.metaPacket.l2L3OptSize = ip.payload + 34 - ip.base := by omega
  unfold updateIcmpv4
  dsimp only
  rw [checkedAdd_ok (by omega), ok_bind]
  by_cases hshort : packet.length < ip.payload + 8
  · rw [if_pos (by omega)]
    exact .pure (fun h => absurd h (by omega)) rfl
  have hmessage : r.sizeChecker - ipv4Icmp.minHeaderSize =
      (packet.length : Int) - (ip.payload + 8 : Nat) := by omega
  rw [if_neg (by omega), hplace, index_bind (by omega), hmessage]
  unfold Icmpv4Fits
  by_cases hquotes : quotesPacket (byteAt packet (ip.payload + 34 - ip.base)) = true
  · simp only [if_pos hquotes]
    by_cases hcut : packet.length < ip.payload + 36
    · rw [if_pos (by omega)]
      exact .pure (fun _ h => absurd h (by omega)) rfl
    have hquote : (packet.length : Int) - (ip.payload + 8 : Nat) - 28 =
        packet.length - (ip.payload + 36 : Nat) := by omega
    rw [if_neg (by omega), hquote]
    refine (recordIcmp_exactly (by omega) _).congr ?_
    dsimp only
    omega
  · simp only [if_neg hquotes]
    have hfits : ip.payload + 8 ≤ max r.metaPacket.packetLen
        (ipv4Icmp.minPacketSize + r.metaPacket.l2L3OptSize) ↔
          (ip.payload + 8 ≤ packet.length → ip.isIpv6 = true → ip.size + 8 ≤ ip.declared) := by
      rcases ip.base_eq with ⟨h34, hkind⟩ | ⟨h54, hkind⟩
      · simp only [hkind, Bool.false_eq_true, false_implies, implies_true, iff_true]
        omega
      · simp only [hkind, true_implies]
        omega
    split
    · rw [u32At_ok (by omega), ok_bind]
      exact (recordIcmp_exactly (by omega) _).congr hfits
    split
    · rw [u32At_ok (by omega), ok_bind]
      exact (recordIcmp_exactly (by omega) _).congr hfits
    · exact (recordIcmp_exactly (by omega) _).congr hfits

/-- **UDP.** -/
theorem updateUdp_ok (hproto : ip.proto = udp) (originalLength : Nat) :
    ∃ m, (updateUdp packet r >>= finish packet r.isIpv6 originalLength) = .ok m ∧
      Records packet ip r.metaPacket.l3PayloadLen m := by
  obtain ⟨hisIpv6, -, hleft, hoptions, hpacketLen, -, hcaptured, hsize, hbounded, hwhole⟩ := hr
  have hports : (if r.isIpv6 then 54 else 34) = ip.base := by rw [hisIpv6]; rfl
  generalize htype : (if r.isIpv6 then ipv6Udp else .ipv4Udp) = headerType
  have hleast : headerType.minPacketSize = ip.base + 8 := by
    rw [← htype, hisIpv6, IpLayout.base]
    split <;> rfl
  have hheader : headerType.minHeaderSize = 8 := by
    rw [← htype]
    split <;> rfl
  have htransport : ∀ n, transportSize packet ip = some n →
      n = 8 ∧ ip.payload + 8 ≤ packet.length := by
    intro n hn
    rw [transportSize, if_neg hwhole, hproto] at hn
    split at hn
    next h => exact ⟨(Option.some.inj hn).symm, h.2⟩
    · cases hn
  unfold updateUdp
  dsimp only
  rw [htype, hleast, hheader, checkedAdd_ok (by omega), ok_bind, hleft]
  by_cases hshort : packet.length < ip.payload + 8
  · rw [if_pos (by omega), ok_bind]
    refine ⟨_, rfl, rfl, fun n hn => ?_⟩
    have := (htransport n hn).2
    omega
  have hdatagram : (packet.length : Int) - ip.payload - (8 : Nat) =
      packet.length - (ip.payload + 8 : Nat) := by omega
  rw [if_neg (by omega), hdatagram, payloadAfter_eq (by omega), checkedSub_ok (by omega), ok_bind,
    ok_bind, ok_bind]
  refine (updatePorts_ok originalLength ?_).imp fun m h => ⟨h.1, h.2.1, fun n hn => ?_⟩
  · dsimp only
    omega
  · rw [h.2.2, (htransport n hn).1]
    rw [hpacketLen, add_right_comm, hoptions]
    exact recorded_length hsize le_rfl hbounded

theorem acceptTcp_short (h : packet.length < ip.payload + tcpSize packet ip.payload) :
    ∃ m, acceptTcp packet r = .ok (.done m) ∧ m.l3PayloadLen = r.metaPacket.l3PayloadLen := by
  obtain ⟨hisIpv6, -, hleft, hoptions, hpacketLen, -, hcaptured, -, -, -⟩ := hr
  obtain ⟨hleast, hheader, hports⟩ := tcpType_sizes hisIpv6
  unfold acceptTcp
  dsimp only
  rw [hports, hoptions, hleast, hheader, checkedAdd_ok (by omega), ok_bind, hleft]
  by_cases hshort : packet.length < ip.payload + 20
  · rw [if_pos (by omega)]
    exact ⟨_, rfl, rfl⟩
  rw [if_neg (by omega), index_bind (by omega), if_pos (by unfold tcpSize at h; omega)]
  exact ⟨_, rfl, rfl⟩

theorem acceptTcp_exactly (h : ip.payload + tcpSize packet ip.payload ≤ packet.length) :
    Exactly
      (tcpSize packet ip.payload = 20 ∨ ip.size + tcpSize packet ip.payload ≤ ip.declared)
      (acceptTcp packet r)
      fun stage => ∃ m, stage = .more (byteAt packet (ip.payload + 12) >>> 4, m) ∧
        BeforeOptions packet ip r m := by
  obtain ⟨hisIpv6, -, hleft, hoptions, hpacketLen, ⟨header, hdata⟩, hcaptured, hsize, hbounded,
    -⟩ := hr
  obtain ⟨hleast, hheader, hports⟩ := tcpType_sizes hisIpv6
  have hpayload : ip.payload = ip.start + ip.size := rfl
  have hmin : 20 ≤ tcpSize packet ip.payload := le_max_right _ _
  have hsegment : (packet.length : Int) - ip.payload - (20 : Nat) -
      (tcpSize packet ip.payload - 20 : Nat) =
        packet.length - (ip.payload + tcpSize packet ip.payload : Nat) := by omega
  unfold acceptTcp
  dsimp only
  rw [hports, hoptions, hleast, hheader, checkedAdd_ok (by omega), ok_bind, hleft,
    if_neg (by omega), index_bind (by omega), tcpSize_options, Int.toNat_natCast,
    hsegment, if_neg (by omega)]
  refine congr ((payloadAfter_exactly h _).bind_ok fun length hle hvalue => ?_) ?_
  · unfold updateTcpHeader
    rw [hdata]
    dsimp only
    rw [u16At_bind (by omega), index_bind (by omega), u32At_ok (by omega),
      ok_bind, u32At_ok (by omega), ok_bind, ok_bind]
    refine ⟨_, rfl, _, rfl, ⟨⟨_, rfl⟩, rfl, rfl, hleast, rfl, ?_⟩⟩
    rw [hvalue, hpacketLen, add_right_comm ip.base, hoptions]
    exact recorded_length hsize hmin hbounded
  · omega

/-- **TCP.** -/
theorem updateTcp_exactly (hproto : ip.proto = tcp) (originalLength : Nat) :
    Exactly (TcpFits packet ip)
      (updateTcp packet r >>= finish packet r.isIpv6 originalLength)
      (Records packet ip r.metaPacket.l3PayloadLen) := by
  have htransport : ∀ n, transportSize packet ip = some n →
      n = tcpSize packet ip.payload ∧ ip.payload + tcpSize packet ip.payload ≤ packet.length := by
    intro n hn
    rw [transportSize, if_neg hr.whole, hproto, if_neg (fun h => absurd h.1 (by decide))] at hn
    split at hn
    next h => exact ⟨(Option.some.inj hn).symm, h.2⟩
    · cases hn
  by_cases hcaptured : ip.payload + tcpSize packet ip.payload ≤ packet.length
  · have hread : Exactly
        ((tcpSize packet ip.payload = 20 ∨
            ip.size + tcpSize packet ip.payload ≤ ip.declared) ∧
          AddressesFit packet (ip.payload + tcpSize packet ip.payload) (ip.payload + 20)
            packet.length)
        (updateTcp packet r) fun stage => ∃ m, stage = .more m ∧
          m.l2L3OptSize = r.metaPacket.l2L3OptSize ∧
          m.l3PayloadLen = r.metaPacket.l3PayloadLen ∧
          m.l4PayloadLen = ip.declared - (ip.size + tcpSize packet ip.payload) := by
      refine (acceptTcp_exactly hr hlength hcaptured).bind ?_
      rintro stage - ⟨m, rfl, hm⟩
      dsimp only
      split
      · refine (updateTcpOptions_exactly hr hm hcaptured).bind_ok fun m' _ hm' => ?_
        exact ⟨_, rfl, m', rfl, hm'.1.trans hm.l2L3OptSize, hm'.2.1.trans hm.l3,
          hm'.2.2.trans hm.l4⟩
      next hsmall =>
        have hsize : tcpSize packet ip.payload = 20 := tcpSize_small hsmall
        rw [hsize]
        exact .pure addressesFit_nil ⟨m, rfl, hm.l2L3OptSize, hm.l3, hsize ▸ hm.l4⟩
    refine (hread.bind_ok ?_).congr (imp_iff_right hcaptured).symm
    rintro stage - ⟨m, rfl, hoptSize, hl3, hl4⟩
    refine (updatePorts_ok originalLength ?_).imp fun m' h =>
      ⟨h.1, h.2.1.trans hl3, fun n hn => ?_⟩
    · have hoptions := hr.options
      have hsize : 20 ≤ tcpSize packet ip.payload := le_max_right _ _
      rw [(tcpType_sizes hr.isIpv6).2.2, hoptSize]
      omega
    · rw [h.2.2, hl4, (htransport n hn).1]
  · obtain ⟨m, hm, hl3⟩ := acceptTcp_short hr hlength (not_le.mp hcaptured)
    rw [updateTcp, hm]
    exact .pure (fun h => absurd h hcaptured)
      ⟨hl3, fun n hn => absurd (htransport n hn).2 hcaptured⟩

/-- **The payload of an IP packet.** -/
theorem updateTransport_exactly (originalLength : Nat) :
    Exactly (TransportFits packet ip) (updateTransport packet originalLength r)
      (Records packet ip r.metaPacket.l3PayloadLen) := by
  have hrecords : ip.proto ≠ udp → ip.proto ≠ tcp → ∀ m : MetaPacket,
      m.l3PayloadLen = r.metaPacket.l3PayloadLen →
        Records packet ip r.metaPacket.l3PayloadLen m := by
    intro hudp htcp m hl3
    refine ⟨hl3, fun n hn => ?_⟩
    rw [transportSize, if_neg hr.whole, if_neg (fun h => hudp h.1),
      if_neg (fun h => htcp h.1)] at hn
    cases hn
  unfold updateTransport TransportFits
  rw [hr.proto]
  by_cases hicmpv4 : ip.proto = icmpv4
  · rw [if_pos hicmpv4, if_pos hicmpv4]
    exact (updateIcmpv4_exactly hr hlength).mono
      (hrecords (by rw [hicmpv4]; decide) (by rw [hicmpv4]; decide))
  rw [if_neg hicmpv4, if_neg hicmpv4]
  by_cases hudp : ip.proto = udp
  · rw [if_pos hudp, if_pos hudp]
    obtain ⟨m, hm, hrecorded⟩ := updateUdp_ok hr hlength hudp originalLength
    rw [hm]
    exact .pure trivial hrecorded
  rw [if_neg hudp, if_neg hudp]
  by_cases htcp : ip.proto = tcp
  · rw [if_pos htcp, if_pos htcp]
    exact updateTcp_exactly hr hlength htcp originalLength
  split_ifs
  · exact (updateIcmpv6_exactly hr).mono (hrecords hudp htcp)
  · exact (updateOther_exactly hr).mono (hrecords hudp htcp)

end Transport

/-! ### Frames -/

section Frames

variable {packet ip} {eth : Eth} {m : MetaPacket}

theorem updateArp_ok (heth : eth.Of packet) (m : MetaPacket) :
    ∃ m', updateArp packet eth m = .ok m' := by
  have harp : arp.minHeaderSize = 28 := rfl
  have hstart : ipStart packet = 14 + vlanSize packet := rfl
  unfold updateArp
  dsimp only
  rw [heth.sizeChecker, heth.vlanTagSize]
  split
  · exact ⟨_, rfl⟩
  · rw [slice_ok (by omega) (by omega), ok_bind, slice_ok (by omega) (by omega), ok_bind,
      u16At_bind (by omega)]
    exact ⟨_, rfl⟩

theorem updateIp_none (heth : eth.Of packet) (h : ipLayout packet = none) (m : MetaPacket) :
    ∃ m', updateIp packet eth m = .ok (.done m') := by
  unfold ipLayout at h
  unfold updateIp
  rw [heth.ethType]
  by_cases harp : etherType packet = EthernetType.arp
  · obtain ⟨m', hm'⟩ := updateArp_ok heth m
    rw [if_pos harp, hm']
    exact ⟨m', rfl⟩
  rw [if_neg harp]
  by_cases hipv6 : etherType packet = EthernetType.ipv6
  · rw [if_pos hipv6] at h ⊢
    split at h
    · cases h
    next hshort => exact ⟨m, updateIpv6_short heth (not_le.mp hshort)⟩
  rw [if_neg hipv6] at h ⊢
  by_cases hipv4 : etherType packet = EthernetType.ipv4
  · rw [if_pos hipv4] at h ⊢
    split at h
    · cases h
    next hshort => exact updateIpv4_short heth (not_le.mp hshort)
  · exact ⟨m, if_neg hipv4⟩

theorem ipv6Layout_payload (h : ipStart packet + 40 ≤ packet.length) :
    (ipv6Layout packet).payload = (extensions packet).2 := by
  have hends := le_extensions h
  unfold IpLayout.payload ipv6Layout
  dsimp only
  omega

theorem updateIp_ipv6 (heth : eth.Of packet) (hm : BeforeIp packet m)
    (hlength : packet.length ≤ 65535) (htype : etherType packet = EthernetType.ipv6)
    (h : ipStart packet + 40 ≤ packet.length) :
    ∃ r, updateIp packet eth m = .ok (.more r) ∧ Accepted packet (ipv6Layout packet) r ∧
      r.metaPacket.l3PayloadLen = packet.length - (ipv6Layout packet).payload := by
  have hends := le_extensions h
  have hpayload := ipv6Layout_payload h
  have hstart : ipStart packet = 14 + vlanSize packet := rfl
  have hdeclared : (ipv6Layout packet).declared = 40 + ipv6Payload packet ∧
      ipv6Payload packet < 65536 := by
    unfold ipv6Layout ipv6Payload
    dsimp only
    split <;> omega
  obtain ⟨m', hdata, heq⟩ := updateIpv6_eq h heth hm.l2L3OptSize
  rw [checkedAdd_ok (by omega), ok_bind, checkedAdd_ok (by omega), ok_bind] at heq
  have hip : updateIp packet eth m = updateIpv6 packet eth m := by
    unfold updateIp
    rw [heth.ethType, htype, if_neg (by decide), if_pos rfl]
  refine ⟨_, hip.trans heq, ?_, ?_⟩
  · refine ⟨rfl, rfl, by rw [hpayload], ?_, ?_, ?_, by omega, ?_, ?_, fun h => by cases h.1⟩
    · change 54 + _ = _
      dsimp only
      omega
    · change ipv6Payload packet + (ipStart packet + 40) =
        max (ipStart packet + (ipv6Layout packet).declared) (ipStart packet + 20)
      omega
    · obtain ⟨header, hheader⟩ := hm.header
      exact ⟨header, hdata.trans hheader⟩
    · change 20 ≤ (extensions packet).2 - ipStart packet
      omega
    · change _ ≤ 65535 + ((extensions packet).2 - ipStart packet)
      omega
  · dsimp only
    omega

/-- What is left of an IPv4 packet: a fragment is done. -/
def Ipv4Read (packet : Bytes) (stage : Stage Ip) : Prop :=
  if isFragment packet then
    ∃ m, stage = .done m ∧
      m.l3PayloadLen = (ipv4Layout packet).declared - (ipv4Layout packet).size ∧
      m.l4PayloadLen = (ipv4Layout packet).declared - (ipv4Layout packet).size
  else
    ∃ r, stage = .more r ∧ Accepted packet (ipv4Layout packet) r ∧
      r.metaPacket.l3PayloadLen = (ipv4Layout packet).declared - (ipv4Layout packet).size

theorem updateIp_ipv4 (heth : eth.Of packet) (hm : BeforeIp packet m)
    (hlength : packet.length ≤ 65535) (htype : etherType packet = EthernetType.ipv4)
    (h : (ipv4Layout packet).payload ≤ packet.length) :
    Exactly ((ipv4Layout packet).size = 20 ∨
        (ipv4Layout packet).size ≤ (ipv4Layout packet).declared)
      (updateIp packet eth m) (Ipv4Read packet) := by
  have hsize := ipv4Layout_size packet
  have hpayload : (ipv4Layout packet).payload = ipStart packet + (ipv4Layout packet).size := rfl
  have hdeclared : (ipv4Layout packet).declared ≤ 65535 := by
    unfold ipv4Layout
    dsimp only
    split <;> omega
  have hpacketLen : ipv4PacketLen packet =
      max (ipStart packet + (ipv4Layout packet).declared) (ipStart packet + 20) := by
    unfold ipv4PacketLen
    rw [mod_eq_of_lt (by omega)]
  obtain ⟨m', hdata, hlen, hoptions, heq⟩ := updateIpv4_eq heth hm.l2L3OptSize h
  have hip : updateIp packet eth m = updateIpv4 packet eth m := by
    unfold updateIp
    rw [heth.ethType, htype, if_neg (by decide), if_neg (by decide), if_pos rfl]
  rw [hip, heq]
  refine congr ((checkedSub_exactly _ _).bind_ok fun length hle hvalue => ?_) ?_
  · have hl3 : length % 2 ^ 16 = (ipv4Layout packet).declared - (ipv4Layout packet).size := by omega
    unfold Ipv4Read
    by_cases hfragment : isFragment packet
    · simp only [if_pos hfragment]
      exact ⟨_, rfl, _, rfl, hl3, hl3⟩
    simp only [if_neg hfragment]
    obtain ⟨header, hheader⟩ := hm.header
    exact ⟨_, rfl, _, rfl, ⟨rfl, rfl, rfl, hoptions, hlen.trans hpacketLen,
      ⟨header, hdata.trans hheader⟩, h, hsize.1, by omega, fun h => hfragment h.2⟩, hl3⟩
  · omega

theorem ipLayout_cases (h : ipLayout packet = some ip) :
    (ip = ipv6Layout packet ∧ etherType packet = EthernetType.ipv6 ∧
      ipStart packet + 40 ≤ packet.length) ∨
    (ip = ipv4Layout packet ∧ etherType packet = EthernetType.ipv4 ∧
      (ipv4Layout packet).payload ≤ packet.length) := by
  unfold ipLayout at h
  split at h
  next hipv6 =>
    split at h
    next hle => exact .inl ⟨(Option.some.inj h).symm, hipv6, hle⟩
    · cases h
  · split at h
    next hipv4 =>
      split at h
      next hle => exact .inr ⟨(Option.some.inj h).symm, hipv4, hle⟩
      · cases h
    · cases h

theorem updateFields_eq (h : ipStart packet ≤ packet.length) (capture : Capture) :
    ∃ eth m, eth.Of packet ∧ BeforeIp packet m ∧ updateFields packet capture =
      (updateIp packet eth m >>= fun stage =>
        updatePayload packet capture.originalLength stage >>= fun m => .ok (.ok m)) := by
  obtain ⟨vlan, hparse⟩ := parseEth_ok h
  have heth : Eth.Of ⟨etherType packet, vlanSize packet,
      (packet.length : Int) - ipStart packet, vlan⟩ packet := ⟨rfl, rfl, rfl⟩
  obtain ⟨m, hm, hbefore⟩ := updateMacs_ok heth h capture
  refine ⟨_, m, heth, hbefore, ?_⟩
  rw [updateFields, hparse, ok_bind]
  dsimp only
  rw [hm, ok_bind]

theorem updateFields_ipv6 (hlength : packet.length ≤ 65535)
    (htype : etherType packet = EthernetType.ipv6)
    (h : ipStart packet + 40 ≤ packet.length) (capture : Capture) :
    Exactly (TransportFits packet (ipv6Layout packet)) (updateFields packet capture)
      fun result => ∃ m, result = .ok m ∧ Records packet (ipv6Layout packet)
        (packet.length - (ipv6Layout packet).payload) m := by
  have hstart : ipStart packet ≤ packet.length := (le_add_right _ _).trans h
  obtain ⟨eth, m, heth, hm, heq⟩ := updateFields_eq hstart capture
  obtain ⟨r, hr, haccepted, hl3⟩ := updateIp_ipv6 heth hm hlength htype h
  rw [heq, hr, ok_bind, updatePayload, ← hl3]
  exact (updateTransport_exactly haccepted hlength capture.originalLength).bind_ok
    fun m' _ hm' => ⟨_, rfl, m', rfl, hm'⟩

theorem updateFields_ipv4 (hlength : packet.length ≤ 65535)
    (htype : etherType packet = EthernetType.ipv4)
    (h : (ipv4Layout packet).payload ≤ packet.length) (capture : Capture) :
    Exactly (Fits packet (ipv4Layout packet)) (updateFields packet capture)
      fun result => ∃ m, result = .ok m ∧ Records packet (ipv4Layout packet)
        ((ipv4Layout packet).declared - (ipv4Layout packet).size) m := by
  have hstart : ipStart packet ≤ packet.length := (le_add_right _ _).trans h
  obtain ⟨eth, m, heth, hm, heq⟩ := updateFields_eq hstart capture
  rw [heq]
  refine (updateIp_ipv4 heth hm hlength htype h).bind fun stage _ hstage => ?_
  unfold Ipv4Read at hstage
  by_cases hfragment : isFragment packet
  · rw [if_pos hfragment] at hstage
    obtain ⟨m', rfl, hl3, hl4⟩ := hstage
    have hnone : transportSize packet (ipv4Layout packet) = some 0 := if_pos ⟨rfl, hfragment⟩
    refine .pure (fun hwhole => absurd ⟨rfl, hfragment⟩ hwhole) ⟨m', rfl, hl3, fun n hn => ?_⟩
    rw [hnone] at hn
    cases hn
    exact hl4
  · rw [if_neg hfragment] at hstage
    obtain ⟨r, rfl, haccepted, hl3⟩ := hstage
    rw [← hl3]
    refine congr
      ((updateTransport_exactly haccepted hlength capture.originalLength).bind_ok
        fun m' _ hm' => ⟨_, rfl, m', rfl, hm'⟩) (imp_iff_right ?_).symm
    exact fun hwhole => hfragment hwhole.2

/-- **Lengths.** A frame of at most 65535 bytes is read without a panic and with the right
lengths if and only if what its IP header, if it has one, declares fits what has been
captured. -/
theorem lengths_right_iff (packet : Bytes) (capture : Capture)
    (hlength : packet.length ≤ 65535) :
    (∃ result, updateFields packet capture = .ok result ∧
        ∀ m, result = .ok m → RightLengths packet m) ↔
      ∀ ip, ipLayout packet = some ip → Fits packet ip := by
  cases hlayout : ipLayout packet with
  | none =>
    refine iff_of_true ?_ (fun ip h => by cases h)
    have hright : ∀ m, RightLengths packet m := fun m ip h => by rw [hlayout] at h; cases h
    by_cases hstart : ipStart packet ≤ packet.length
    · obtain ⟨eth, m, heth, -, heq⟩ := updateFields_eq hstart capture
      obtain ⟨m', hm'⟩ := updateIp_none heth hlayout m
      rw [heq, hm']
      exact ⟨_, rfl, fun m _ => hright m⟩
    · rw [updateFields, parseEth_truncated (not_le.mp hstart)]
      exact ⟨_, rfl, fun m _ => hright m⟩
  | some ip =>
    have hright : ∀ m, RightLengths packet m ↔
        Records packet ip (ip.declared - ip.size) m := by
      intro m
      unfold RightLengths
      rw [hlayout]
      exact ⟨fun h => h ip rfl, fun h ip' hip => Option.some.inj hip ▸ h⟩
    simp only [Option.some.injEq, forall_eq']
    rcases ipLayout_cases hlayout with ⟨rfl, htype, hle⟩ | ⟨rfl, htype, hle⟩
    · have hread := updateFields_ipv6 hlength htype hle capture
      have hwhole : ¬ (ipv6Layout packet).isFragment packet := fun h => by cases h.1
      have hfits' : Fits packet (ipv6Layout packet) ↔
          packet.length - (ipv6Layout packet).payload =
            (ipv6Layout packet).declared - (ipv6Layout packet).size ∧
          TransportFits packet (ipv6Layout packet) :=
        and_congr Iff.rfl (imp_iff_right hwhole)
      rw [hfits']
      constructor
      · rintro ⟨result, hok, hlengths⟩
        obtain ⟨htransport, m, rfl, hm⟩ := hread.of_ok hok
        exact ⟨hm.1.symm.trans ((hright m).mp (hlengths m rfl)).1, htransport⟩
      · rintro ⟨hl3, htransport⟩
        obtain ⟨result, hok, m, rfl, hm⟩ := hread.exists_ok htransport
        refine ⟨_, hok, fun m' hm' => ?_⟩
        cases hm'
        exact (hright m).mpr ⟨hm.1.trans hl3, hm.2⟩
    · have hread := updateFields_ipv4 hlength htype hle capture
      constructor
      · rintro ⟨result, hok, -⟩
        exact (hread.of_ok hok).1
      intro h
      obtain ⟨result, hok, m, rfl, hm⟩ := hread.exists_ok h
      refine ⟨_, hok, fun m' hm' => ?_⟩
      cases hm'
      exact (hright m).mpr hm

/-- A UDP datagram in an IPv4 packet, with four bytes of payload. -/
def udpFrame : Bytes :=
  .replicate 12 0 ++ [0x08, 0x00] ++
    [0x45, 0, 0, 32, 0, 0, 0, 0, 64, 17, 0, 0, 10, 0, 0, 1, 10, 0, 0, 2] ++
    [0, 53, 0, 53, 0, 12, 0, 0] ++ [1, 2, 3, 4]

theorem lengths_right_udp :
    udpFrame.length ≤ 65535 ∧ ∃ result, updateFields udpFrame {} = .ok result ∧
      ∀ m, result = .ok m → RightLengths udpFrame m := by
  refine ⟨by decide, (lengths_right_iff udpFrame {} (by decide)).mpr fun ip h => ?_⟩
  cases h
  exact ⟨.inl rfl, fun _ => trivial⟩

/-- An IPv4 header of 24 bytes that declares a packet of 20. -/
def shortFrame : Bytes :=
  .replicate 12 0 ++ [0x08, 0x00] ++
    [0x46, 0, 0, 20, 0, 0, 0, 0, 64, 17, 0, 0, 10, 0, 0, 1, 10, 0, 0, 2, 1, 1, 1, 1]

/-- The length of the payload underflows. -/
theorem short_declaration_panics :
    shortFrame.length ≤ 65535 ∧ ∃ e, updateFields shortFrame {} = .error e :=
  ⟨by decide, eq_error_of_panics (by decide +kernel)⟩

end Frames

end ZeroTrace.Headers
