import ZeroTrace.HeaderLayout

/-!
# The options of an accepted TCP header

`update_fields` walks through the options of a TCP header after it has checked that the frame
holds all of them.  The walk bounds every option by the end of the options, except an address
that a proxy has put there: of that one the kind and the length are bounded, and the port and
the address are read wherever they are.
-/

namespace ZeroTrace.Headers

open RustExec Slices HeaderType

variable {packet : Bytes} {eth : Eth} {m : MetaPacket} {r : Ip} {dataOffset : BitVec 8}
  {capture : Capture}

/-- The frame has been accepted as TCP, with a data offset: the packet right before the options
are read. -/
def AcceptedAsTcp (packet : Bytes) (capture : Capture) (dataOffset : BitVec 8) (m : MetaPacket) :
    Prop :=
  ∃ eth before ip, parseEth packet = .ok (.ok eth) ∧
    updateMacs packet eth (capture.start packet) = .ok before ∧
    updateIp packet eth before = .ok (.more ip) ∧ ip.proto = IpProtocol.tcp ∧
    acceptTcp packet ip = .ok (.more (dataOffset, m))

def optionsStart (m : MetaPacket) : Nat := m.headerType.minPacketSize + m.l2L3OptSize

def optionsEnd (dataOffset : BitVec 8) (m : MetaPacket) : Nat :=
  optionsStart m + (dataOffset.toNat * 4 - 20)

theorem updateIp_more (heth : eth.Of packet) (hm : BeforeIp packet m)
    (h : updateIp packet eth m = .ok (.more r)) :
    (((if r.isIpv6 then 54 else 34) + r.metaPacket.l2L3OptSize : Nat) : Int) + r.sizeChecker ≤
        packet.length ∧
      ∃ header, r.metaPacket.protocolData = .tcpHeader header := by
  obtain ⟨header, hheader⟩ := hm.header
  unfold updateIp at h
  split at h
  · obtain ⟨m', -, hdone⟩ := bind_eq_ok h
    cases hdone
  split at h
  · by_cases hshort : packet.length < ipStart packet + 40
    · rw [updateIpv6_short heth hshort] at h
      cases h
    obtain ⟨m', hdata, heq⟩ := updateIpv6_eq (Nat.not_lt.mp hshort) heth hm.l2L3OptSize
    rw [heq] at h
    obtain ⟨options, hoptions, h⟩ := bind_eq_ok h
    obtain ⟨packetLen, -, h⟩ := bind_eq_ok h
    cases h
    refine ⟨?_, header, hdata.trans hheader⟩
    -- the chain of extension headers is counted in 16 bits, so a long one is counted short
    have hends := le_extensions (Nat.not_lt.mp hshort)
    have hcount := (checkedAdd_eq_ok hoptions).2
    have hstart : ipStart packet = 14 + vlanSize packet := rfl
    dsimp only
    rw [if_pos rfl]
    omega
  split at h
  · by_cases hshort : packet.length < (ipv4Layout packet).payload
    · obtain ⟨m', hdone⟩ := updateIpv4_short (m := m) heth hshort
      rw [hdone] at h
      cases h
    obtain ⟨m', hdata, -, hoptions, heq⟩ :=
      updateIpv4_eq heth hm.l2L3OptSize (Nat.not_lt.mp hshort)
    rw [heq] at h
    obtain ⟨length, -, h⟩ := bind_eq_ok h
    split at h
    · cases h
    · cases h
      refine ⟨?_, header, hdata.trans hheader⟩
      dsimp only
      rw [if_neg (by decide), hoptions]
      omega
  · cases h

theorem acceptTcp_more (hheader : ∃ header, r.metaPacket.protocolData = .tcpHeader header)
    (h : acceptTcp packet r = .ok (.more (dataOffset, m))) :
    optionsStart m = (if r.isIpv6 then 54 else 34) + r.metaPacket.l2L3OptSize + 20 ∧
      m.l4OptSize = dataOffset.toNat * 4 - 20 ∧ (20 : Int) + m.l4OptSize ≤ r.sizeChecker ∧
      ∃ header, m.protocolData = .tcpHeader header := by
  obtain ⟨header, hheader⟩ := hheader
  have hsizes : (if r.isIpv6 then ipv6Tcp else .ipv4Tcp).minPacketSize =
      (if r.isIpv6 then 54 else 34) + 20 ∧
      (if r.isIpv6 then ipv6Tcp else .ipv4Tcp).minHeaderSize = 20 := by
    cases r.isIpv6 <;> exact ⟨rfl, rfl⟩
  unfold acceptTcp at h
  generalize (if r.isIpv6 then ipv6Tcp else .ipv4Tcp) = headerType at h hsizes
  generalize (if r.isIpv6 then 54 else 34) = base at h hsizes
  obtain ⟨least, -, h⟩ := bind_eq_ok h
  dsimp only at h
  split at h
  · cases h
  obtain ⟨byte, -, h⟩ := bind_eq_ok h
  split at h
  · cases h
  obtain ⟨length, -, h⟩ := bind_eq_ok h
  obtain ⟨m', hm', h⟩ := bind_eq_ok h
  cases h
  rw [hheader] at hm'
  obtain ⟨winSize, -, hm'⟩ := bind_eq_ok hm'
  obtain ⟨flags, -, hm'⟩ := bind_eq_ok hm'
  obtain ⟨seq, -, hm'⟩ := bind_eq_ok hm'
  obtain ⟨ack, -, hm'⟩ := bind_eq_ok hm'
  cases hm'
  refine ⟨?_, ?_, ?_, _, rfl⟩
  · unfold optionsStart
    dsimp only
    omega
  · dsimp only
    omega
  · dsimp only
    omega

theorem parseEth_eth (h : parseEth packet = .ok (.ok eth)) :
    eth.Of packet ∧ ipStart packet ≤ packet.length := by
  by_cases hstart : ipStart packet ≤ packet.length
  · obtain ⟨vlan, hparse⟩ := parseEth_ok hstart
    rw [hparse] at h
    cases h
    exact ⟨⟨rfl, rfl, rfl⟩, hstart⟩
  · rw [parseEth_truncated (Nat.not_le.mp hstart)] at h
    cases h

theorem AcceptedAsTcp.bounds (h : AcceptedAsTcp packet capture dataOffset m) :
    optionsEnd dataOffset m ≤ packet.length ∧ m.l4OptSize = dataOffset.toNat * 4 - 20 ∧
      ∃ header, m.protocolData = .tcpHeader header := by
  obtain ⟨eth, before, ip, hparse, hmacs, hip, -, haccept⟩ := h
  obtain ⟨heth, hstart⟩ := parseEth_eth hparse
  obtain ⟨before', hmacs', hbefore⟩ := updateMacs_ok heth hstart capture
  rw [hmacs] at hmacs'
  cases hmacs'
  obtain ⟨hinside, hheader⟩ := updateIp_more heth hbefore hip
  obtain ⟨hoptions, hsize, hleft, hheader'⟩ := acceptTcp_more hheader haccept
  refine ⟨?_, hsize, hheader'⟩
  unfold optionsEnd
  omega

/-- **Options.** For a frame that is accepted as TCP, whatever its options hold, reading them
ends without a panic and uses only bytes of the options if and only if every address among them
ends with the options. -/
theorem options_inside_iff {capture : Capture} (h : AcceptedAsTcp packet capture dataOffset m) :
    (∃ s, readTcpOptions packet m = .ok s ∧ ∀ i ∈ s.reads, i < optionsEnd dataOffset m) ↔
      AddressesFit packet (optionsEnd dataOffset m) (optionsStart m) (optionsEnd dataOffset m) := by
  obtain ⟨hend, hsize, header, hheader⟩ := h.bounds
  unfold readTcpOptions optionsEnd at *
  rw [hheader]
  rw [hsize]
  exact updateTcpOpt_inside_iff hend rfl

/-- The frame is accepted as TCP with a data offset, and the packet passes the test. -/
def checkTcp (packet : Bytes) (capture : Capture) (dataOffset : BitVec 8)
    (test : MetaPacket → Bool) : Bool :=
  delivers (parseEth packet) fun
    | .error _ => false
    | .ok eth =>
      delivers (updateMacs packet eth (capture.start packet)) fun before =>
        delivers (updateIp packet eth before) fun
          | .done _ => false
          | .more ip =>
            ip.proto == IpProtocol.tcp && delivers (acceptTcp packet ip) fun
              | .done _ => false
              | .more r => r.1 == dataOffset && test r.2

theorem acceptedAsTcp_of_check {test : MetaPacket → Bool}
    (h : checkTcp packet capture dataOffset test = true) :
    ∃ m, AcceptedAsTcp packet capture dataOffset m ∧ test m = true := by
  obtain ⟨result, hparse, h⟩ := eq_ok_of_delivers h
  cases result with
  | error e => cases h
  | ok eth =>
    obtain ⟨before, hmacs, h⟩ := eq_ok_of_delivers h
    obtain ⟨stage, hip, h⟩ := eq_ok_of_delivers h
    cases stage with
    | done m => cases h
    | more ip =>
      obtain ⟨hproto, h⟩ := Bool.and_eq_true_iff.mp h
      obtain ⟨stage, haccept, h⟩ := eq_ok_of_delivers h
      cases stage with
      | done m => cases h
      | more r =>
        obtain ⟨hoffset, htest⟩ := Bool.and_eq_true_iff.mp h
        obtain rfl := eq_of_beq hoffset
        exact ⟨r.2, ⟨eth, before, ip, hparse, hmacs, hip, eq_of_beq hproto, haccept⟩, htest⟩

/-- An IPv4 frame without a payload behind a TCP header with four bytes of options. -/
def tcpFrame (options : Bytes) : Bytes :=
  .replicate 12 0 ++ [0x08, 0x00] ++
    [0x45, 0, 0, 44, 0, 0, 0, 0, 64, 6, 0, 0, 10, 0, 0, 1, 10, 0, 0, 2] ++
    [0, 80, 0, 80, 0, 0, 0, 1, 0, 0, 0, 1, 0x60, 0x10, 0, 0, 0, 0, 0, 0] ++ options

/-- A maximum segment size is read from the options. -/
theorem options_inside_mss :
    ∃ m, AcceptedAsTcp (tcpFrame [2, 4, 5, 180]) {} 6 m ∧
      ∃ s, readTcpOptions (tcpFrame [2, 4, 5, 180]) m = .ok s ∧
        ∀ i ∈ s.reads, i < optionsEnd 6 m := by
  have hcheck : checkTcp (tcpFrame [2, 4, 5, 180]) {} 6 (fun m => optionsStart m == 54) = true := by
    decide +kernel
  obtain ⟨m, hm, hstart⟩ := acceptedAsTcp_of_check hcheck
  refine ⟨m, hm, (options_inside_iff hm).mpr ?_⟩
  unfold optionsEnd
  rw [eq_of_beq hstart]
  refine (addressesFit_step (by decide)).mpr ⟨?_, ?_⟩
  · rintro ⟨h, -⟩
    cases h
  · intro next hnext
    cases hnext
    exact fun o ho => absurd (beginsAt_iff.mp ho).1 (by decide)

/-- An address that only begins in the options is read beyond the frame. -/
theorem address_beyond_frame :
    (∃ m, AcceptedAsTcp (tcpFrame [1, 1, 254, 8]) {} 6 m ∧
      optionsEnd 6 m = (tcpFrame [1, 1, 254, 8]).length ∧
      ∃ e, readTcpOptions (tcpFrame [1, 1, 254, 8]) m = .error e) ∧
    ∃ e, updateFields (tcpFrame [1, 1, 254, 8]) {} = .error e := by
  have hcheck : checkTcp (tcpFrame [1, 1, 254, 8]) {} 6 (fun m =>
      optionsEnd 6 m == (tcpFrame [1, 1, 254, 8]).length &&
        panics (readTcpOptions (tcpFrame [1, 1, 254, 8]) m)) = true := by
    decide +kernel
  obtain ⟨m, hm, htest⟩ := acceptedAsTcp_of_check hcheck
  obtain ⟨hend, hpanics⟩ := Bool.and_eq_true_iff.mp htest
  exact ⟨⟨m, hm, eq_of_beq hend, eq_error_of_panics hpanics⟩,
    eq_error_of_panics (by decide +kernel)⟩

end ZeroTrace.Headers
