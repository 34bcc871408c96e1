import ZeroTrace.DecapsulateSafety

/-!
# The inner frame of a tunnel

A frame is wrapped in a tunnel by putting an Ethernet, an IP and a tunnel header before it.
Decapsulation finds it again, except behind Geneve over IPv6: the offset that is returned there
counts an IPv4 header.
-/

namespace ZeroTrace.Decap

open RustExec Slices ZeroTrace.Outcomes List

/-! ### Wrappings -/

/-- A frame in VXLAN or Geneve, over UDP and IPv4 without options or IPv6. -/
structure UdpWrapping where
  isIpv6 : Bool
  geneve : Bool
  l2 : Bytes
  ip : Bytes
  udp : Bytes
  header : Bytes
  frame : Bytes
  l2_length : 14 ≤ l2.length
  ip_length : ip.length = if isIpv6 then 40 else 20
  ip_proto : byteAt ip (if isIpv6 then 6 else 9) = 17
  udp_length : udp.length = 8
  udp_port : if geneve then wordAt udp 2 = 6081
    else wordAt udp 2 = 4789 ∨ wordAt udp 2 = 8472 ∨ wordAt udp 2 = 6784
  header_wf : if geneve then
      byteAt header 0 >>> 6 = 0 ∧ header.length = (byteAt header 0 &&& 0x3f).toNat * 4 + 8 ∧
        wordAt header 2 = 0x6558
    else header.length = 8 ∧ byteAt header 0 = 8

namespace UdpWrapping

variable (w : UdpWrapping)

def l3Packet : Bytes := w.ip ++ (w.udp ++ (w.header ++ w.frame))

def packet : Bytes := w.l2 ++ w.l3Packet

def tunnelType : TunnelType := if w.geneve then .geneve else .vxlan

def Enters : Prop := (if w.isIpv6 then 64 else 44) ≤ w.l3Packet.length

/-- The function for the version of the outer IP packet. -/
def decapsulate (tunnelTypes : TunnelTypeBitmap) (info : TunnelInfo) :
    Exec (Nat × Bytes × TunnelInfo) :=
  if w.isIpv6 then Decap.decapsulateV6 w.packet w.l2.length tunnelTypes info
  else Decap.decapsulate w.packet w.l2.length tunnelTypes info

def Found (tunnelTypes : TunnelTypeBitmap) (info : TunnelInfo) : Prop :=
  ∃ r, w.decapsulate tunnelTypes info = .ok r ∧ r.2.1.drop (w.l2.length + r.1) = w.frame

end UdpWrapping

/-- An IP packet in IPv4, with any size of its header, or in IPv6. -/
structure IpipWrapping where
  underlayIpv6 : Bool
  overlayIpv6 : Bool
  l2 : Bytes
  ip : Bytes
  inner : Bytes
  l2_length : 14 ≤ l2.length
  ip_length : ip.length = underlaySize underlayIpv6 ip
  ip_least : 20 ≤ ip.length
  ip_proto : byteAt ip (if underlayIpv6 then 6 else 9) = if overlayIpv6 then 41 else 4

namespace IpipWrapping

variable (w : IpipWrapping)

def packet : Bytes := w.l2 ++ (w.ip ++ w.inner)

def Enters : Prop :=
  (if w.underlayIpv6 then 64 else 44) ≤ (w.ip ++ w.inner).length

/-- The function for the version of the outer IP packet, with a signed offset. -/
def decapsulate (tunnelTypes : TunnelTypeBitmap) (info : TunnelInfo) :
    Exec (Int × Bytes × TunnelInfo) :=
  if w.underlayIpv6 then decapsulateV6Signed w.packet w.l2.length tunnelTypes info
  else decapsulateSigned w.packet w.l2.length tunnelTypes info

/-- The Ethernet header with the type of the inner packet. -/
def innerL2 : Bytes :=
  w.l2.take (w.l2.length - 2) ++
    [(overlayType w.overlayIpv6).extractLsb' 8 8, (overlayType w.overlayIpv6).extractLsb' 0 8]

def Found (tunnelTypes : TunnelTypeBitmap) (info : TunnelInfo) : Prop :=
  ∃ r n, w.decapsulate tunnelTypes info = .ok r ∧ (w.l2.length : Int) + r.1 = (n : Nat) ∧
    r.2.1.drop n = w.innerL2 ++ w.inner

end IpipWrapping

/-! ### IP in IP -/

section Ipip

variable {tunnelTypes : TunnelTypeBitmap} {info : TunnelInfo} {tunnelType : TunnelType}
  (w : IpipWrapping)

theorem isEmpty_of_has (h : tunnelTypes.has tunnelType = true) : tunnelTypes.isEmpty = false := by
  refine Bool.eq_false_iff.mpr fun hempty => ?_
  have hbits : tunnelTypes.bits = 0#16 := eq_of_beq hempty
  unfold TunnelTypeBitmap.has at h
  rw [hbits, BitVec.getLsbD_zero] at h
  cases h

theorem not_skipped (h : tunnelTypes.has tunnelType = true) (htier : info.tier < 2) :
    ¬ (tunnelTypes.isEmpty = true ∨ info.tier = 2) := by
  rintro (hempty | hlimit)
  · rw [isEmpty_of_has h] at hempty
    cases hempty
  · omega

section Signed

variable {packet : Bytes} {l2Len : Nat} (overlayIpv6 : Bool) (htier : info.tier < 2)
  (htype : tunnelTypes.has .ipip = true) (hpacket : l2Len ≤ packet.length)

include htier htype hpacket

theorem decapsulateSigned_ipip (hl3 : 44 ≤ (packet.drop l2Len).length)
    (hproto : byteAt (packet.drop l2Len) 9 = if overlayIpv6 then 41 else 4) :
    decapsulateSigned packet l2Len tunnelTypes info =
      decapsulateIpip packet l2Len false overlayIpv6 info := by
  unfold decapsulateSigned
  rw [if_neg (not_skipped htype htier), sliceFrom_ok hpacket, ok_bind, if_neg (by omega),
    index_bind (by omega), hproto, htype]
  cases overlayIpv6 <;> rfl

theorem decapsulateV6Signed_ipip (hl3 : 64 ≤ (packet.drop l2Len).length)
    (hproto : byteAt (packet.drop l2Len) 6 = if overlayIpv6 then 41 else 4) :
    decapsulateV6Signed packet l2Len tunnelTypes info =
      decapsulateIpip packet l2Len true overlayIpv6 info := by
  unfold decapsulateV6Signed
  rw [if_neg (not_skipped htype htier), sliceFrom_ok hpacket, ok_bind, if_neg (by omega),
    index_bind (by omega), hproto, htype]
  cases overlayIpv6 <;> rfl

end Signed

theorem drop_relabelled :
    (relabelled w.packet w.l2.length w.ip.length (overlayType w.overlayIpv6)).drop w.ip.length =
      w.innerL2 ++ w.inner := by
  have hfront : (w.packet.take w.ip.length).length = w.ip.length := by
    rw [length_take]
    unfold IpipWrapping.packet
    simp only [length_append]
    omega
  have hl2 : w.packet.take (w.l2.length - 2) = w.l2.take (w.l2.length - 2) :=
    take_append_of_le_length (Nat.sub_le _ _)
  have hinner : w.packet.drop (w.ip.length + w.l2.length) = w.inner := by
    unfold IpipWrapping.packet
    rw [Nat.add_comm, ← append_assoc]
    exact drop_left' length_append
  unfold relabelled
  rw [append_assoc, drop_left' hfront, hl2, hinner]
  rfl

/-- **IP in IP** is found behind any header. -/
theorem IpipWrapping.found (htier : info.tier < 2)
    (htype : tunnelTypes.has .ipip = true) (henters : w.Enters) : w.Found tunnelTypes info := by
  have hl2 := w.l2_length
  have hleast := w.ip_least
  have hpacket : w.l2.length ≤ w.packet.length := by
    unfold IpipWrapping.packet
    rw [length_append]
    omega
  have hl3 : w.packet.drop w.l2.length = w.ip ++ w.inner := drop_left
  have hlooked : 44 ≤ (w.packet.drop w.l2.length).length := by
    rw [hl3]
    unfold IpipWrapping.Enters at henters
    split at henters <;> omega
  have hsize : underlaySize w.underlayIpv6 (w.packet.drop w.l2.length) = w.ip.length := by
    rw [w.ip_length, hl3]
    unfold underlaySize outerSize
    rw [byteAt_append_left (by omega)]
  have hproto : byteAt (w.packet.drop w.l2.length) (if w.underlayIpv6 then 6 else 9) =
      if w.overlayIpv6 then 41 else 4 := by
    rw [hl3, byteAt_append_left (by split <;> omega), w.ip_proto]
  have hipip : Exactly _
      (decapsulateIpip w.packet w.l2.length w.underlayIpv6 w.overlayIpv6 info) _ :=
    decapsulateIpip_exactly w.underlayIpv6 w.overlayIpv6 hl2 hpacket hlooked
  rw [hsize] at hipip
  have hinside : w.ip.length ≤ (w.packet.drop w.l2.length).length := by
    rw [hl3, length_append]
    omega
  obtain ⟨r, hr, hoffset, hmoved⟩ := hipip.exists_ok ⟨by omega, hinside⟩
  have hdecap : w.decapsulate tunnelTypes info = .ok r := by
    unfold IpipWrapping.decapsulate
    unfold IpipWrapping.Enters at henters
    rw [← hl3] at henters
    cases hunderlay : w.underlayIpv6 with
    | false =>
      rw [hunderlay] at hproto henters hr
      rw [if_neg (by decide), decapsulateSigned_ipip _ htier htype hpacket henters hproto, hr]
    | true =>
      rw [hunderlay] at hproto henters hr
      rw [if_pos rfl, decapsulateV6Signed_ipip _ htier htype hpacket henters hproto, hr]
  refine ⟨r, w.ip.length, hdecap, by omega, ?_⟩
  rw [hmoved, drop_relabelled]

end Ipip

/-! ### VXLAN and Geneve -/

section Udp

variable {tunnelTypes : TunnelTypeBitmap} {info : TunnelInfo} (w : UdpWrapping)

namespace UdpWrapping

theorem drop_packet : w.packet.drop w.l2.length = w.l3Packet := drop_left

theorem byteAt_udp {i : Nat} (h : i < 8) :
    byteAt w.l3Packet (w.ip.length + i) = byteAt w.udp i := by
  unfold l3Packet
  rw [byteAt_append_right, byteAt_append_left (by rw [w.udp_length]; exact h)]

theorem drop_headers : w.l3Packet.drop (w.ip.length + 8) = w.header ++ w.frame := by
  unfold l3Packet
  rw [← append_assoc]
  exact drop_left' (by rw [length_append, w.udp_length])

theorem length_header : 8 ≤ w.header.length := by
  have hheader := w.header_wf
  split at hheader <;> omega

theorem length_l3Packet :
    w.l3Packet.length = w.ip.length + 8 + w.header.length + w.frame.length := by
  unfold l3Packet
  rw [length_append, length_append, length_append, w.udp_length]
  omega

theorem leWordAt_port : leWordAt w.l3Packet (w.ip.length + 2) =
    (wordAt w.udp 2).extractLsb' 0 8 ++ (wordAt w.udp 2).extractLsb' 8 8 := by
  rw [← leWordAt_eq]
  unfold leWordAt
  rw [Nat.add_assoc, w.byteAt_udp (by decide), w.byteAt_udp (by decide)]

theorem geneveSize_eq (h : w.geneve = true) :
    geneveSize (w.l3Packet.drop (w.ip.length + 8)) = w.header.length := by
  have hheader := w.header_wf
  rw [if_pos h] at hheader
  have hword : wordAt (w.header ++ w.frame) 2 = 0x6558 := by
    unfold wordAt
    rw [byteAt_append_left (by omega), byteAt_append_left (by omega)]
    exact hheader.2.2
  have hproto : leWordAt (w.header ++ w.frame) 2 = 0x5865 := by
    rw [leWordAt_eq, hword]
    decide
  rw [w.drop_headers]
  unfold geneveSize
  rw [byteAt_append_left (by omega)]
  rw [if_pos ⟨hheader.1, by rw [length_append]; omega, hproto⟩, hheader.2.1]

def offset : Nat :=
  if w.geneve then
    (if w.ip.length + 30 ≤ w.l3Packet.length then 28 + w.header.length else 0)
  else if 50 ≤ w.l3Packet.length then w.ip.length + 16 else 0

theorem vxlanOffset_eq (h : w.geneve = false) :
    vxlanOffset (w.ip.length + 8) w.l3Packet = w.offset := by
  have hheader := w.header_wf
  rw [if_neg (by rw [h]; decide)] at hheader
  have hflags : byteAt w.l3Packet (w.ip.length + 8) = 8 := by
    rw [← Nat.add_zero (w.ip.length + 8), ← byteAt_drop, w.drop_headers,
      byteAt_append_left (by omega)]
    exact hheader.2
  unfold vxlanOffset offset
  simp only [h, hflags, and_true, Bool.false_eq_true, if_false]

theorem geneveOffset_eq (h : w.geneve = true) :
    geneveOffset (w.ip.length + 30) (w.ip.length + 8) w.l3Packet = w.offset := by
  have hlength := w.length_header
  have hsome : w.header.length ≠ 0 := by omega
  unfold geneveOffset offset
  simp only [w.geneveSize_eq h, h, hsome, ne_eq, not_false_eq_true, and_true, if_true]

theorem recognized (htype : tunnelTypes.has w.tunnelType = true) :
    ((isVxlanPort (leWordAt w.l3Packet (w.ip.length + 2)) = true ∧ tunnelTypes.has .vxlan = true) ∧
      vxlanOffset (w.ip.length + 8) w.l3Packet = w.offset) ∨
    ((leWordAt w.l3Packet (w.ip.length + 2) = 0xc117 ∧ tunnelTypes.has .geneve = true) ∧
      geneveOffset (w.ip.length + 30) (w.ip.length + 8) w.l3Packet = w.offset) := by
  have hport := w.udp_port
  rw [w.leWordAt_port]
  unfold tunnelType at htype
  cases hgeneve : w.geneve with
  | true =>
    rw [hgeneve] at htype
    rw [hgeneve, if_pos rfl] at hport
    refine .inr ⟨⟨?_, htype⟩, w.geneveOffset_eq hgeneve⟩
    rw [hport]
    decide
  | false =>
    rw [hgeneve] at htype
    rw [hgeneve, if_neg (by decide)] at hport
    refine .inl ⟨⟨?_, htype⟩, w.vxlanOffset_eq hgeneve⟩
    rcases hport with hport | hport | hport <;> rw [hport] <;> decide

theorem udpOffset_eq (hv4 : w.isIpv6 = false) (htype : tunnelTypes.has w.tunnelType = true) :
    udpOffset w.packet w.l2.length tunnelTypes = w.offset := by
  have hrecognized := w.recognized htype
  rw [w.ip_length, hv4, if_neg (by decide)] at hrecognized
  unfold udpOffset
  dsimp only
  rw [w.drop_packet]
  rcases hrecognized with ⟨hvxlan, hoffset⟩ | ⟨hgeneve, hoffset⟩
  · exact (if_pos hvxlan).trans hoffset
  · rw [hgeneve.1, if_neg (fun h => absurd h.1 (by decide)),
      if_neg (fun h => absurd h.1 (by decide)), if_pos ⟨rfl, hgeneve.2⟩]
    exact hoffset

theorem udpV6Offset_eq (hv6 : w.isIpv6 = true) (htype : tunnelTypes.has w.tunnelType = true) :
    udpV6Offset w.packet w.l2.length tunnelTypes = w.offset := by
  have hrecognized := w.recognized htype
  rw [w.ip_length, hv6, if_pos rfl] at hrecognized
  unfold udpV6Offset
  dsimp only
  rw [w.drop_packet]
  rcases hrecognized with ⟨hvxlan, hoffset⟩ | ⟨hgeneve, hoffset⟩
  · exact (if_pos hvxlan).trans hoffset
  · rw [hgeneve.1, if_neg (fun h => absurd h.1 (by decide)), if_pos ⟨rfl, hgeneve.2⟩]
    exact hoffset

theorem drop_offset_iff : w.packet.drop (w.l2.length + w.offset) = w.frame ↔
      ¬ (w.isIpv6 = true ∧ w.geneve = true) ∧ 50 ≤ w.l3Packet.length := by
  have hlength := w.length_l3Packet
  have hdrop : w.packet.drop (w.l2.length + w.offset) = w.l3Packet.drop w.offset := by
    unfold packet
    rw [drop_length_add_append]
  have hframe : w.l3Packet.drop (w.ip.length + 8 + w.header.length) = w.frame := by
    rw [← drop_drop, w.drop_headers, drop_left]
  have hother : ∀ n, n < w.ip.length + 8 + w.header.length → w.l3Packet.drop n ≠ w.frame := by
    intro n hn heq
    have := congrArg List.length heq
    rw [length_drop] at this
    omega
  rw [hdrop]
  unfold offset
  cases hgeneve : w.geneve with
  | false =>
    have hvxlan := w.header_wf
    rw [if_neg (by rw [hgeneve]; decide)] at hvxlan
    rw [if_neg (by decide)]
    simp only [Bool.false_eq_true, and_false, not_false_eq_true, true_and]
    split
    next hlong =>
      refine iff_of_true ?_ hlong
      rw [← hframe, hvxlan.1]
    next hshort => exact iff_of_false (hother 0 (by omega)) hshort
  | true =>
    rw [if_pos rfl]
    cases hversion : w.isIpv6 with
    | false =>
      have hip : w.ip.length = 20 := by rw [w.ip_length, hversion]; rfl
      simp only [Bool.false_eq_true, false_and, not_false_eq_true, true_and, hip]
      split
      next hlong =>
        refine iff_of_true ?_ hlong
        rw [← hframe, hip]
      next hshort => exact iff_of_false (hother 0 (by omega)) hshort
    | true =>
      have hip : w.ip.length = 40 := by rw [w.ip_length, hversion]; rfl
      refine iff_of_false ?_ (fun h => h.1 ⟨rfl, rfl⟩)
      split
      · exact hother _ (by omega)
      · exact hother 0 (by omega)

theorem decapsulate_eq (htier : info.tier < 2) (htype : tunnelTypes.has w.tunnelType = true)
    (henters : w.Enters) :
    ∃ info', w.decapsulate tunnelTypes info = .ok (w.offset, w.packet, info') := by
  have hl2 := w.l2_length
  have hpacket : w.l2.length ≤ w.packet.length := by
    unfold packet
    rw [length_append]
    omega
  have hproto := w.ip_proto
  unfold Enters at henters
  rw [← w.drop_packet] at henters
  unfold decapsulate
  cases hversion : w.isIpv6
  case' false =>
    have hip : w.ip.length = 20 := by rw [w.ip_length, hversion]; rfl
    rw [hversion] at hproto henters
    rw [if_neg (by decide)] at hproto henters ⊢
    have hudp : byteAt (w.packet.drop w.l2.length) 9 = 17 := by
      rw [w.drop_packet, l3Packet, byteAt_append_left (by omega), hproto]
    have hexactly : Exactly _ (decapsulateUdp w.packet w.l2.length tunnelTypes info) _ :=
      decapsulateUdp_exactly hl2 hpacket henters
    obtain ⟨r, hr, hoffset⟩ := hexactly.exists_ok fun _ => by omega
    rw [w.udpOffset_eq hversion htype] at hoffset
    unfold Decap.decapsulate decapsulateSigned
  case' true =>
    have hip : w.ip.length = 40 := by rw [w.ip_length, hversion]; rfl
    rw [hversion] at hproto henters
    rw [if_pos rfl] at hproto henters ⊢
    have hudp : byteAt (w.packet.drop w.l2.length) 6 = 17 := by
      rw [w.drop_packet, l3Packet, byteAt_append_left (by omega), hproto]
    have hexactly : Exactly _ (decapsulateV6Udp w.packet w.l2.length tunnelTypes info) _ :=
      decapsulateV6Udp_exactly hl2 hpacket henters
    obtain ⟨r, hr, hoffset⟩ := hexactly.exists_ok fun _ => by omega
    rw [w.udpV6Offset_eq hversion htype] at hoffset
    unfold Decap.decapsulateV6 decapsulateV6Signed
  all_goals
    rw [if_neg (not_skipped htype htier), sliceFrom_ok hpacket, ok_bind, if_neg (by omega),
      index_bind (by omega), if_pos hudp, unmoved, hr, ok_bind, unsigned, ok_bind,
      if_neg (by omega)]
    exact ⟨r.2, by rw [← hoffset]; rfl⟩

end UdpWrapping

/-- **The inner frame.** A frame in VXLAN or Geneve that passes the test at the entry is found
if and only if it is not in Geneve over IPv6 and the IP packet has at least 50 bytes, as it has
around every frame with an Ethernet header.  An IP packet in IP is always found, behind the
Ethernet header with its own type. -/
theorem inner_found_iff (tunnelTypes : TunnelTypeBitmap) (info : TunnelInfo)
    (htier : info.tier < 2) :
    (∀ w : UdpWrapping, tunnelTypes.has w.tunnelType = true → w.Enters →
      (w.Found tunnelTypes info ↔ ¬ (w.isIpv6 = true ∧ w.geneve = true) ∧ 50 ≤ w.l3Packet.length)) ∧
    ∀ w : IpipWrapping, tunnelTypes.has .ipip = true → w.Enters → w.Found tunnelTypes info := by
  refine ⟨fun w htype henters => ?_, fun w htype henters => w.found htier htype henters⟩
  obtain ⟨info', hinfo⟩ := w.decapsulate_eq htier htype henters
  unfold UdpWrapping.Found
  rw [← w.drop_offset_iff, hinfo]
  constructor
  · rintro ⟨r, hr, hfound⟩
    cases hr
    exact hfound
  · intro hfound
    exact ⟨_, rfl, hfound⟩

/-- A frame of 14 bytes in VXLAN over IPv4. -/
def vxlanWrapping : UdpWrapping where
  isIpv6 := false
  geneve := false
  l2 := .replicate 14 0
  ip := [0x45, 0, 0, 50, 0, 0, 0, 0, 64, 17] ++ .replicate 10 0
  udp := [0, 0, 0x12, 0xb5, 0, 30, 0, 0]
  header := [8, 0, 0, 0, 0, 0, 1, 0]
  frame := .replicate 14 1
  l2_length := by decide
  ip_length := by decide
  ip_proto := by decide
  udp_length := by decide
  udp_port := by decide
  header_wf := by decide

theorem inner_found_vxlan : (({} : TunnelInfo).tier < 2) ∧ vxlanWrapping.Found ⟨2⟩ {} :=
  ⟨by decide, ((inner_found_iff ⟨2⟩ {} (by decide)).1 vxlanWrapping (by decide)
    (by unfold UdpWrapping.Enters; decide)).mpr ⟨by decide, by decide⟩⟩

/-- A frame of 14 bytes in Geneve over IPv6. -/
def geneveV6Wrapping : UdpWrapping where
  isIpv6 := true
  geneve := true
  l2 := .replicate 14 0
  ip := [0x60, 0, 0, 0, 0, 30, 17, 64] ++ .replicate 32 0
  udp := [0, 0, 0x17, 0xc1, 0, 30, 0, 0]
  header := [0, 0, 0x65, 0x58, 0, 0, 1, 0]
  frame := .replicate 14 1
  l2_length := by decide
  ip_length := by decide
  ip_proto := by decide
  udp_length := by decide
  udp_port := by decide
  header_wf := by decide

/-- Behind the offset are twenty bytes of headers before the inner frame. -/
theorem geneve_v6_missed :
    geneveV6Wrapping.Enters ∧ TunnelTypeBitmap.has ⟨16⟩ geneveV6Wrapping.tunnelType = true ∧
      ¬ geneveV6Wrapping.Found ⟨16⟩ {} := by
  refine ⟨by unfold UdpWrapping.Enters; decide, by decide, ?_⟩
  rintro ⟨r, hr, hfound⟩
  have hcheck : delivers (geneveV6Wrapping.decapsulate ⟨16⟩ {}) (fun r =>
      r.2.1.drop (geneveV6Wrapping.l2.length + r.1) != geneveV6Wrapping.frame) = true := by
    decide +kernel
  obtain ⟨r', hr', hmissed⟩ := eq_ok_of_delivers hcheck
  rw [hr] at hr'
  cases hr'
  exact (bne_iff_ne.mp hmissed) hfound

end Udp

end ZeroTrace.Decap
