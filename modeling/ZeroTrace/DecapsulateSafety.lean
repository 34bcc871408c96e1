import ZeroTrace.Decapsulate

/-!
# When decapsulation is safe

The entry tests of `decapsulate` and `decapsulate_v6` leave at least 44 and 64 bytes behind the
Ethernet header.  That is enough for VXLAN and Geneve, whose offsets do not depend on the size
of the outer IP header, and for IP in IPv6.  It is not enough for GRE and IP in IPv4, where the
size of the outer header is taken from the packet: the header may be longer than the packet,
and shorter than the Ethernet header that is to be put in its place.
-/

namespace ZeroTrace.Decap

open RustExec Slices ZeroTrace.Outcomes TunnelInfo List Nat

/-! ### What is found -/

def outerSize (l3Packet : Bytes) : Nat := (byteAt l3Packet 0 &&& 0xf).toNat * 4

/-- The offset of what is in VXLAN behind `headers` bytes. -/
def vxlanOffset (headers : Nat) (l3Packet : Bytes) : Nat :=
  if 50 ≤ l3Packet.length ∧ byteAt l3Packet headers = 8 then headers + 8 else 0

/-- The size of a Geneve header that a frame follows, 0 if there is none. -/
def geneveSize (l4Payload : Bytes) : Nat :=
  let size := (byteAt l4Payload 0 &&& 0x3f).toNat * 4 + 8
  if byteAt l4Payload 0 >>> 6 = 0 ∧ size ≤ l4Payload.length ∧ leWordAt l4Payload 2 = 0x5865 then
    size
  else 0

/-- The offset that is returned for Geneve behind `headers` bytes. -/
def geneveOffset (least headers : Nat) (l3Packet : Bytes) : Nat :=
  if least ≤ l3Packet.length ∧ geneveSize (l3Packet.drop headers) ≠ 0 then
    28 + geneveSize (l3Packet.drop headers)
  else 0

/-- The ports of a frame do not show its tunnel. -/
def HashedPorts (packet : Bytes) (srcPort dstPort : BitVec 16) (tunnelTypes : TunnelTypeBitmap) :
    Prop :=
  byteAt packet 0 = 0xff ∧ byteAt packet 1 = 0xff ∧ tunnelTypes.has .vxlan = true ∧
    srcPort = dstPort

instance (packet : Bytes) (srcPort dstPort : BitVec 16) (tunnelTypes : TunnelTypeBitmap) :
    Decidable (HashedPorts packet srcPort dstPort tunnelTypes) :=
  inferInstanceAs (Decidable (_ ∧ _ ∧ _ ∧ _))

def udpOffset (packet : Bytes) (l2Len : Nat) (tunnelTypes : TunnelTypeBitmap) : Nat :=
  let l3Packet := packet.drop l2Len
  let dstPort := leWordAt l3Packet 22
  if isVxlanPort dstPort ∧ tunnelTypes.has .vxlan = true then vxlanOffset 28 l3Packet
  else if dstPort = 0xb612 ∧ tunnelTypes.has .vxlanNsh = true then 0
  else if dstPort = 0xc117 ∧ tunnelTypes.has .geneve = true then geneveOffset 50 28 l3Packet
  else if HashedPorts packet (leWordAt l3Packet 20) dstPort tunnelTypes then
    vxlanOffset 28 l3Packet
  else 0

def udpV6Offset (packet : Bytes) (l2Len : Nat) (tunnelTypes : TunnelTypeBitmap) : Nat :=
  let l3Packet := packet.drop l2Len
  let dstPort := leWordAt l3Packet 42
  if isVxlanPort dstPort ∧ tunnelTypes.has .vxlan = true then vxlanOffset 48 l3Packet
  else if dstPort = 0xc117 ∧ tunnelTypes.has .geneve = true then geneveOffset 70 48 l3Packet
  else if HashedPorts packet (leWordAt l3Packet 40) dstPort tunnelTypes then
    vxlanOffset 48 l3Packet
  else 0

/-! ### Tunnels over UDP -/

section Udp

variable {packet : Bytes} {l2Len headers least : Nat} {info : TunnelInfo}
  {tunnelTypes : TunnelTypeBitmap} {l3Packet : Bytes} {tunnelType : TunnelType} {id : BitVec 32}
  {isIpv6 : Bool}

theorem nextTier_exactly (info : TunnelInfo) :
    Exactly (info.tier < 255) (nextTier info) (fun _ => True) := by
  unfold nextTier checkedAdd
  split
  next h => exact .pure (by omega) trivial
  next h => exact .fail (by omega)

theorem recordOutermost_ok (hpacket : 12 ≤ packet.length) (hl3 : 44 ≤ l3Packet.length) :
    ∃ info', recordOutermost packet l3Packet isIpv6 tunnelType (.ok id) info = .ok info' ∧
      info'.tier = info.tier := by
  unfold recordOutermost
  split
  · cases isIpv6
    case' false => rw [if_neg (by decide), decapsulateAddr]
    case' true => rw [if_pos rfl, decapsulateV6Addr]
    all_goals
      rw [u32At_ok (by omega), ok_bind, u32At_ok (by omega), ok_bind, ok_bind, decapsulateMac,
        u32At_ok (by omega), ok_bind, u32At_ok (by omega), ok_bind, ok_bind, ok_bind]
      exact ⟨_, rfl, rfl⟩
  · exact ⟨info, rfl, rfl⟩

theorem recorded_exactly
    (hpacket : 12 ≤ packet.length) (hl3 : 44 ≤ l3Packet.length) (offset : Nat) :
    Exactly (info.tier < 255)
      (recordOutermost packet l3Packet isIpv6 tunnelType (.ok id) info >>= fun info =>
        nextTier info >>= fun info => .ok (offset, info)) (·.1 = offset) := by
  obtain ⟨info', hinfo, htier⟩ :=
    @recordOutermost_ok packet info l3Packet tunnelType id isIpv6 hpacket hl3
  rw [hinfo, ok_bind, ← htier]
  exact (nextTier_exactly info').bind_ok fun _ _ _ => ⟨_, rfl, rfl⟩

/-- A tunnel is found at an offset, if one more can be counted; none is found at 0. -/
def Finds (info : TunnelInfo) (offset : Nat) (x : Exec (Nat × TunnelInfo)) : Prop :=
  Exactly (offset ≠ 0 → info.tier < 255) x (·.1 = offset)

theorem Finds.nothing : Finds info 0 (.ok (0, info)) := .pure (fun h => absurd rfl h) rfl

theorem Finds.ite {c : Prop} [Decidable c] {i j : Nat} {x y : Exec (Nat × TunnelInfo)}
    (hx : Finds info i x) (hy : Finds info j y) :
    Finds info (if c then i else j) (if c then x else y) := by
  split
  · exact hx
  · exact hy

/-- **VXLAN.** -/
theorem vxlanBehind_exactly (isIpv6 : Bool) (hl2 : 12 ≤ l2Len) (hpacket : l2Len ≤ packet.length)
    (hl3 : headers + 8 ≤ (packet.drop l2Len).length) :
    Finds info (vxlanOffset headers (packet.drop l2Len))
      (vxlanBehind isIpv6 headers packet l2Len info) := by
  unfold vxlanBehind
  rw [sliceFrom_ok hpacket, ok_bind]
  generalize packet.drop l2Len = l3Packet at hl3 ⊢
  unfold vxlanOffset
  by_cases hshort : l3Packet.length < 42 + 8
  · rw [if_pos hshort, if_neg (fun h => absurd h.1 (by omega))]
    exact .nothing
  rw [if_neg hshort, index_bind (by omega)]
  by_cases hflags : byteAt l3Packet headers = 8
  · rw [if_neg (not_not.mpr hflags), if_pos ⟨by omega, hflags⟩, u32At_ok (by omega), ok_bind]
    refine (recorded_exactly (by omega) (by omega) (headers + 8)).congr ?_
    exact (imp_iff_right (by omega)).symm
  · rw [if_pos hflags, if_neg (fun h => hflags h.2)]
    exact .nothing

theorem toNat_shiftLeft_two {x : BitVec 8} (h : x.toNat < 64) : (x <<< 2).toNat = x.toNat * 4 := by
  rw [BitVec.toNat_shiftLeft, shiftLeft_eq]
  omega

theorem toNat_and_le (x y : BitVec 8) : (x &&& y).toNat ≤ y.toNat := by
  rw [BitVec.toNat_and]
  exact and_le_right

theorem decapsulateGeneveHeader_ok (l4Payload : Bytes) :
    ∃ id, decapsulateGeneveHeader l4Payload = .ok (id, geneveSize l4Payload) := by
  have hsize : ((byteAt l4Payload 0 &&& 0x3f) <<< 2).toNat =
      (byteAt l4Payload 0 &&& 0x3f).toNat * 4 :=
    toNat_shiftLeft_two (lt_succ_of_le (toNat_and_le _ 0x3f))
  unfold decapsulateGeneveHeader geneveSize
  by_cases hshort : l4Payload.length < 8
  · rw [if_pos hshort, if_neg (fun h => absurd h.2.1 (by omega))]
    exact ⟨0, rfl⟩
  rw [if_neg hshort, index_bind (by omega), hsize]
  by_cases hversion : byteAt l4Payload 0 >>> 6 = 0
  swap
  · rw [if_pos hversion, if_neg (fun h => hversion h.1)]
    exact ⟨0, rfl⟩
  rw [if_neg (not_not.mpr hversion)]
  by_cases hfit : (byteAt l4Payload 0 &&& 0x3f).toNat * 4 + 8 ≤ l4Payload.length
  swap
  · rw [if_pos (by omega), if_neg (fun h => hfit h.2.1)]
    exact ⟨0, rfl⟩
  rw [if_neg (by omega), u16LeAt_ok (by omega), ok_bind]
  by_cases hproto : leWordAt l4Payload 2 = 0x5865
  · rw [if_neg (not_not.mpr hproto), if_pos ⟨hversion, hfit, hproto⟩, u32At_ok (by omega), ok_bind]
    exact ⟨_, rfl⟩
  · rw [if_pos hproto, if_neg (fun h => hproto h.2.2)]
    exact ⟨0, rfl⟩

/-- **Geneve.** -/
theorem geneveBehind_exactly (isIpv6 : Bool) (hl2 : 12 ≤ l2Len) (hpacket : l2Len ≤ packet.length)
    (hleast : 44 ≤ least) (hheaders : headers ≤ least) :
    Finds info (geneveOffset least headers (packet.drop l2Len))
      (geneveBehind isIpv6 least headers packet l2Len info) := by
  unfold geneveBehind
  rw [sliceFrom_ok hpacket, ok_bind]
  generalize packet.drop l2Len = l3Packet
  unfold geneveOffset
  by_cases hshort : l3Packet.length < least
  · rw [if_pos hshort, if_neg (fun h => absurd h.1 (by omega))]
    exact .nothing
  obtain ⟨id, hheader⟩ := decapsulateGeneveHeader_ok (l3Packet.drop headers)
  rw [if_neg hshort, sliceFrom_ok (by omega), ok_bind, hheader, ok_bind]
  by_cases hnone : geneveSize (l3Packet.drop headers) = 0
  · rw [if_pos hnone, if_neg (fun h => h.2 hnone)]
    exact .nothing
  · rw [if_neg hnone, if_pos ⟨by omega, hnone⟩]
    refine (recorded_exactly (by omega) (by omega) _).congr ?_
    exact (imp_iff_right (by omega)).symm

theorem decapsulatePlugin_none (tunnelType : TunnelType) :
    decapsulatePlugin tunnelType packet l2Len info = .ok (0, info) := rfl

theorem hashedPorts_eq {srcPort dstPort : BitVec 16} :
    hashedPorts (byteAt packet 0) (byteAt packet 1) (.ok srcPort) dstPort tunnelTypes =
      .ok (decide (HashedPorts packet srcPort dstPort tunnelTypes)) := by
  unfold hashedPorts
  by_cases h : byteAt packet 0 = 0xff ∧ byteAt packet 1 = 0xff ∧ tunnelTypes.has .vxlan = true
  · have hiff : HashedPorts packet srcPort dstPort tunnelTypes ↔ srcPort = dstPort :=
      ⟨fun h' => h'.2.2.2, fun h' => ⟨h.1, h.2.1, h.2.2, h'⟩⟩
    rw [if_pos h, ok_bind, decide_eq_decide.mpr hiff]
    rfl
  · have hnot : ¬ HashedPorts packet srcPort dstPort tunnelTypes :=
      fun h' => h ⟨h'.1, h'.2.1, h'.2.2.1⟩
    rw [if_neg h, decide_eq_false hnot]

/-- **Tunnels over UDP and IPv4.** -/
theorem decapsulateUdp_exactly (hl2 : 14 ≤ l2Len) (hpacket : l2Len ≤ packet.length)
    (hl3 : 44 ≤ (packet.drop l2Len).length) :
    Finds info (udpOffset packet l2Len tunnelTypes)
      (decapsulateUdp packet l2Len tunnelTypes info) := by
  have hvxlan : Finds info (vxlanOffset 28 (packet.drop l2Len))
      (decapsulateVxlan packet l2Len info) :=
    vxlanBehind_exactly false (by omega) hpacket (by omega)
  have hports : ¬ 36 - 14 + 2 > (packet.drop l2Len).length := by omega
  unfold decapsulateUdp udpOffset
  rw [index_bind (by omega), index_bind (by omega), sliceFrom_ok hpacket,
    ok_bind, if_neg hports, u16LeAt_ok (by omega), ok_bind, u16LeAt_ok (by omega),
    hashedPorts_eq, ok_bind]
  refine .ite hvxlan (.ite .nothing (.ite ?_ ?_))
  · exact geneveBehind_exactly false (by omega) hpacket (by omega) (by omega)
  · simp only [decide_eq_true_eq]
    exact .ite hvxlan .nothing

/-- **Tunnels over UDP and IPv6.** -/
theorem decapsulateV6Udp_exactly (hl2 : 14 ≤ l2Len) (hpacket : l2Len ≤ packet.length)
    (hl3 : 64 ≤ (packet.drop l2Len).length) :
    Finds info (udpV6Offset packet l2Len tunnelTypes)
      (decapsulateV6Udp packet l2Len tunnelTypes info) := by
  have hvxlan : Finds info (vxlanOffset 48 (packet.drop l2Len))
      (decapsulateV6Vxlan packet l2Len info) :=
    vxlanBehind_exactly true (by omega) hpacket (by omega)
  have hports : ¬ 40 + 2 + 2 > (packet.drop l2Len).length := by omega
  unfold decapsulateV6Udp udpV6Offset
  rw [index_bind (by omega), index_bind (by omega), sliceFrom_ok hpacket,
    ok_bind, if_neg hports, u16LeAt_ok (by omega), ok_bind, u16LeAt_ok (by omega),
    hashedPorts_eq, ok_bind]
  refine .ite hvxlan (.ite ?_ ?_)
  · exact geneveBehind_exactly true (by omega) hpacket (by omega) (by omega)
  · simp only [decide_eq_true_eq]
    exact .ite hvxlan .nothing

end Udp

/-! ### GRE and IP in IP -/

section Ipip

variable {packet : Bytes} {l2Len size : Nat} {info : TunnelInfo} {tunnelTypes : TunnelTypeBitmap}
  (underlayIpv6 : Bool) {l3Packet : Bytes}

/-- **GRE**: the header behind the outer one is read, and nothing is found. -/
theorem decapsulateGre_exactly (hpacket : l2Len ≤ packet.length)
    (hl3 : 44 ≤ (packet.drop l2Len).length) :
    Exactly (outerSize (packet.drop l2Len) + 4 ≤ (packet.drop l2Len).length)
      (decapsulateGre packet l2Len tunnelTypes info) (·.1 = 0) := by
  have hsize : (byteAt (packet.drop l2Len) 0 &&& 0xf).toNat <<< 2 =
      outerSize (packet.drop l2Len) := shiftLeft_eq _ 2
  unfold decapsulateGre
  rw [sliceFrom_ok hpacket, ok_bind, index_bind (by omega)]
  dsimp only
  rw [hsize, add_zero (outerSize (packet.drop l2Len))]
  refine ((u16At_exactly _ _).bind fun flags _ _ =>
    (u16LeAt_exactly _ _).bind_ok fun proto _ _ => ?_).congr ?_
  · simp only [decapsulatePlugin_none, ite_self]
    exact ⟨_, rfl, rfl⟩
  · omega

/-- The Ethernet header moved in front of the inner packet, with another type. -/
def relabelled (packet : Bytes) (l2Len size : Nat) (ethType : BitVec 16) : Bytes :=
  packet.take size ++ (packet.take (l2Len - 2) ++
    [ethType.extractLsb' 8 8, ethType.extractLsb' 0 8]) ++ packet.drop (size + l2Len)

theorem length_relabelled (hl2 : 2 ≤ l2Len) (h : size + l2Len ≤ packet.length)
    (ethType : BitVec 16) : (relabelled packet l2Len size ethType).length = packet.length := by
  unfold relabelled
  simp only [length_append, length_take, length_drop, length_cons, length_nil]
  omega

theorem copyFront_relabelled (hl2 : 2 ≤ l2Len) (h : size + l2Len ≤ packet.length)
    (ethType : BitVec 16) :
    (copyFront packet l2Len size >>= fun packet =>
      writeU16At packet (size + l2Len - 2) ethType) =
        .ok (relabelled packet l2Len size ethType) := by
  unfold copyFront
  rw [if_pos ⟨by omega, by omega⟩, ok_bind]
  have hlength : (packet.take size ++ packet.take l2Len ++ packet.drop (size + l2Len)).length =
      packet.length := by
    simp only [length_append, length_take, length_drop]
    omega
  have htake : (packet.take size ++ packet.take l2Len ++ packet.drop (size + l2Len)).take
      (size + l2Len - 2) = packet.take size ++ packet.take (l2Len - 2) := by
    have hfront : (packet.take size).length = size := length_take_of_le (by omega)
    have hplace : size + l2Len - 2 = (packet.take size).length + (l2Len - 2) := by omega
    rw [append_assoc, hplace, take_length_add_append,
      take_append_of_le_length (by rw [length_take]; omega), take_take,
      min_eq_left (by omega)]
  have hdrop : (packet.take size ++ packet.take l2Len ++ packet.drop (size + l2Len)).drop
      (size + l2Len) = packet.drop (size + l2Len) :=
    drop_left' (by simp only [length_append, length_take]; omega)
  have hplace : size + l2Len - 2 + 2 = size + l2Len := by omega
  unfold writeU16At
  rw [sliceFrom_ok (by rw [hlength]; omega), ok_bind,
    if_pos (by rw [length_drop, hlength]; omega), htake, hplace, hdrop]
  unfold relabelled
  rw [append_assoc (packet.take size)]

/-- The size of the outer header of IP in IP. -/
def underlaySize (underlayIpv6 : Bool) (l3Packet : Bytes) : Nat :=
  if underlayIpv6 then 40 else outerSize l3Packet

/-- The type of the inner packet of IP in IP. -/
def overlayType (overlayIpv6 : Bool) : BitVec 16 := if overlayIpv6 then 0x86dd else 0x0800

theorem recordIpipMac_ok (hpacket : 12 ≤ packet.length) :
    ∃ info', recordIpipMac packet info = .ok info' ∧ info'.tier = info.tier := by
  unfold recordIpipMac
  split
  · rw [decapsulateMac, u32At_ok (by omega), ok_bind, u32At_ok (by omega), ok_bind]
    exact ⟨_, rfl, rfl⟩
  · exact ⟨info, rfl, rfl⟩

theorem underlayIpHeaderSize_ok (hl3 : 44 ≤ l3Packet.length) :
    underlayIpHeaderSize underlayIpv6 l3Packet = .ok (underlaySize underlayIpv6 l3Packet) := by
  unfold underlayIpHeaderSize underlaySize
  cases underlayIpv6 with
  | true => rfl
  | false =>
    rw [if_neg (by decide), if_neg (by decide), index_bind (by omega),
      toNat_shiftLeft_two ((toNat_and_le _ 0xf).trans_lt (by decide))]
    rfl

theorem recordIpip_ok (hl3 : 44 ≤ l3Packet.length) :
    ∃ info', recordIpip underlayIpv6 l3Packet info = .ok info' ∧ info'.tier = info.tier := by
  unfold recordIpip
  split
  · cases underlayIpv6
    case' true => rw [if_pos rfl, decapsulateV6Addr]
    case' false => rw [if_neg (by decide), decapsulateAddr]
    all_goals
      rw [u32At_ok (by omega), ok_bind, u32At_ok (by omega), ok_bind, ok_bind]
      exact ⟨_, rfl, rfl⟩
  · exact ⟨info, rfl, rfl⟩

/-- **IP in IP.** -/
theorem decapsulateIpip_exactly (underlayIpv6 overlayIpv6 : Bool) (hl2 : 14 ≤ l2Len)
    (hpacket : l2Len ≤ packet.length) (hl3 : 44 ≤ (packet.drop l2Len).length) :
    Exactly (info.tier < 255 ∧
        underlaySize underlayIpv6 (packet.drop l2Len) ≤ (packet.drop l2Len).length)
      (decapsulateIpip packet l2Len underlayIpv6 overlayIpv6 info) fun r =>
        r.1 = (underlaySize underlayIpv6 (packet.drop l2Len) : Int) - l2Len ∧
        r.2.1 = relabelled packet l2Len (underlaySize underlayIpv6 (packet.drop l2Len))
          (overlayType overlayIpv6) := by
  obtain ⟨info₁, hmac, htier₁⟩ := @recordIpipMac_ok packet info (by omega)
  obtain ⟨info₂, hrecord, htier₂⟩ := @recordIpip_ok info₁ underlayIpv6 (packet.drop l2Len) hl3
  unfold decapsulateIpip
  rw [hmac, ok_bind, sliceFrom_ok hpacket, ok_bind, underlayIpHeaderSize_ok underlayIpv6 hl3,
    ok_bind, hrecord, ok_bind, ← htier₁, ← htier₂]
  refine (nextTier_exactly info₂).bind fun info₃ _ _ => ?_
  rw [length_drop]
  generalize underlaySize underlayIpv6 (packet.drop l2Len) = size
  rw [checkedSub_ok (by omega), ok_bind, Nat.add_sub_cancel_left]
  by_cases hfit : size ≤ packet.length - l2Len
  · have hmove := copyFront_relabelled (by omega) (by omega : size + l2Len ≤ packet.length)
      (overlayType overlayIpv6)
    obtain ⟨moved, hcopy, hwrite⟩ := bind_eq_ok hmove
    rw [hcopy, ok_bind, checkedSub_ok (by omega), ok_bind]
    change Exactly _ (writeU16At moved (size + l2Len - 2) (overlayType overlayIpv6) >>= _) _
    rw [hwrite, ok_bind]
    exact .pure hfit ⟨rfl, rfl⟩
  · rw [copyFront, if_neg (fun h => hfit h.2)]
    exact .fail hfit

end Ipip

/-! ### Frames -/

section Frames

variable {packet : Bytes} {l2Len : Nat} {info : TunnelInfo} {tunnelTypes : TunnelTypeBitmap}
  {c : Prop}

/-- What `decapsulate` needs of a packet. -/
structure Safe (packet : Bytes) (l2Len : Nat) (tunnelTypes : TunnelTypeBitmap)
    (info : TunnelInfo) : Prop where
  udp : byteAt (packet.drop l2Len) 9 = 17 →
    udpOffset packet l2Len tunnelTypes ≠ 0 → info.tier < 255
  gre : byteAt (packet.drop l2Len) 9 = 47 →
    outerSize (packet.drop l2Len) + 4 ≤ (packet.drop l2Len).length
  ipip : byteAt (packet.drop l2Len) 9 = 4 ∨ byteAt (packet.drop l2Len) 9 = 41 →
    tunnelTypes.has .ipip = true →
      info.tier < 255 ∧ outerSize (packet.drop l2Len) ≤ (packet.drop l2Len).length ∧
        l2Len ≤ outerSize (packet.drop l2Len)

/-- What `decapsulate_v6` needs of a packet. -/
structure SafeV6 (packet : Bytes) (l2Len : Nat) (tunnelTypes : TunnelTypeBitmap)
    (info : TunnelInfo) : Prop where
  udp : byteAt (packet.drop l2Len) 6 = 17 →
    udpV6Offset packet l2Len tunnelTypes ≠ 0 → info.tier < 255
  ipip : byteAt (packet.drop l2Len) 6 = 4 ∨ byteAt (packet.drop l2Len) 6 = 41 →
    tunnelTypes.has .ipip = true → info.tier < 255

/-- A packet with at least `least` bytes behind its Ethernet header is looked at. -/
def Looked (least : Nat) (packet : Bytes) (l2Len : Nat) (tunnelTypes : TunnelTypeBitmap)
    (info : TunnelInfo) : Prop :=
  tunnelTypes.isEmpty = false ∧ info.tier ≠ 2 ∧ least ≤ (packet.drop l2Len).length

theorem vxlanOffset_le {headers : Nat} {l3Packet : Bytes} (h : headers + 8 ≤ l3Packet.length) :
    vxlanOffset headers l3Packet ≤ l3Packet.length := by
  unfold vxlanOffset
  split <;> omega

theorem geneveOffset_le {least headers : Nat} {l3Packet : Bytes} (h : 28 ≤ headers) :
    geneveOffset least headers l3Packet ≤ l3Packet.length := by
  have hsize : geneveSize (l3Packet.drop headers) ≤ l3Packet.length - headers := by
    rw [← length_drop]
    unfold geneveSize
    dsimp only
    split <;> omega
  unfold geneveOffset
  split <;> omega

theorem udpOffset_le (hl3 : 44 ≤ (packet.drop l2Len).length) :
    udpOffset packet l2Len tunnelTypes ≤ (packet.drop l2Len).length := by
  have hvxlan : vxlanOffset 28 (packet.drop l2Len) ≤ (packet.drop l2Len).length :=
    vxlanOffset_le (by omega)
  have hgeneve : geneveOffset 50 28 (packet.drop l2Len) ≤ (packet.drop l2Len).length :=
    geneveOffset_le (by omega)
  unfold udpOffset
  dsimp only
  repeat' split
  all_goals omega

theorem udpV6Offset_le (hl3 : 64 ≤ (packet.drop l2Len).length) :
    udpV6Offset packet l2Len tunnelTypes ≤ (packet.drop l2Len).length := by
  have hvxlan : vxlanOffset 48 (packet.drop l2Len) ≤ (packet.drop l2Len).length :=
    vxlanOffset_le (by omega)
  have hgeneve : geneveOffset 70 48 (packet.drop l2Len) ≤ (packet.drop l2Len).length :=
    geneveOffset_le (by omega)
  unfold udpV6Offset
  dsimp only
  repeat' split
  all_goals omega

/-- The offset of a tunnel stays inside the packet. -/
def Inside (packet : Bytes) (l2Len : Nat) (r : Nat × Bytes × TunnelInfo) : Prop :=
  l2Len + r.1 ≤ packet.length ∧ r.2.1.length = packet.length

theorem unmoved_exactly {x : Exec (Nat × TunnelInfo)} {offset : Nat}
    (h : Exactly c x (·.1 = offset)) (hl2 : l2Len ≤ packet.length)
    (hoffset : offset ≤ (packet.drop l2Len).length) :
    Exactly c (unsigned (unmoved packet x)) (Inside packet l2Len) := by
  rw [length_drop] at hoffset
  unfold unsigned unmoved
  cases x with
  | error e => exact h
  | ok r =>
    rw [ok_bind, ok_bind, if_neg (by omega)]
    refine .pure h.1 ⟨?_, rfl⟩
    have hr : r.1 = offset := h.2
    omega

theorem unsigned_ipip_exactly (underlayIpv6 overlayIpv6 : Bool) (hl2 : 14 ≤ l2Len)
    (hpacket : l2Len ≤ packet.length) (hl3 : 44 ≤ (packet.drop l2Len).length) :
    Exactly (info.tier < 255 ∧
        underlaySize underlayIpv6 (packet.drop l2Len) ≤ (packet.drop l2Len).length ∧
        l2Len ≤ underlaySize underlayIpv6 (packet.drop l2Len))
      (unsigned (decapsulateIpip packet l2Len underlayIpv6 overlayIpv6 info))
      (Inside packet l2Len) := by
  have hipip : Exactly _ (decapsulateIpip packet l2Len underlayIpv6 overlayIpv6 info) _ :=
    decapsulateIpip_exactly underlayIpv6 overlayIpv6 hl2 hpacket hl3
  rw [length_drop] at hipip ⊢
  generalize underlaySize underlayIpv6 (packet.drop l2Len) = size at hipip ⊢
  refine Exactly.congr (hipip.bind fun r hsafe hr => ?_) and_assoc
  rw [hr.1]
  split_ifs
  · exact .fail (by omega)
  · refine .pure (by omega) ⟨?_, ?_⟩
    · omega
    · rw [hr.2, length_relabelled (by omega) (by omega)]

theorem looked_exactly {least : Nat} {x : Bytes → Exec (Int × Bytes × TunnelInfo)}
    (hpacket : l2Len ≤ packet.length)
    (hx : ¬ (packet.drop l2Len).length < least →
      Exactly c (unsigned (x (packet.drop l2Len))) (Inside packet l2Len)) :
    Exactly (Looked least packet l2Len tunnelTypes info → c)
      (unsigned (if tunnelTypes.isEmpty ∨ info.tier = 2 then .ok (0, packet, info)
        else sliceFrom packet l2Len >>= fun l3Packet =>
          if l3Packet.length < least then .ok (0, packet, info) else x l3Packet))
      (Inside packet l2Len) := by
  have hlooked : Looked least packet l2Len tunnelTypes info ↔
      ¬ (tunnelTypes.isEmpty = true ∨ info.tier = 2) ∧ ¬ (packet.drop l2Len).length < least := by
    unfold Looked
    rw [not_or, Bool.not_eq_true, not_lt, and_assoc]
  have hleft : Inside packet l2Len (0, packet, info) := ⟨hpacket, rfl⟩
  rw [sliceFrom_ok hpacket, ok_bind]
  split
  next hoff => exact .pure (fun h => absurd hoff (hlooked.mp h).1) hleft
  next hon =>
    split
    next hshort => exact .pure (fun h => absurd hshort (hlooked.mp h).2) hleft
    next hl3 => exact (hx hl3).congr (imp_iff_right (hlooked.mpr ⟨hon, hl3⟩)).symm

theorem inner_exactly (underlayIpv6 : Bool) (protocol : BitVec 8) (hl2 : 14 ≤ l2Len)
    (hpacket : l2Len ≤ packet.length) (hl3 : 44 ≤ (packet.drop l2Len).length) :
    Exactly (protocol = 4 ∨ protocol = 41 → tunnelTypes.has .ipip = true → info.tier < 255 ∧
        underlaySize underlayIpv6 (packet.drop l2Len) ≤ (packet.drop l2Len).length ∧
        l2Len ≤ underlaySize underlayIpv6 (packet.drop l2Len))
      (unsigned (if protocol = 4 ∧ tunnelTypes.has .ipip = true then
          decapsulateIpip packet l2Len underlayIpv6 false info
        else if protocol = 41 ∧ tunnelTypes.has .ipip = true then
          decapsulateIpip packet l2Len underlayIpv6 true info
        else .ok (0, packet, info))) (Inside packet l2Len) := by
  have hmoved := fun overlayIpv6 =>
    @unsigned_ipip_exactly packet l2Len info underlayIpv6 overlayIpv6 hl2 hpacket hl3
  split_ifs with hv4 hv6
  · exact (hmoved false).congr ⟨fun h _ _ => h, fun h => h (.inl hv4.1) hv4.2⟩
  · exact (hmoved true).congr ⟨fun h _ _ => h, fun h => h (.inr hv6.1) hv6.2⟩
  · refine .pure ?_ ⟨hpacket, rfl⟩
    rintro (hproto | hproto) htype
    · exact absurd ⟨hproto, htype⟩ hv4
    · exact absurd ⟨hproto, htype⟩ hv6

/-- **`decapsulate`** is safe in exactly these cases. -/
theorem decapsulate_exactly (hl2 : 14 ≤ l2Len) (hpacket : l2Len ≤ packet.length) :
    Exactly (Looked 44 packet l2Len tunnelTypes info → Safe packet l2Len tunnelTypes info)
      (decapsulate packet l2Len tunnelTypes info) (Inside packet l2Len) := by
  refine looked_exactly hpacket fun hl3 => ?_
  rw [not_lt] at hl3
  rw [index_bind (by omega)]
  by_cases hudp : byteAt (packet.drop l2Len) 9 = 17
  · rw [if_pos hudp]
    refine (unmoved_exactly (decapsulateUdp_exactly hl2 hpacket hl3) hpacket
      (udpOffset_le hl3)).congr ⟨fun h => ⟨fun _ => h, ?_, ?_⟩, fun h => h.udp hudp⟩
    all_goals
      rw [hudp]
      exact fun h => absurd h (by decide)
  rw [if_neg hudp]
  by_cases hgre : byteAt (packet.drop l2Len) 9 = 47
  · rw [if_pos hgre]
    refine (unmoved_exactly (decapsulateGre_exactly hpacket hl3) hpacket
      (zero_le _)).congr
        ⟨fun h => ⟨fun h' => absurd h' hudp, fun _ => h, ?_⟩, fun h => h.gre hgre⟩
    rw [hgre]
    exact fun h => absurd h (by decide)
  rw [if_neg hgre]
  exact (inner_exactly false _ hl2 hpacket hl3).congr
    ⟨fun h => ⟨fun h' => absurd h' hudp, fun h' => absurd h' hgre, h⟩, fun h => h.ipip⟩

/-- **`decapsulate_v6`** is safe in exactly these cases.  An Ethernet header is never longer than
the outer header of IP in IPv6. -/
theorem decapsulateV6_exactly (hl2 : 14 ≤ l2Len) (hl2' : l2Len ≤ 40)
    (hpacket : l2Len ≤ packet.length) :
    Exactly (Looked 64 packet l2Len tunnelTypes info → SafeV6 packet l2Len tunnelTypes info)
      (decapsulateV6 packet l2Len tunnelTypes info) (Inside packet l2Len) := by
  refine looked_exactly hpacket fun hl3 => ?_
  rw [not_lt] at hl3
  rw [index_bind (by omega)]
  by_cases hudp : byteAt (packet.drop l2Len) 6 = 17
  · rw [if_pos hudp]
    refine (unmoved_exactly (decapsulateV6Udp_exactly hl2 hpacket hl3) hpacket
      (udpV6Offset_le hl3)).congr ⟨fun h => ⟨fun _ => h, ?_⟩, fun h => h.udp hudp⟩
    rw [hudp]
    exact fun h => absurd h (by decide)
  rw [if_neg hudp]
  have hsize : underlaySize true (packet.drop l2Len) = 40 := rfl
  have hinner := @inner_exactly packet l2Len info tunnelTypes true (byteAt (packet.drop l2Len) 6)
    hl2 hpacket (by omega)
  rw [hsize, and_iff_left ⟨by omega, hl2'⟩] at hinner
  exact hinner.congr ⟨fun h => ⟨fun h' => absurd h' hudp, h⟩, fun h => h.ipip⟩

theorem getL2Info_ok (h : 14 ≤ packet.length) :
    ∃ l2, getL2Info packet = .ok l2 ∧ 14 ≤ l2.2 ∧ l2.2 ≤ 22 ∧ l2.2 ≤ packet.length := by
  unfold getL2Info
  rw [u16At_bind (by omega)]
  split
  next hvlan =>
    rw [u16At_bind (by omega), u16At_bind (by omega)]
    split
    next hqinq =>
      rw [u16At_bind (by omega), u16At_bind (by omega)]
      exact ⟨_, rfl, by dsimp only; omega⟩
    · exact ⟨_, rfl, by dsimp only; omega⟩
  · exact ⟨_, rfl, by dsimp only; omega⟩

theorem getL2Info_bounds {l2 : BitVec 16 × Nat} (h : getL2Info packet = .ok l2) :
    14 ≤ l2.2 ∧ l2.2 ≤ 22 ∧ l2.2 ≤ packet.length := by
  have hlength : 14 ≤ packet.length := by
    obtain ⟨ethType, hread, -⟩ := bind_eq_ok h
    exact ((u16At_exactly packet 12).of_ok hread).1
  obtain ⟨l2', hl2', hbounds⟩ := getL2Info_ok hlength
  rw [h] at hl2'
  cases hl2'
  exact hbounds

end Frames

/-! ### The dispatcher -/

section Loop

variable {tunnelTypes trim : TunnelTypeBitmap} {layer : Layer}

def LayerSafe (tunnelTypes : TunnelTypeBitmap) (layer : Layer) : Prop :=
  ∀ ethType l2Len, getL2Info layer.packet = .ok (ethType, l2Len) →
    (ethType = 0x0800 → Looked 44 layer.packet l2Len tunnelTypes layer.info →
      Safe layer.packet l2Len tunnelTypes layer.info) ∧
    (ethType = 0x86dd → Looked 64 layer.packet l2Len tunnelTypes layer.info →
      SafeV6 layer.packet l2Len tunnelTypes layer.info)

/-- **One layer.** -/
theorem decapsulateLayer_exactly (tunnelTypes : TunnelTypeBitmap) (layer : Layer) :
    Exactly (LayerSafe tunnelTypes layer) (decapsulateLayer tunnelTypes layer) fun result =>
      ∀ offset inner, result = .ok (offset, inner) →
        offset ≤ layer.packet.length ∧ inner.packet.length = layer.packet.length := by
  unfold decapsulateLayer
  by_cases hshort : layer.packet.length < 14
  · rw [if_pos hshort]
    refine .pure ?_ (fun offset inner h => by cases h)
    intro ethType l2Len h
    have := getL2Info_bounds h
    omega
  obtain ⟨⟨ethType, l2Len⟩, hl2, hle, hle', hpacket⟩ := getL2Info_ok (not_lt.mp hshort)
  have hsafe : LayerSafe tunnelTypes layer ↔
      (ethType = 0x0800 → Looked 44 layer.packet l2Len tunnelTypes layer.info →
        Safe layer.packet l2Len tunnelTypes layer.info) ∧
      (ethType = 0x86dd → Looked 64 layer.packet l2Len tunnelTypes layer.info →
        SafeV6 layer.packet l2Len tunnelTypes layer.info) := by
    unfold LayerSafe
    rw [hl2]
    exact ⟨fun h => h _ _ rfl, fun h ethType' l2Len' h' => by cases h'; exact h⟩
  rw [if_neg hshort, hl2, ok_bind]
  have hread : Exactly (LayerSafe tunnelTypes layer)
      (if ethType = 0x0800 then decapsulate layer.packet l2Len tunnelTypes layer.info
        else if ethType = 0x86dd then decapsulateV6 layer.packet l2Len tunnelTypes layer.info
        else .ok (0, layer.packet, layer.info)) (Inside layer.packet l2Len) := by
    rw [hsafe]
    by_cases hv4 : ethType = 0x0800
    · subst hv4
      rw [if_pos rfl]
      refine (decapsulate_exactly hle hpacket).congr ⟨fun h => ⟨fun _ => h, ?_⟩, fun h => h.1 rfl⟩
      exact fun h => absurd h (by decide)
    rw [if_neg hv4]
    by_cases hv6 : ethType = 0x86dd
    · subst hv6
      rw [if_pos rfl]
      refine (decapsulateV6_exactly hle (by omega) hpacket).congr
        ⟨fun h => ⟨fun h' => absurd h' hv4, fun _ => h⟩, fun h => h.2 rfl⟩
    · rw [if_neg hv6]
      exact .pure ⟨fun h => absurd h hv4, fun h => absurd h hv6⟩ ⟨hpacket, rfl⟩
  refine hread.bind_ok fun r _ hr => ⟨_, rfl, fun offset inner h => ?_⟩
  cases h
  refine ⟨?_, hr.2⟩
  split
  · exact zero_le _
  · exact hr.1

def LoopSafe (tunnelTypes trim : TunnelTypeBitmap) : Nat → Layer → Prop
  | 0, _ => True
  | n + 1, layer =>
    LayerSafe tunnelTypes layer ∧
      ∀ offset inner, decapsulateLayer tunnelTypes layer = .ok (.ok (offset, inner)) →
        inner.info.tunnelType ≠ .none →
          LoopSafe tunnelTypes trim n ⟨inner.packet.drop offset, trimmed trim inner.info⟩

/-- **The loop** never slices a packet beyond its end, and is safe if its layers are. -/
theorem decapLoop_exactly (tunnelTypes trim : TunnelTypeBitmap) (n decapLen : Nat) (layer : Layer)
    (h : decapLen ≤ layer.packet.length) :
    Exactly (LoopSafe tunnelTypes trim n ⟨layer.packet.drop decapLen, layer.info⟩)
      (decapLoop tunnelTypes trim n decapLen layer) fun _ => True := by
  induction n generalizing decapLen layer with
  | zero => exact .pure trivial trivial
  | succ n ih =>
    rw [decapLoop, sliceFrom_ok h, ok_bind, LoopSafe]
    have hlayer := decapsulateLayer_exactly tunnelTypes ⟨layer.packet.drop decapLen, layer.info⟩
    cases hresult : decapsulateLayer tunnelTypes ⟨layer.packet.drop decapLen, layer.info⟩ with
    | error e =>
      rw [hresult] at hlayer
      exact .fail fun hsafe => hlayer hsafe.1
    | ok result =>
      rw [hresult] at hlayer
      rw [ok_bind]
      cases result with
      | error e => exact .pure ⟨hlayer.1, fun offset inner h => by cases h⟩ trivial
      | ok r =>
        obtain ⟨hoffset, hlength⟩ := hlayer.2 r.1 r.2 rfl
        dsimp only
        by_cases hnone : r.2.info.tunnelType = .none
        · rw [if_pos hnone]
          refine .pure ⟨hlayer.1, fun offset inner h hsome => ?_⟩ trivial
          cases h
          exact absurd hnone hsome
        rw [if_neg hnone]
        -- the suffix that the next turn looks at is that of the inner packet
        have hdrop : (layer.packet.take decapLen ++ r.2.packet).drop (decapLen + r.1) =
            r.2.packet.drop r.1 := by
          rw [← drop_drop, drop_left' (length_take_of_le h)]
        have hnext := ih (decapLen + r.1)
          ⟨layer.packet.take decapLen ++ r.2.packet, trimmed trim r.2.info⟩
          (by simp only [length_append, length_take]; omega)
        rw [hdrop] at hnext
        refine hnext.congr ⟨fun hsafe => ⟨hlayer.1, fun offset inner h _ => ?_⟩,
          fun hsafe => hsafe.2 r.1 r.2 rfl hnone⟩
        cases h
        exact hsafe

/-- **Decapsulation.** For every packet with an Ethernet header, every bitmap of tunnel types and
every tunnel so far, `decapsulate` and `decapsulate_v6` return if and only if the packet, when
it is looked at, is safe; the dispatcher's loop returns, and slices the packet only inside, if
and only if the layers it comes to are. -/
theorem decapsulation_total_iff (packet : Bytes) (tunnelTypes trim : TunnelTypeBitmap)
    (info : TunnelInfo) :
    (∀ ethType l2Len, getL2Info packet = .ok (ethType, l2Len) →
      ((∃ r, decapsulate packet l2Len tunnelTypes info = .ok r) ↔
        (Looked 44 packet l2Len tunnelTypes info → Safe packet l2Len tunnelTypes info)) ∧
      ((∃ r, decapsulateV6 packet l2Len tunnelTypes info = .ok r) ↔
        (Looked 64 packet l2Len tunnelTypes info → SafeV6 packet l2Len tunnelTypes info))) ∧
    ((∃ r, decapTunnelWithErspan tunnelTypes trim ⟨packet, info⟩ = .ok r) ↔
      LoopSafe tunnelTypes trim 2 ⟨packet, info⟩) := by
  refine ⟨fun ethType l2Len hl2 => ?_, ?_⟩
  · obtain ⟨hle, hle', hpacket⟩ := getL2Info_bounds hl2
    exact ⟨(decapsulate_exactly hle hpacket).ok_iff,
      (decapsulateV6_exactly hle (by omega) hpacket).ok_iff⟩
  · exact (decapLoop_exactly tunnelTypes trim 2 0 ⟨packet, info⟩ (zero_le _)).ok_iff

/-- A frame with some VLAN tags and an IPv4 packet of 44 bytes, with a header of `words` words. -/
def ipv4Frame (tags : Bytes) (words proto : BitVec 8) : Bytes :=
  .replicate 12 0 ++ tags ++ [0x08, 0x00] ++
    [0x40 ||| words, 0, 0, 44, 0, 0, 0, 0, 64, proto] ++ .replicate 34 0

/-- A tunnel of IP in IP is found, and the frame inside it. -/
theorem decapsulation_total_ipip :
    getL2Info (ipv4Frame [] 5 4) = .ok (0x0800, 14) ∧
      ∃ r, decapsulate (ipv4Frame [] 5 4) 14 ⟨4⟩ {} = .ok r ∧ r.2.2.tunnelType = .ipip := by
  have hl2 : getL2Info (ipv4Frame [] 5 4) = .ok (0x0800, 14) := rfl
  have htotal := ((decapsulation_total_iff (ipv4Frame [] 5 4) ⟨4⟩ {} {}).1 _ _ hl2).1
  obtain ⟨r, hr⟩ := htotal.mpr fun _ => ⟨by decide +kernel, by decide +kernel, by decide +kernel⟩
  have hfound : delivers (decapsulate (ipv4Frame [] 5 4) 14 ⟨4⟩ {})
      (fun r => r.2.2.tunnelType == .ipip) = true := by decide +kernel
  rw [hr] at hfound
  exact ⟨hl2, r, hr, eq_of_beq hfound⟩

/-- GRE behind an outer header that is longer than the packet, and IP in IP behind two VLAN tags,
where the Ethernet header is longer than the outer header. -/
theorem decapsulation_panics :
    (∃ e, decapsulate (ipv4Frame [] 15 47) 14 ⟨8⟩ {} = .error e) ∧
      (∃ e, decapTunnelWithErspan ⟨8⟩ {} ⟨ipv4Frame [] 15 47, {}⟩ = .error e) ∧
      (∃ e, decapsulate (ipv4Frame [0x81, 0, 0, 1, 0x81, 0, 0, 2] 5 4) 22 ⟨4⟩ {} = .error e) ∧
      ∃ e, decapTunnelWithErspan ⟨4⟩ {}
        ⟨ipv4Frame [0x81, 0, 0, 1, 0x81, 0, 0, 2] 5 4, {}⟩ = .error e :=
  ⟨eq_error_of_panics (by decide +kernel), eq_error_of_panics (by decide +kernel),
    eq_error_of_panics (by decide +kernel), eq_error_of_panics (by decide +kernel)⟩

end Loop

end ZeroTrace.Decap
