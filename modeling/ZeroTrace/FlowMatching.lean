import ZeroTrace.FlowMap
import ZeroTrace.FlowNodeUpdates
import Mathlib.Data.Sym.Sym2

/-!
# Matching and filing

A packet can join a flow only if it is filed where the flow is.  The flow map
looks for the flow under the key of the packet, and `match_node` then decides
whether the packet belongs to it.  So whatever `match_node` accepts should have
the key of the packet that created the flow.

For IP and ARP it has: addresses and ports are sorted before they are packed, and
of the capture port only the low word stays, which the match compares.  For the
other Ethernet types the key has the whole capture port but for the NAT source,
while the match looks at the low word and the kind of port only.  Two packets
whose ports differ in the tunnel type, which the match ignores on purpose, are
therefore filed apart.

A node sets the direction of an IP packet before it compares the ends of the
tunnel and the hardware addresses, so a packet may be refused and yet be turned.
-/

namespace ZeroTrace.FlowGenerator

open BitVec FlowMapKey

/-! ### The key of a flow -/

theorem packSorted_comm {w : Nat} (n : Nat) (a b : BitVec w) :
    packSorted n a b = packSorted n b a := by
  unfold packSorted
  by_cases hle : b ≤ a
  · by_cases hge : a ≤ b
    · have heq : a = b := BitVec.le_antisymm hge hle
      rw [heq]
    · simp [hle, hge]
  · have hge : a ≤ b := BitVec.le_of_lt (BitVec.not_le.mp hle)
    simp [hle, hge]

theorem shiftLeft_eq_of_low {a b : BitVec 64} (h : a.setWidth 32 = b.setWidth 32) :
    a <<< 32 = b <<< 32 := by
  ext i hi
  have hbit := congrArg (getLsbD · (i - 32)) h
  grind

theorem or_and_not_eq_iff {w : Nat} (a b mask bits : BitVec w) :
    bits ||| (a &&& ~~~mask) = bits ||| (b &&& ~~~mask) ↔
      (a ^^^ b) &&& ~~~(mask ||| bits) = 0#w := by
  constructor
  · intro h
    ext i hi
    have hbit := congrArg (getLsbD · i) h
    simp
    grind
  · intro h
    ext i hi
    have hbit := congrArg (getLsbD · i) h
    simp
    grind

namespace TapPort

theorem low_eq_of_getTapMac {p q : TapPort} (h : p.getTapMac = q.getTapMac) : p.low = q.low := by
  have hmask : tapMacMask.setWidth 32 = allOnes 32 := by decide
  have hlow := congrArg (setWidth 32) h
  unfold getTapMac at hlow
  rw [setWidth_and, setWidth_and, hmask, and_allOnes, and_allOnes] at hlow
  exact hlow

theorem setWidth_ignoreNatSource (p : TapPort) : p.ignoreNatSource.setWidth 32 = p.low := by
  have hmask : (~~~natSourceMask).setWidth 32 = allOnes 32 := by decide
  unfold ignoreNatSource low
  rw [setWidth_and, hmask, and_allOnes]

end TapPort

namespace FlowMapKey

theorem foldIps_swap (src dst : IpAddr) :
    foldIps dst src = foldIps src dst >>= fun ips => .ok ips.swap := by
  cases src with
  | v4 s =>
    cases dst <;> rfl
  | v6 s =>
    cases dst <;> rfl

variable {a b : LookupKey}

theorem l3Hash_congr (h : s(a.srcIp, a.dstIp) = s(b.srcIp, b.dstIp)) : l3Hash a = l3Hash b := by
  unfold l3Hash
  rcases Sym2.eq_iff.mp h with ⟨hsrc, hdst⟩ | ⟨hsrc, hdst⟩
  · rw [hsrc, hdst]
  rw [hsrc, hdst, foldIps_swap]
  cases foldIps b.srcIp b.dstIp with
  | error e => rfl
  | ok ips => exact congrArg Except.ok (packSorted_comm 32 ips.2 ips.1)

theorem l4Hash_congr (h : s(a.srcPort, a.dstPort) = s(b.srcPort, b.dstPort)) :
    l4Hash a = l4Hash b := by
  unfold l4Hash
  rcases Sym2.eq_iff.mp h with ⟨hsrc, hdst⟩ | ⟨hsrc, hdst⟩
  · rw [hsrc, hdst]
  · rw [hsrc, hdst, packSorted_comm]

theorem macBits_congr (h : s(a.srcMac, a.dstMac) = s(b.srcMac, b.dstMac)) :
    macBits a = macBits b := by
  unfold macBits
  rcases Sym2.eq_iff.mp h with ⟨hsrc, hdst⟩ | ⟨hsrc, hdst⟩
  · rw [hsrc, hdst]
  · rw [hsrc, hdst, BitVec.xor_comm]

theorem tapBits_shiftLeft_congr {p q : MetaPacket}
    (htype : p.lookupKey.tapType = q.lookupKey.tapType) (hport : p.tapPort.low = q.tapPort.low) :
    tapBits p <<< 32 = tapBits q <<< 32 := by
  apply shiftLeft_eq_of_low
  unfold tapBits
  rw [setWidth_or, setWidth_or, TapPort.setWidth_ignoreNatSource,
    TapPort.setWidth_ignoreNatSource, htype, hport]

end FlowMapKey

/-! ### What a match compares -/

/-- The Ethernet types that are matched by address and port. -/
def LookupKey.isIp (lookupKey : LookupKey) : Prop :=
  lookupKey.ethType = .ipv4 ∨ lookupKey.ethType = .ipv6

/-- A flow and a packet agree in everything that the match compares; ends are
compared without their order. -/
structure Alike (flow : Flow) (q : MetaPacket) : Prop where
  tapMac : flow.flowKey.tapPort.getTapMac = q.tapPort.getTapMac
  tapType : flow.flowKey.tapType = q.lookupKey.tapType
  ethType : flow.ethType = q.lookupKey.ethType
  ips : s(flow.flowKey.ipSrc, flow.flowKey.ipDst) = s(q.lookupKey.srcIp, q.lookupKey.dstIp)
  ports : q.lookupKey.isIp →
    s(flow.flowKey.portSrc, flow.flowKey.portDst) = s(q.lookupKey.srcPort, q.lookupKey.dstPort)
  macs : ¬ q.lookupKey.isIp →
    s(flow.flowKey.macSrc, flow.flowKey.macDst) = s(q.lookupKey.srcMac, q.lookupKey.dstMac)

variable {q : MetaPacket} {n : FlowNode} {agentType : AgentType}

namespace FlowNode

theorem ends_of_matchOther {key : FlowKey} (h : (matchOther key q).1 = true) :
    s(key.ipSrc, key.ipDst) = s(q.lookupKey.srcIp, q.lookupKey.dstIp) ∧
      s(key.macSrc, key.macDst) = s(q.lookupKey.srcMac, q.lookupKey.dstMac) := by
  unfold matchOther at h
  grind

theorem ends_of_matchIp {ignoreL2End ignoreTorMac : Bool}
    (h : (n.matchIp q ignoreL2End ignoreTorMac agentType).1 = true) :
    s(n.flow.flowKey.ipSrc, n.flow.flowKey.ipDst) = s(q.lookupKey.srcIp, q.lookupKey.dstIp) ∧
      s(n.flow.flowKey.portSrc, n.flow.flowKey.portDst) =
        s(q.lookupKey.srcPort, q.lookupKey.dstPort) := by
  unfold matchIp at h
  grind

theorem alike_of_matchNode {ignoreL2End ignoreTorMac ignoreIdcVlan : Bool}
    (hq : q.signalSource ≠ .ebpf)
    (h : (n.matchNode q ignoreL2End ignoreTorMac ignoreIdcVlan agentType).1 = true) :
    Alike n.flow q := by
  unfold matchNode at h
  rw [if_neg hq] at h
  split at h
  · cases h
  rename_i hport
  split at h
  · cases h
  rename_i heth
  push Not at hport heth
  split at h
  · cases h
  split at h
  next hother =>
    obtain ⟨hips, hmacs⟩ := ends_of_matchOther h
    refine ⟨hport.1, hport.2, heth, hips, ?_, fun _ => hmacs⟩
    intro hip
    rw [heth] at hother
    rcases hip with hip | hip
    · exact absurd hip hother.1
    · exact absurd hip hother.2
  next hip =>
    obtain ⟨hips, hports⟩ := ends_of_matchIp h
    refine ⟨hport.1, hport.2, heth, hips, fun _ => hports, ?_⟩
    intro hnot
    unfold LookupKey.isIp at hnot
    grind

end FlowNode

/-! ### From the first packet on -/

/-- The nodes that a packet may have become, whatever was done to them since. -/
inductive Lineage (p : MetaPacket) : FlowNode → Prop
  | created {config : Config} {answers : Answers} {serial : Nat} {flowId : BitVec 64}
      {n : FlowNode} (h : FlowNode.new config p answers serial flowId = .ok n) : Lineage p n
  | updated {config : Config} {q : MetaPacket} {answers : Answers} {n n' : FlowNode}
      {closed : Bool} (hn : Lineage p n) (h : n.update config q answers = .ok (n', closed)) :
      Lineage p n'
  | reversed {n : FlowNode} (hn : Lineage p n) : Lineage p n.reverse
  | reported {config : Config} {n : FlowNode} (timestamp : Nat) (onPacket turns : Bool)
      (hn : Lineage p n) : Lineage p (n.updatedAftercare config timestamp onPacket turns).1
  | moved {n : FlowNode} (t : Nat) (hn : Lineage p n) : Lineage p { n with timestampKey := t }

theorem Lineage.same {p : MetaPacket} (h : Lineage p n) :
    ∃ serial flowId, SameFlow (FlowNode.ofPacket p serial flowId).flow n.flow := by
  induction h with
  | created h =>
    have hevolves : Evolves _ true [] [] _ _ := FlowNode.evolves_new h fun _ => rfl
    exact ⟨_, _, hevolves.same⟩
  | updated _ h ih =>
    obtain ⟨serial, flowId, hsame⟩ := ih
    have hhandles : FlowNode.Handles _ true _ _ _ := (FlowNode.handles_update h fun _ => rfl).1
    exact ⟨serial, flowId, hsame.trans hhandles.same⟩
  | @reversed n _ ih =>
    obtain ⟨serial, flowId, hsame⟩ := ih
    exact ⟨serial, flowId, hsame.trans (FlowNode.reported_turnIf n true).same⟩
  | @reported config n timestamp onPacket turns _ ih =>
    obtain ⟨serial, flowId, hsame⟩ := ih
    exact ⟨serial, flowId, hsame.trans
      (FlowNode.reported_updatedAftercare config n timestamp onPacket turns).same⟩
  | moved t _ ih => exact ih

theorem SameFlow.map_ends {α : Type*} {a b : Flow} (h : SameFlow a b)
    (f : MacAddr × IpAddr × BitVec 16 → α) :
    s(f a.flowKey.ends.1, f a.flowKey.ends.2) = s(f b.flowKey.ends.1, f b.flowKey.ends.2) := by
  rcases h.ends with hends | hends
  · rw [hends]
  · rw [hends]
    exact Sym2.eq_swap

theorem Alike.of_sameFlow {a b : Flow} (hsame : SameFlow a b) (h : Alike b q) : Alike a q where
  tapMac := hsame.tapMac.symm.trans h.tapMac
  tapType := hsame.tapType.symm.trans h.tapType
  ethType := hsame.ethType.symm.trans h.ethType
  ips := (hsame.map_ends fun e => e.2.1).trans h.ips
  ports := fun hip => (hsame.map_ends fun e => e.2.2).trans (h.ports hip)
  macs := fun hip => (hsame.map_ends fun e => e.1).trans (h.macs hip)

/-! ### The bucket of a packet -/

/-- The capture ports agree in what a key has of them.  IP and ARP keys have no
more than the low word; the other keys have all but the NAT source and the bits
that the capture network covers. -/
def PortsAgree (p q : MetaPacket) : Prop :=
  q.lookupKey.isIp ∨ q.lookupKey.ethType = .arp ∨
    (p.tapPort.bits ^^^ q.tapPort.bits) &&&
      ~~~(TapPort.natSourceMask ||| q.lookupKey.tapType.toU16.setWidth 64 <<< 24) = 0#64

/-- Two captured packets that are alike have one key exactly when their capture
ports agree. -/
theorem Alike.new_eq_iff {p q : MetaPacket} {serial : Nat} {flowId : BitVec 64}
    (hp : p.signalSource ≠ .ebpf) (hq : q.signalSource ≠ .ebpf)
    (h : Alike (FlowNode.ofPacket p serial flowId).flow q) : new q = new p ↔ PortsAgree p q := by
  have heth : p.lookupKey.ethType = q.lookupKey.ethType := h.ethType
  have htype : p.lookupKey.tapType = q.lookupKey.tapType := h.tapType
  have hl3 := l3Hash_congr (a := p.lookupKey) h.ips
  have hshift := tapBits_shiftLeft_congr htype (TapPort.low_eq_of_getTapMac h.tapMac)
  have hpe : ¬ p.tapPort.isFrom TapPort.fromEbpf = true := fun he => hp (p.fromEbpf.mpr he)
  have hqe : ¬ q.tapPort.isFrom TapPort.fromEbpf = true := fun he => hq (q.fromEbpf.mpr he)
  unfold new
  rw [if_neg hpe, if_neg hqe, heth]
  by_cases hip : q.lookupKey.ethType = .ipv4 ∨ q.lookupKey.ethType = .ipv6
  · have hl4 := l4Hash_congr (a := p.lookupKey) (h.ports hip)
    rw [if_pos hip, if_pos hip, hl3, hshift, hl4]
    exact ⟨fun _ => .inl hip, fun _ => rfl⟩
  have hmac := macBits_congr (a := p.lookupKey) (h.macs hip)
  rw [if_neg hip, if_neg hip]
  by_cases harp : q.lookupKey.ethType = .arp
  · rw [if_pos harp, if_pos harp, hl3, hshift, hmac]
    exact ⟨fun _ => .inr (.inl harp), fun _ => rfl⟩
  -- The capture port stands in the key as it is.
  rw [if_neg harp, if_neg harp, hmac]
  unfold PortsAgree LookupKey.isIp
  simp only [hip, harp, false_or, Except.ok.injEq, mk.injEq, and_true]
  rw [eq_comm, ← or_and_not_eq_iff, tapBits, tapBits, htype]
  rfl

/-- **Matching and filing.**  A node that came from a captured packet accepts a
packet.  A captured packet is filed where the flow is exactly when the capture
ports agree; eBPF data are, exactly when the flow happens to be filed under its
own number. -/
theorem match_same_bucket_iff {p q : MetaPacket} {n : FlowNode}
    {ignoreL2End ignoreTorMac ignoreIdcVlan : Bool} {agentType : AgentType}
    (hp : p.signalSource ≠ .ebpf) (hn : Lineage p n)
    (hq : (n.matchNode q ignoreL2End ignoreTorMac ignoreIdcVlan agentType).1 = true) :
    new q = new p ↔
      (q.signalSource = .ebpf ∧ new p = .ok ⟨0, n.flow.flowId⟩) ∨
        (q.signalSource ≠ .ebpf ∧ PortsAgree p q) := by
  by_cases hsource : q.signalSource = .ebpf
  · have hid : n.flow.flowId = q.generateEbpfFlowId := by
      unfold FlowNode.matchNode FlowNode.matchEbpf at hq
      grind
    have hkey : new q = .ok ⟨0, n.flow.flowId⟩ := by
      unfold new
      rw [if_pos (q.fromEbpf.mp hsource), hid]
    rw [hkey]
    simp [hsource, eq_comm]
  · obtain ⟨serial, flowId, hsame⟩ := hn.same
    have halike := (FlowNode.alike_of_matchNode hsource hq).of_sameFlow hsame
    rw [halike.new_eq_iff hp hsource]
    simp [hsource]

/-- A frame that was captured without a tunnel. -/
def plainFrame : MetaPacket := { tapPort := ⟨0x11223344⟩ }

def natFrame : MetaPacket := { tapPort := ⟨0x1011223344⟩ }

def vxlanFrame : MetaPacket := { tapPort := ⟨0x111223344⟩ }

def plainNode : FlowNode := FlowNode.newOtherNode {} plainFrame {} 0 1

theorem lineage_plainNode : Lineage plainFrame plainNode := by
  have h : FlowNode.new {} plainFrame {} 0 1 = .ok plainNode := rfl
  exact .created h

/-- A frame with a NAT source is accepted and filed where the plain one is. -/
theorem match_same_bucket_nat :
    (plainNode.matchNode natFrame true true true .ttProcess).1 = true ∧
      new natFrame = new plainFrame := by
  have haccepted : (plainNode.matchNode natFrame true true true .ttProcess).1 = true := by decide
  have hagree : PortsAgree plainFrame natFrame := .inr (.inr (by decide))
  exact ⟨haccepted, (match_same_bucket_iff (by decide) lineage_plainNode haccepted).mpr
    (.inr ⟨by decide, hagree⟩)⟩

/-- The frame from the tunnel is accepted by the node of the plain frame, but is
filed elsewhere. -/
theorem match_other_bucket_vxlan :
    plainFrame.signalSource ≠ .ebpf ∧ Lineage plainFrame plainNode ∧
      (plainNode.matchNode vxlanFrame true true true .ttProcess).1 = true ∧
      new vxlanFrame ≠ new plainFrame :=
  ⟨by decide, lineage_plainNode, by decide, by decide⟩

/-! ### Packets that are refused -/

def FlowNode.asked (config : Config) (packet : MetaPacket) (n : FlowNode) : Bool × MetaPacket :=
  n.matchNode packet config.ignoreL2End config.ignoreTorMac config.ignoreIdcVlan config.agentType

/-- The direction in which a flow has the addresses and ports of a packet. -/
def FlowKey.order (key : FlowKey) (packet : LookupKey) : Option PacketDirection :=
  if key.ipSrc = packet.srcIp ∧ key.ipDst = packet.dstIp ∧ key.portSrc = packet.srcPort ∧
      key.portDst = packet.dstPort then some .clientToServer
  else if key.ipSrc = packet.dstIp ∧ key.ipDst = packet.srcIp ∧ key.portSrc = packet.dstPort ∧
      key.portDst = packet.srcPort then some .serverToClient
  else none

/-- A node turns an IP packet that it may refuse for its ends: what is compared before the
addresses agrees, and the flow has the addresses and ports in the other direction. -/
structure FlowNode.Turns (config : Config) (packet : MetaPacket) (n : FlowNode) : Prop where
  captured : packet.signalSource ≠ .ebpf
  tapMac : n.flow.flowKey.tapPort.getTapMac = packet.tapPort.getTapMac
  tapType : n.flow.flowKey.tapType = packet.lookupKey.tapType
  ethType : n.flow.ethType = packet.lookupKey.ethType
  vlan : n.flow.vlan = packet.vlan ∨ packet.lookupKey.tapType = .cloud ∨ config.ignoreIdcVlan = true
  ip : n.flow.ethType = .ipv4 ∨ n.flow.ethType = .ipv6
  proto : n.flow.flowKey.proto = packet.lookupKey.proto
  tunnel : n.flow.tunnelType = (packet.tunnel.map TunnelInfo.tunnelType).getD .none ∨
    config.agentType.isHyperV = true ∨ config.agentType.isPod = true
  turned : ∃ d, n.flow.flowKey.order packet.lookupKey = some d ∧ d ≠ packet.lookupKey.direction

theorem MetaPacket.withDirection_eq_iff (packet : MetaPacket) (d : PacketDirection) :
    packet.withDirection d = packet ↔ d = packet.lookupKey.direction := by
  constructor
  · intro h
    exact congrArg (·.lookupKey.direction) h
  · rintro rfl
    rfl

theorem FlowNode.asked_eq_iff {config : Config} {packet : MetaPacket}
    (h : (n.asked config packet).1 = false) :
    (n.asked config packet).2 = packet ↔ ¬ n.Turns config packet := by
  have hset := packet.withDirection_eq_iff
  unfold asked matchNode matchEbpf matchOther matchIp at *
  constructor
  · rintro heq ⟨hcaptured, htapMac, htapType, hethType, hvlan, hip, hproto, htunnel, d, horder, hd⟩
    unfold FlowKey.order at horder
    grind
  intro hnot
  by_contra hne
  apply hnot
  constructor
  case turned =>
    cases horder : n.flow.flowKey.order packet.lookupKey with
    | none => grind [FlowKey.order]
    | some d =>
      refine ⟨d, rfl, ?_⟩
      grind [FlowKey.order]
  all_goals grind

/-- **Refused packets.**  The nodes that refuse a packet leave it alone if and only if none of
them turns it.  The packet then starts a flow as it came, or is given to the first node that
accepts it with what that node alone makes of it. -/
theorem refusals_keep_packet_iff (config : Config) (nodes : List FlowNode) (packet : MetaPacket) :
    ((∀ n ∈ nodes, (n.asked config packet).1 = false → (n.asked config packet).2 = packet) ↔
      ∀ n ∈ nodes, (n.asked config packet).1 = false → ¬ n.Turns config packet) ∧
    ((∀ n ∈ nodes, (n.asked config packet).1 = false → ¬ n.Turns config packet) →
      match FlowMap.position config nodes packet with
      | (none, p) => p = packet
      | (some i, p) => ∃ n, nodes[i]? = some n ∧ n.asked config packet = (true, p)) := by
  refine ⟨forall₂_congr fun n _ => imp_congr_right fun h => FlowNode.asked_eq_iff h, fun h => ?_⟩
  induction nodes with
  | nil => rfl
  | cons n nodes ih =>
    obtain ⟨hn, hnodes⟩ := List.forall_mem_cons.mp h
    have hrest := ih hnodes
    have heq : FlowMap.position config (n :: nodes) packet =
        if (n.asked config packet).1 then (some 0, (n.asked config packet).2)
        else (FlowMap.position config nodes (n.asked config packet).2).map (.map (· + 1)) id := rfl
    cases hasked : (n.asked config packet).1 with
    | true =>
      rw [heq, if_pos hasked]
      exact ⟨n, rfl, Prod.ext hasked rfl⟩
    | false =>
      rw [heq, if_neg (by rw [hasked]; decide), (FlowNode.asked_eq_iff hasked).mpr (hn hasked)]
      generalize FlowMap.position config nodes packet = found at hrest
      obtain ⟨_ | i, p⟩ := found
      · exact hrest
      · exact hrest

/-- A packet between the ends of a flow, of another host. -/
def stranger : MetaPacket := { lookupKey := { ethType := .ipv4, tapType := .cloud, dstPort := 1 } }

def portNode : FlowNode :=
  .ofPacket { lookupKey :=
    { stranger.lookupKey with srcPort := 1, dstPort := 0, srcMac := ⟨.replicate 6 1⟩ } } 0 1

/-- The node refuses the packet, which then starts a flow as if it were an answer. -/
theorem refused_packet_turned :
    FlowMap.position {} [portNode] stranger = (none, stranger.withDirection .serverToClient) ∧
      stranger.lookupKey.direction = .clientToServer := by
  decide

end ZeroTrace.FlowGenerator
