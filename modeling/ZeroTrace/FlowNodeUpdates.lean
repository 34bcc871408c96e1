import Mathlib.Algebra.Ring.Int.Defs
import ZeroTrace.FlowNode
import ZeroTrace.RunInvariants

/-!
# What an update does to a node

However a flow is updated, three things can be said about its node.  The flow
stays the same one: its number, its source and its Ethernet type do not change,
and neither do its two ends, except that they may change places.  The counts of
both directions together grow by the packet.  And the timeout is left alone or
set to one that the configuration has.

`Evolves` puts this together.  It is proved for every small step, and by
transitivity for the functions that handle a packet.
-/

namespace ZeroTrace.FlowGenerator

open RustExec FlowTimeout List

/-- The two ends of a flow: hardware address, IP address and port. -/
def FlowKey.ends (key : FlowKey) :
    (MacAddr × IpAddr × BitVec 16) × (MacAddr × IpAddr × BitVec 16) :=
  ((key.macSrc, key.ipSrc, key.portSrc), (key.macDst, key.ipDst, key.portDst))

structure SameFlow (a b : Flow) : Prop where
  flowId : b.flowId = a.flowId
  serial : b.serial = a.serial
  signalSource : b.signalSource = a.signalSource
  ethType : b.ethType = a.ethType
  tapType : b.flowKey.tapType = a.flowKey.tapType
  tapMac : b.flowKey.tapPort.getTapMac = a.flowKey.tapPort.getTapMac
  proto : b.flowKey.proto = a.flowKey.proto
  ends : b.flowKey.ends = a.flowKey.ends ∨ b.flowKey.ends = a.flowKey.ends.swap

namespace SameFlow

theorem refl (a : Flow) : SameFlow a a := ⟨rfl, rfl, rfl, rfl, rfl, rfl, rfl, .inl rfl⟩

theorem trans {a b c : Flow} (h : SameFlow a b) (h' : SameFlow b c) : SameFlow a c where
  flowId := h'.flowId.trans h.flowId
  serial := h'.serial.trans h.serial
  signalSource := h'.signalSource.trans h.signalSource
  ethType := h'.ethType.trans h.ethType
  tapType := h'.tapType.trans h.tapType
  tapMac := h'.tapMac.trans h.tapMac
  proto := h'.proto.trans h.proto
  ends := by
    rcases h'.ends with h₂ | h₂
    · rcases h.ends with h₁ | h₁
      · exact .inl (h₂.trans h₁)
      · exact .inr (h₂.trans h₁)
    · rcases h.ends with h₁ | h₁
      · exact .inr (by rw [h₂, h₁])
      · exact .inl (by rw [h₂, h₁, Prod.swap_swap])

end SameFlow

/-- A count of a peer that grows with every packet. -/
structure Metric where
  peer : FlowMetricsPeer → Nat
  amount : MetaPacket → Nat
  zero : peer {} = 0 := by rfl
  add : ∀ p packet, peer (p.add packet) = peer p + amount packet := by intro _ _; rfl
  l2End : ∀ p b, peer { p with isL2End := b } = peer p := by intro _ _; rfl

def Flow.sum (flow : Flow) (μ : Metric) : Nat := μ.peer flow.peerSrc + μ.peer flow.peerDst

/-- The timeouts that a flow can get; two of them only from eBPF data. -/
def Config.timeouts (config : Config) (ebpf : Bool) : List Nat :=
  config.flowTimeout.values ++
    if ebpf then [config.l7LogSessionAggrMaxTimeout, defaultSocketCloseTimeout] else []

/-- What changes from a node to a later one, when packets of the given times
have been noticed and the given packets have been counted. -/
structure Evolves (config : Config) (ebpf : Bool) (times : List Nat) (packets : List MetaPacket)
    (a b : FlowNode) : Prop where
  same : SameFlow a.flow b.flow
  key : b.timestampKey = a.timestampKey
  recent : b.recentTime = times.foldl max a.recentTime
  timeout : b.timeout = a.timeout ∨ b.timeout ∈ config.timeouts ebpf
  sums : ∀ μ : Metric, b.flow.sum μ = a.flow.sum μ + (packets.map μ.amount).sum

namespace Evolves

variable {config : Config} {ebpf : Bool} {ts us : List Nat} {ps qs : List MetaPacket}
  {a b c : FlowNode}

theorem refl (a : FlowNode) : Evolves config ebpf [] [] a a :=
  ⟨.refl _, rfl, rfl, .inl rfl, fun _ => rfl⟩

theorem trans (h : Evolves config ebpf ts ps a b) (h' : Evolves config ebpf us qs b c) :
    Evolves config ebpf (ts ++ us) (ps ++ qs) a c where
  same := h.same.trans h'.same
  key := h'.key.trans h.key
  recent := by rw [h'.recent, h.recent, foldl_append]
  timeout := by
    rcases h'.timeout with ht | ht
    · rw [ht]
      exact h.timeout
    · exact .inr ht
  sums := by
    intro μ
    rw [h'.sums μ, h.sums μ, map_append, sum_append, Nat.add_assoc]

theorem andThen (h : Evolves config ebpf ts ps a b) (h' : Evolves config ebpf [] [] b c) :
    Evolves config ebpf ts ps a c := by
  have htrans := h.trans h'
  rwa [append_nil, append_nil] at htrans

theorem setTimeout (a : FlowNode) {τ : Nat} (h : τ ∈ config.timeouts ebpf) (state : FlowState)
    (residual : Int) :
    Evolves config ebpf [] [] a
      { a with timeout := τ, flowState := state, residualRequest := residual } :=
  ⟨.refl _, rfl, rfl, .inr h, fun _ => rfl⟩

end Evolves

theorem mem_timeouts {config : Config} {τ : Nat} (ebpf : Bool) (h : τ ∈ config.flowTimeout.values) :
    τ ∈ config.timeouts ebpf :=
  mem_append_left _ h

theorem tapMacMask_and_natSource (w : BitVec 8) :
    w.setWidth 64 <<< 36 &&& TapPort.tapMacMask = 0#64 := by
  revert w
  decide +kernel

theorem TapPort.getTapMac_setNatSource (port : TapPort) (w : BitVec 8) :
    (port.setNatSource w).getTapMac = port.getTapMac := by
  have hmask : ~~~natSourceMask &&& tapMacMask = tapMacMask := by decide
  unfold getTapMac setNatSource
  rw [BitVec.and_or_distrib_right, BitVec.and_assoc, hmask, tapMacMask_and_natSource,
    BitVec.or_zero]

namespace FlowNode

variable {config : Config} {ebpf : Bool}

/-! ### The small steps -/

variable (node : FlowNode) (natSource : BitVec 8)

theorem evolves_turnIf (turns : Bool) : Evolves config ebpf [] [] node (node.turnIf turns) := by
  cases turns with
  | false => exact .refl node
  | true =>
    exact ⟨⟨rfl, rfl, rfl, rfl, rfl, rfl, rfl, .inr rfl⟩, rfl, rfl, .inl rfl,
      fun _ => Nat.add_comm _ _⟩

theorem evolves_setL2Ends (l2Ends : Option (Bool × Bool)) :
    Evolves config ebpf [] [] node (node.setL2Ends l2Ends) := by
  cases l2Ends with
  | none => exact .refl node
  | some ends =>
    refine ⟨⟨rfl, rfl, rfl, rfl, rfl, rfl, rfl, .inl rfl⟩, rfl, rfl, .inl rfl, ?_⟩
    intro μ
    simp [setL2Ends, Flow.sum, μ.l2End]

theorem evolves_setNatSource : Evolves config ebpf [] [] node (node.setNatSource natSource) :=
  ⟨⟨rfl, rfl, rfl, rfl, rfl, TapPort.getTapMac_setNatSource _ _, rfl, .inl rfl⟩, rfl, rfl,
    .inl rfl, fun _ => rfl⟩

theorem evolves_updateNatInfo : Evolves config ebpf [] [] node (node.updateNatInfo natSource) := by
  unfold updateNatInfo
  split
  · exact evolves_setNatSource node natSource
  · exact .refl node

theorem evolves_noticeTime (timestamp : Nat) :
    Evolves config ebpf [timestamp] [] node (node.noticeTime timestamp) := by
  refine ⟨⟨rfl, rfl, rfl, rfl, rfl, rfl, rfl, .inl rfl⟩, rfl, ?_, .inl rfl, fun _ => rfl⟩
  simp only [noticeTime, foldl_cons, foldl_nil]
  split <;> omega

theorem evolves_countPacket (packet : MetaPacket) :
    Evolves config ebpf [] [packet] node (node.countPacket packet) := by
  cases hd : packet.lookupKey.direction with
  | clientToServer | serverToClient =>
    refine ⟨?_, rfl, rfl, .inl rfl, ?_⟩
    · constructor <;> simp [countPacket, Flow.updatePeer, hd]
    · intro μ
      simp [countPacket, Flow.updatePeer, Flow.sum, hd, μ.add]
      omega

theorem evolves_collectMetric (packet : MetaPacket) (answers : Answers) :
    Evolves config ebpf [] [] node (node.collectMetric config packet answers).1 := by
  unfold collectMetric
  split
  · exact evolves_turnIf node answers.turnsParsed
  · exact .refl node

theorem evolves_updateFlowStateMachine (flags : BitVec 8) (direction : PacketDirection) :
    Evolves config ebpf [] [] node (node.updateFlowStateMachine config flags direction).1 := by
  apply Evolves.setTimeout
  apply mem_timeouts ebpf
  split
  · simp [values]
  · exact (StateMachine.valueFor_value _ _ _ _).1

theorem evolves_updateL4Direction {node node' : FlowNode} {packet packet' : MetaPacket}
    {answers : Answers} (h : node.updateL4Direction packet answers = .ok (node', packet')) :
    Evolves config ebpf [] [] node node' := by
  have hturn : node' = node.turnIf answers.turnsPacket := by
    unfold updateL4Direction at h
    unfold turnIf
    grind
  rw [hturn]
  exact evolves_turnIf node answers.turnsPacket

/-! ### Handling a packet -/

variable {node} {node' : FlowNode} {packet : MetaPacket} {answers : Answers}
  {closed : Bool}

/-- What a packet does to a node: it is noticed and, unless it is eBPF data or
the end of a socket, counted. -/
structure Handles (config : Config) (ebpf : Bool) (packet : MetaPacket) (a b : FlowNode) :
    Prop where
  evolves : ∃ times packets, Evolves config ebpf times packets a b ∧
    (times = [packet.lookupKey.timestamp] ∨ times = [] ∧ packet.isSocketClosed = true) ∧
    (packet.signalSource ≠ .ebpf → a.flow.signalSource ≠ .ebpf → packets = [packet])

theorem Handles.andThen {b c : FlowNode} (h : Handles config ebpf packet node b)
    (h' : Evolves config ebpf [] [] b c) : Handles config ebpf packet node c := by
  obtain ⟨times, packets, hevolves, hrest⟩ := h.evolves
  exact ⟨times, packets, hevolves.andThen h', hrest⟩

theorem Handles.same (h : Handles config ebpf packet node node') :
    SameFlow node.flow node'.flow := by
  obtain ⟨times, packets, hevolves, -⟩ := h.evolves
  exact hevolves.same

theorem handles_updateFlow (config : Config) (ebpf : Bool) (node : FlowNode)
    (packet : MetaPacket) (answers : Answers) :
    Handles config ebpf packet node (node.updateFlow packet answers) := by
  have hnoticed := ((@evolves_noticeTime config ebpf node packet.lookupKey.timestamp).andThen
    (evolves_setL2Ends _ answers.l2Ends)).andThen
      (evolves_updateNatInfo _ answers.natSource)
  unfold updateFlow
  set noticed := ((node.noticeTime packet.lookupKey.timestamp).setL2Ends
    answers.l2Ends).updateNatInfo answers.natSource
  by_cases hebpf : noticed.flow.signalSource = .ebpf
  · simp only [hebpf, if_true]
    refine ⟨_, [], hnoticed, .inl rfl, ?_⟩
    intro _ hnode
    rw [hnoticed.same.signalSource] at hebpf
    exact absurd hebpf hnode
  · simp only [hebpf, if_false]
    exact ⟨_, [packet], hnoticed.trans (evolves_countPacket noticed packet), .inl rfl,
      fun _ _ => rfl⟩

theorem evolves_settleEbpf {node : FlowNode} {direction : PacketDirection} {count : Int}
    (h : node.flow.signalSource = .ebpf → ebpf = true) :
    Evolves config ebpf [] [] node (node.settleEbpf config direction count) := by
  unfold settleEbpf
  split
  next hcount =>
    apply Evolves.setTimeout
    split
    · exact mem_timeouts ebpf (by simp [values])
    · simp [Config.timeouts, h hcount.1]
  · exact .refl node

variable {packet' : MetaPacket}

theorem evolves_correctDirection {flags : BitVec 8}
    (h : node.correctDirection packet flags answers = .ok (node', packet')) :
    Evolves config ebpf [] [] node node' := by
  unfold correctDirection at h
  split at h
  · exact evolves_updateL4Direction h
  · cases h
    exact .refl node

theorem evolves_enterState (config : Config) (ebpf : Bool) (node : FlowNode) (flags : BitVec 8)
    (direction : PacketDirection) :
    Evolves config ebpf [] [] node (node.enterState config flags direction).1 ∧
      (node.enterState config flags direction).2 = false := by
  unfold enterState
  split
  · exact ⟨.setTimeout node (mem_timeouts ebpf (by simp [values])) _ _, rfl⟩
  · exact ⟨evolves_updateFlowStateMachine node flags direction,
      (StateMachine.valueFor_value _ _ _ _).2⟩

theorem handles_updateTcpFlow (ebpf : Bool)
    (h : node.updateTcpFlow config packet answers = .ok (node', packet', closed)) :
    Handles config ebpf packet node node' ∧ closed = false := by
  have hflow := handles_updateFlow config ebpf node packet answers
  obtain ⟨flags, -, h⟩ := bind_eq_ok h
  dsimp only at h
  split at h
  · cases h
    exact ⟨hflow, rfl⟩
  obtain ⟨r, hcorrect, h⟩ := bind_eq_ok h
  cases h
  obtain ⟨hstate, hclosed⟩ := evolves_enterState config ebpf r.1 flags packet.lookupKey.direction
  exact ⟨(hflow.andThen (evolves_correctDirection hcorrect)).andThen hstate, hclosed⟩

theorem evolves_relax {τ : Nat} (h : τ ∈ config.flowTimeout.values) :
    Evolves config ebpf [] [] node (node.relax τ) := by
  unfold relax
  split
  · exact .setTimeout node (mem_timeouts ebpf h) _ _
  · exact .refl node

/-- **One packet.**  However a packet is handled, its node evolves by it, and no
flow is closed. -/
theorem handles_update (h : node.update config packet answers = .ok (node', closed))
    (hebpf : node.flow.signalSource = .ebpf ∨ packet.signalSource = .ebpf → ebpf = true) :
    Handles config ebpf packet node node' ∧ closed = false := by
  have hflow := handles_updateFlow config ebpf node packet answers
  unfold update at h
  split at h
  · unfold updateTcpNode at h
    split at h
    next hsocket =>
      cases h
      have hsource := packet.closedByEbpf hsocket
      refine ⟨⟨[], [], .setTimeout node ?_ _ _, .inr ⟨rfl, hsocket⟩, ?_⟩, rfl⟩
      · simp [Config.timeouts, hebpf (.inr hsource)]
      · intro hpacket
        exact absurd hsource hpacket
    · obtain ⟨⟨updated, packet', closed'⟩, htcp, h⟩ := bind_eq_ok h
      cases h
      obtain ⟨hupdated, hclosed⟩ := handles_updateTcpFlow ebpf htcp
      have hmetric := hupdated.andThen (evolves_collectMetric updated packet' answers)
      refine ⟨hmetric.andThen (evolves_settleEbpf ?_), hclosed⟩
      intro hsource
      rw [hmetric.same.signalSource] at hsource
      exact hebpf (.inl hsource)
  · split at h
    · have hclosing : config.flowTimeout.closing ∈ config.flowTimeout.values := by
        simp [values]
      have hrelaxed := (hflow.andThen (evolves_relax hclosing)).andThen
        (evolves_collectMetric _ packet answers)
      unfold updateUdpNode at h
      split at h
      · obtain ⟨s, hturn, h⟩ := bind_eq_ok h
        cases h
        exact ⟨hrelaxed.andThen (evolves_updateL4Direction hturn), rfl⟩
      · cases h
        exact ⟨hrelaxed, rfl⟩
    · cases h
      exact ⟨(hflow.andThen (evolves_relax (by simp [values]))).andThen
        (evolves_collectMetric _ packet answers), rfl⟩

/-! ### The first packet -/

theorem evolves_initFlow (config : Config) (ebpf : Bool) (packet : MetaPacket)
    (answers : Answers) (serial : Nat) (flowId : BitVec 64) :
    Evolves config ebpf [] [] (ofPacket packet serial flowId)
      (initFlow packet answers serial flowId) := by
  have hfound := (@evolves_setL2Ends config ebpf (ofPacket packet serial flowId)
    answers.l2Ends).andThen (evolves_setNatSource _ answers.natSource)
  unfold initFlow
  split
  · exact hfound.andThen (evolves_turnIf _ answers.turnsPacket)
  · split
    next icmpType _ => exact hfound.andThen (evolves_turnIf _ (icmpType == 0))
    · exact hfound

theorem evolves_openTcp (ebpf : Bool)
    (h : node.openTcp config packet answers = .ok (node', packet')) :
    Evolves config ebpf [] [] node node' := by
  obtain ⟨r, hturn, h⟩ := bind_eq_ok h
  obtain ⟨flags, -, h⟩ := bind_eq_ok h
  have hturned := @evolves_updateL4Direction config ebpf _ _ _ _ _ hturn
  cases h
  split
  · have hinvalid : config.flowTimeout.exception ∈ config.timeouts ebpf :=
      mem_timeouts ebpf (by simp [values])
    exact (hturned.andThen (.setTimeout r.1 hinvalid .exception r.1.residualRequest)).andThen
      (evolves_updateFlowStateMachine _ _ _)
  · exact hturned.andThen (evolves_updateFlowStateMachine _ _ _)

theorem evolves_openEbpf {node : FlowNode} (packet : MetaPacket) (h : ebpf = true) :
    Evolves config ebpf [] [] node (node.openEbpf config packet) := by
  apply Evolves.setTimeout
  split <;> simp [Config.timeouts, h]

variable {flowId : BitVec 64} {serial : Nat}

theorem evolves_newTcpNode (h : newTcpNode config packet answers serial flowId = .ok node)
    (hebpf : packet.signalSource = .ebpf → ebpf = true) :
    Evolves config ebpf [] [] (ofPacket packet serial flowId) node := by
  have hinit := evolves_initFlow config ebpf packet answers serial flowId
  obtain ⟨⟨opened, packet'⟩, hopen, h⟩ := bind_eq_ok h
  have hopened : Evolves config ebpf [] [] (ofPacket packet serial flowId) opened := by
    split at hopen
    next hsource =>
      cases hopen
      rw [hinit.same.signalSource] at hsource
      exact hinit.andThen (evolves_openEbpf packet (hebpf hsource))
    · exact hinit.andThen (evolves_openTcp ebpf hopen)
  have hmetric := hopened.andThen (evolves_collectMetric opened packet' answers)
  dsimp only at h
  split at h
  · cases h
    exact ⟨hmetric.same, hmetric.key, hmetric.recent, hmetric.timeout, hmetric.sums⟩
  · cases h
    exact hmetric

theorem evolves_newUdpNode (ebpf : Bool)
    (h : newUdpNode config packet answers serial flowId = .ok node) :
    Evolves config ebpf [] [] (ofPacket packet serial flowId) node := by
  have hopening : config.flowTimeout.opening ∈ config.timeouts ebpf :=
    mem_timeouts ebpf (by simp [values])
  have hinit := (evolves_initFlow config ebpf packet answers serial flowId).andThen
    (.setTimeout _ hopening .established (initFlow packet answers serial flowId).residualRequest)
  obtain ⟨⟨opened, packet'⟩, hopen, h⟩ := bind_eq_ok h
  cases h
  split at hopen
  · cases hopen
    exact hinit.andThen (evolves_collectMetric _ packet answers)
  · exact (hinit.andThen (evolves_updateL4Direction hopen)).andThen
      (evolves_collectMetric opened packet' answers)

/-- **A new node.**  It has the addresses and the time of its first packet, and
has counted it. -/
theorem evolves_new (h : new config packet answers serial flowId = .ok node)
    (hebpf : packet.signalSource = .ebpf → ebpf = true) :
    Evolves config ebpf [] [] (ofPacket packet serial flowId) node := by
  have hopening : config.flowTimeout.opening ∈ config.timeouts ebpf :=
    mem_timeouts ebpf (by simp [values])
  unfold new at h
  split at h
  · exact evolves_newTcpNode h hebpf
  split at h
  · exact evolves_newUdpNode ebpf h
  · cases h
    have hinit := (evolves_initFlow config ebpf packet answers serial flowId).andThen
      (.setTimeout _ hopening .established
        (initFlow packet answers serial flowId).residualRequest)
    exact hinit.andThen (evolves_collectMetric _ packet answers)

/-! ### Reports -/

/-- A report changes neither the flow nor when it times out. -/
structure Reported (a b : FlowNode) : Prop where
  same : SameFlow a.flow b.flow
  key : b.timestampKey = a.timestampKey
  recent : b.recentTime = a.recentTime
  timeout : b.timeout = a.timeout

theorem reported_turnIf (node : FlowNode) (turns : Bool) : Reported node (node.turnIf turns) := by
  cases turns with
  | false => exact ⟨.refl _, rfl, rfl, rfl⟩
  | true => exact ⟨⟨rfl, rfl, rfl, rfl, rfl, rfl, rfl, .inr rfl⟩, rfl, rfl, rfl⟩

theorem reported_updatedAftercare (config : Config) (node : FlowNode) (timestamp : Nat)
    (onPacket turns : Bool) :
    Reported node (node.updatedAftercare config timestamp onPacket turns).1 := by
  have hturned := reported_turnIf node (node.turnsAround turns)
  unfold updatedAftercare
  split
  · split
    · exact ⟨hturned.same.trans ⟨rfl, rfl, rfl, rfl, rfl, rfl, rfl, .inl rfl⟩, hturned.key,
        hturned.recent, hturned.timeout⟩
    · exact hturned
  · exact ⟨.refl _, rfl, rfl, rfl⟩

theorem updatedAftercare_reports {config : Config} {node : FlowNode} {timestamp : Nat}
    {onPacket turns : Bool} {r : Flow}
    (hr : r ∈ (node.updatedAftercare config timestamp onPacket turns).2) :
    r = (node.updateFlowDirection turns).flow := by
  unfold updatedAftercare at hr
  grind

theorem updateFlowDirection_serial (node : FlowNode) (turns : Bool) :
    (node.updateFlowDirection turns).flow.serial = node.flow.serial :=
  (reported_turnIf node (node.turnsAround turns)).same.serial

/-! ### Open requests of eBPF flows -/

/-- The messages that `collect_metric` counts, responses as negative ones. -/
def counted (config : Config) (answers : Answers) : Int :=
  if config.collectorEnabled then
    match answers.parsedDirection with
    | .clientToServer => answers.count
    | .serverToClient => -answers.count
  else 0

/-- What a packet adds to the open requests: nothing if its socket closes. -/
def balance (config : Config) (call : MetaPacket × Answers) : Int :=
  if call.1.isSocketClosed then 0 else counted config call.2

/-- `update_tcp_node` on the next packet. -/
def tcpStep (config : Config) (node : FlowNode) (call : MetaPacket × Answers) : Exec FlowNode :=
  node.updateTcpNode config call.1 call.2 >>= fun r => .ok r.1

variable {start : FlowNode} {call : MetaPacket × Answers} {calls : List (MetaPacket × Answers)}

theorem residual_updateFlow :
    (node.updateFlow packet answers).residualRequest = node.residualRequest := by
  dsimp only [updateFlow, updateNatInfo, setL2Ends]
  split_ifs <;> split <;> rfl

theorem residual_turnIf (turns : Bool) :
    (node.turnIf turns).residualRequest = node.residualRequest := by
  cases turns <;> rfl

/-- A value of an `i32`. -/
def InI32 (n : Int) : Prop := -2 ^ 31 ≤ n ∧ n < 2 ^ 31

theorem inI32_wrapI32 (n : Int) : InI32 (wrapI32 n) := by
  unfold InI32 wrapI32
  omega

theorem wrapI32_eq_self {n : Int} : wrapI32 n = n ↔ InI32 n := by
  unfold InI32 wrapI32
  omega

theorem residual_collectMetric (hcount : 0 ≤ answers.count) (hnode : InI32 node.residualRequest) :
    let s := node.collectMetric config packet answers
    s.1.residualRequest = node.residualRequest ∧
      (if s.2.2 > 0 then s.1.residualAfter s.2.1.lookupKey.direction s.2.2
        else s.1.residualRequest) =
          wrapI32 (node.residualRequest + counted config answers) := by
  have hsame := wrapI32_eq_self.mpr hnode
  unfold collectMetric counted
  split
  · simp only [residualAfter, MetaPacket.withDirection, residual_turnIf]
    grind
  · simp [hsame]

theorem tcpStep_residual (hcount : 0 ≤ call.2.count) (hebpf : node.flow.signalSource = .ebpf)
    (hnode : InI32 node.residualRequest) (h : node.tcpStep config call = .ok node') :
    node'.residualRequest = wrapI32 (node.residualRequest + balance config call) ∧
      node'.flow.signalSource = .ebpf := by
  obtain ⟨r, hupdate, h⟩ := bind_eq_ok h
  cases h
  unfold updateTcpNode at hupdate
  split at hupdate
  next hclosed =>
    cases hupdate
    simp [balance, hclosed, hebpf, wrapI32_eq_self.mpr hnode]
  next hopen =>
    have hsource :=
      (handles_updateFlow config true node call.1 call.2).same.signalSource.trans hebpf
    have hmetric :=
      (@evolves_collectMetric config true _ call.1 call.2).same.signalSource.trans hsource
    obtain ⟨s, hflow, hupdate⟩ := bind_eq_ok hupdate
    obtain ⟨flags, -, hflow⟩ := bind_eq_ok hflow
    simp only [hsource, if_true] at hflow
    cases hflow
    cases hupdate
    have hsame := @residual_updateFlow node call.1 call.2
    have hadded := (@residual_collectMetric config (node.updateFlow call.1 call.2) call.1 _ hcount
      (hsame ▸ hnode)).2
    rw [hsame] at hadded
    simp only [settleEbpf, hmetric, true_and, balance, if_neg hopen, ← hadded]
    split <;> exact ⟨rfl, hmetric⟩

theorem newTcpNode_residual (hcount : 0 ≤ answers.count) (hebpf : packet.signalSource = .ebpf)
    (h : newTcpNode config packet answers serial flowId = .ok node) :
    node.residualRequest =
      if packet.isSocketClosed then wrapI32 (counted config answers) else 0 := by
  have hinit :=
    (evolves_initFlow config true packet answers serial flowId).same.signalSource.trans hebpf
  have hzero : (initFlow packet answers serial flowId).residualRequest = 0 := by
    simp only [initFlow, hebpf, if_true, residual_turnIf, setL2Ends]
    split <;> rfl
  simp only [newTcpNode, hinit, if_true, ok_bind] at h
  set opened := (initFlow packet answers serial flowId).openEbpf config packet
  have hopened : opened.residualRequest = 0 := hzero
  have hmetric :=
    (@evolves_collectMetric config true opened packet answers).same.signalSource.trans hinit
  have hadded := @residual_collectMetric config opened packet answers hcount
    (hopened ▸ ⟨by decide, by decide⟩)
  rw [hopened, Int.zero_add] at hadded
  grind

theorem run_residual (hcount : ∀ call ∈ calls, 0 ≤ call.2.count)
    (hebpf : start.flow.signalSource = .ebpf) (hstart : InI32 start.residualRequest)
    (hrun : Runs.run (tcpStep config) start calls = .ok node) :
    node.residualRequest =
      wrapI32 (start.residualRequest + (calls.map (balance config)).sum) := by
  induction calls generalizing start with
  | nil =>
    cases hrun
    simp [wrapI32_eq_self.mpr hstart]
  | cons call calls ih =>
    obtain ⟨next, hstep, hrest⟩ := bind_eq_ok hrun
    obtain ⟨hcall, hcalls⟩ := forall_mem_cons.mp hcount
    obtain ⟨hnext, hsource⟩ := tcpStep_residual hcall hebpf hstart hstep
    rw [ih hcalls hsource (hnext ▸ inI32_wrapI32 _) hrest, hnext, map_cons, sum_cons,
      wrapI32, wrapI32, wrapI32]
    omega

/-- **Open requests.**  After any packets of an eBPF flow the residual is the sum
of their messages exactly if the packet that made the node has none and the sum fits. -/
theorem residual_balanced_iff (hebpf : packet.signalSource = .ebpf)
    (hcount : ∀ call ∈ (packet, answers) :: calls, 0 ≤ call.2.count ∧ call.2.count < 2 ^ 31)
    (hnew : newTcpNode config packet answers serial flowId = .ok start)
    (hrun : Runs.run (tcpStep config) start calls = .ok node) :
    node.residualRequest = (((packet, answers) :: calls).map (balance config)).sum ↔
      counted config answers = 0 ∧
        InI32 (((packet, answers) :: calls).map (balance config)).sum := by
  obtain ⟨hfirst, hrest⟩ := forall_mem_cons.mp hcount
  have hsource := (evolves_newTcpNode hnew (fun _ => rfl)).same.signalSource.trans hebpf
  have hmade := newTcpNode_residual hfirst.1 hebpf hnew
  have hstart : InI32 start.residualRequest := by
    rw [hmade]
    split
    · exact inI32_wrapI32 _
    · exact ⟨by decide, by decide⟩
  have hsmall : -2 ^ 31 < counted config answers ∧ counted config answers < 2 ^ 31 := by
    unfold counted
    grind
  rw [run_residual (fun call h => (hrest call h).1) hsource hstart hrun, hmade, map_cons, sum_cons,
    balance]
  unfold InI32 wrapI32
  dsimp only
  split <;> omega

end FlowNode

open FlowNode

def socketData : MetaPacket :=
  { lookupKey := { timestamp := 100 * second, proto := .tcp, ethType := .ipv4 }
    tapPort := ⟨0x7000000000000000⟩
    signalSource := .ebpf
    ebpfType := .tracePoint
    socketId := 5 }

/-- A flow whose first packet has no message, and a request. -/
theorem residual_balanced :
    ∃ start node, newTcpNode {} socketData {} 0 0 = .ok start ∧
      Runs.run (tcpStep {}) start [(socketData, { count := 1 })] = .ok node ∧
      node.residualRequest = 1 :=
  ⟨_, _, rfl, rfl, (@residual_balanced_iff {} _ socketData {} 0 0 _ [(socketData, { count := 1 })]
    rfl (by decide) rfl rfl).mpr ⟨rfl, by decide, by decide⟩⟩

/-- The request that makes the node is not counted; its answer is. -/
theorem residual_unbalanced :
    ∃ start node, newTcpNode {} socketData { count := 1 } 0 0 = .ok start ∧
      Runs.run (tcpStep {}) start [(socketData, { count := 1, parsedDirection := .serverToClient })]
        = .ok node ∧ start.residualRequest = 0 ∧ node.residualRequest = -1 :=
  ⟨_, _, rfl, rfl, rfl, rfl⟩

end ZeroTrace.FlowGenerator
