import ZeroTrace.FlowMap
import ZeroTrace.FlowNodeUpdates

/-!
# What the calls of the flow map do

The calls are taken apart here once, and the invariants are proved from the
parts.  A call drops its packet, leaves the window alone or pushes it; pushing
the window scans keys one after the other, and a scan of a key drops the nodes
that have timed out and visits the others.  A packet that is handled is ignored,
creates a node, or updates one.
-/

namespace ZeroTrace.FlowGenerator

open RustExec Function

/-! ### Scanning a key -/

namespace FlowMap

variable (config : Config) (env : Env) (scan t : Nat) (m : FlowMap)

/-- **Scanning a key.**  The nodes that have timed out are removed with a last
report, the others are kept as their visits leave them. -/
theorem scanKey_eq (s : FlowMap × List (Nat × FlowMapKey)) (key : FlowMapKey) :
    ∃ removed kept : List FlowNode,
      removed.Perm ((s.1.nodeMap key).filter fun n => !notTimedOut scan t n) ∧
      kept.Perm ((s.1.nodeMap key).filter (notTimedOut scan t)) ∧
      (scanKey config env scan t s key).1 =
        { s.1 with
          nodeMap := update s.1.nodeMap key
            (kept.map fun n => (visit config env scan t key n).node)
          size := s.1.size - removed.length
          counter := { s.1.counter with closed := s.1.counter.closed + removed.length }
          belowZero := s.1.belowZero || decide (s.1.size < removed.length)
          reports := s.1.reports ++
            (removed.map fun n => n.removedAftercare n.deadline (env.turns t key n)) ++
            kept.flatMap fun n => (visit config env scan t key n).reports } ∧
      (scanKey config env scan t s key).2 =
        s.2 ++ kept.filterMap fun n =>
          (visit config env scan t key n).moved.map fun time => (time, key) := by
  refine ⟨_, _, InPlace.drop_partition_perm (notTimedOut scan t) (s.1.nodeMap key),
    InPlace.take_partition_perm (notTimedOut scan t) (s.1.nodeMap key), ?_, ?_⟩
  · simp only [scanKey, sortNodesByTimeout, List.map_map, List.flatMap_map, comp_def]
    rfl
  · simp only [scanKey, sortNodesByTimeout, List.filterMap_map, comp_def]

theorem scanSlot_startTime : (scanSlot config env scan m t).startTime = m.startTime := by
  refine List.foldlRecOn (motive := fun s => s.1.startTime = m.startTime) _
    (scanKey config env scan t) ?_ ?_
  · rfl
  · exact fun _ hs _ _ => hs

theorem push_start (next : Nat) :
    (m.push config env next scan).startTime = next * second ∧
      (m.push config env next scan).startTimeInUnit = next := by
  refine ⟨?_, rfl⟩
  refine List.foldlRecOn (motive := fun m => m.startTime = next * second) _
    (scanSlot config env scan) ?_ ?_
  · rfl
  · exact fun m hm t _ => (scanSlot_startTime config env scan t m).trans hm

/-- A property that scanning a key keeps, and in which the wheel and the window have
no part, is kept when the window is pushed. -/
theorem push_rule {P : FlowMap → Prop}
    (hkey : ∀ t s key, P s.1 → P (scanKey config env scan t s key).1)
    (hwindow : ∀ m timeSet startTime startTimeInUnit, P m →
      P { m with timeSet, startTime, startTimeInUnit }) (h : P m) (next : Nat) :
    P (m.push config env next scan) := by
  have hslot : ∀ m, P m → ∀ t, P (scanSlot config env scan m t) := by
    intro m hm t
    refine hwindow _ _ _ _ (List.foldlRecOn (motive := fun s => P s.1) _
      (scanKey config env scan t) (hwindow m _ _ _ hm) ?_)
    exact fun s hs key _ => hkey t s key hs
  refine hwindow _ _ _ _ (List.foldlRecOn _ (scanSlot config env scan) (hwindow m _ _ _ h) ?_)
  exact fun m hm t _ => hslot m hm t

end FlowMap

/-! ### Moving the window -/

/-- What `inject_flush_ticker` does at a time. -/
inductive FlushStep (config : Config) (env : Env) (m : FlowMap) (timestamp : Nat) :
    FlowMap × Bool → Prop
  | dropped (h : timestamp ≠ 0) (hearly : timestamp < m.startTime) :
      FlushStep config env m timestamp (m, false)
  | kept (h : timestamp ≠ 0 → m.startTime ≤ timestamp)
      (hlate : env.time timestamp < m.startTime + config.packetDelay + second) :
      FlushStep config env m timestamp (m, true)
  | pushed (h : timestamp ≠ 0 → m.startTime ≤ timestamp)
      (hlate : m.startTime + config.packetDelay + second ≤ env.time timestamp) :
      FlushStep config env m timestamp
        (m.push config env ((env.time timestamp - config.packetDelay) / second)
          ((env.time timestamp - config.packetDelay) / second * second - 1), true)

namespace FlowMap

variable {config : Config} {env : Env} {m m' : FlowMap} {timestamp : Nat}

theorem flushStep_of_injectFlushTicker {r : FlowMap × Bool}
    (h : injectFlushTicker config env m timestamp = .ok r) :
    FlushStep config env m timestamp r := by
  unfold injectFlushTicker at h
  split at h
  next hearly =>
    cases h
    exact .dropped hearly.1 hearly.2
  rename_i hearly
  have htime : timestamp ≠ 0 → m.startTime ≤ timestamp := by
    intro hzero
    by_contra hlt
    exact hearly ⟨hzero, by omega⟩
  obtain ⟨late, hsub, h⟩ := bind_eq_ok h
  obtain ⟨later, hsub', h⟩ := bind_eq_ok h
  obtain ⟨hdelay, rfl⟩ := checkedSub_eq_ok hsub
  obtain ⟨hunit, hlater⟩ := checkedSub_eq_ok hsub'
  split at h
  · cases h
    exact .kept htime (by omega)
  obtain ⟨scan, hsub'', h⟩ := bind_eq_ok h
  obtain ⟨-, rfl⟩ := checkedSub_eq_ok hsub''
  cases h
  exact .pushed htime (by omega)

theorem injectFlushTicker_pushed (h : timestamp ≠ 0 → m.startTime ≤ timestamp)
    (hlate : m.startTime + config.packetDelay + second ≤ env.time timestamp) :
    injectFlushTicker config env m timestamp = .ok
      (m.push config env ((env.time timestamp - config.packetDelay) / second)
        ((env.time timestamp - config.packetDelay) / second * second - 1), true) := by
  have hpos : 1 ≤ (env.time timestamp - config.packetDelay) / second * second := by
    have hunit : 1 ≤ (env.time timestamp - config.packetDelay) / second := by
      rw [Nat.le_div_iff_mul_le (by decide)]
      omega
    have hsecond : 0 < second := by decide
    exact Nat.mul_pos hunit hsecond
  unfold injectFlushTicker
  rw [if_neg (by omega), checkedSub_ok (by omega), ok_bind, checkedSub_ok (by omega), ok_bind,
    if_neg (by omega), checkedSub_ok hpos, ok_bind]

end FlowMap

/-! ### Handling a packet -/

/-- The same packet, with whatever direction. -/
def Directed (packet p : MetaPacket) : Prop := ∃ d, p = packet.withDirection d

namespace Directed

theorem refl (packet : MetaPacket) : Directed packet packet := ⟨packet.lookupKey.direction, rfl⟩

theorem trans {p q r : MetaPacket} (h : Directed p q) (h' : Directed q r) : Directed p r := by
  obtain ⟨d, rfl⟩ := h
  obtain ⟨d', rfl⟩ := h'
  exact ⟨d', rfl⟩

theorem withDirection (packet : MetaPacket) (d : PacketDirection) :
    Directed packet (packet.withDirection d) := ⟨d, rfl⟩

variable {packet p : MetaPacket}

theorem timestamp (h : Directed packet p) : p.lookupKey.timestamp = packet.lookupKey.timestamp := by
  obtain ⟨d, rfl⟩ := h
  rfl

theorem signalSource (h : Directed packet p) : p.signalSource = packet.signalSource := by
  obtain ⟨d, rfl⟩ := h
  rfl

end Directed

namespace FlowNode

theorem directed_matchNode (n : FlowNode) (packet : MetaPacket)
    (ignoreL2End ignoreTorMac ignoreIdcVlan : Bool) (agentType : AgentType) :
    Directed packet (n.matchNode packet ignoreL2End ignoreTorMac ignoreIdcVlan agentType).2 := by
  have hsame := Directed.refl packet
  have hset := Directed.withDirection packet
  unfold matchNode matchEbpf matchOther matchIp
  grind

end FlowNode

namespace FlowMap

theorem directed_position (config : Config) (nodes : List FlowNode) (packet : MetaPacket) :
    Directed packet (position config nodes packet).2 := by
  induction nodes generalizing packet with
  | nil => exact .refl packet
  | cons n nodes ih =>
    have hmatch := n.directed_matchNode packet config.ignoreL2End config.ignoreTorMac
      config.ignoreIdcVlan config.agentType
    rw [position]
    dsimp only
    split
    · exact hmatch
    · exact hmatch.trans (ih _)

theorem directed_turnPacket (n : FlowNode) (packet : MetaPacket) (turns : Bool) :
    Directed packet (turnPacket n packet turns) := by
  unfold turnPacket
  split
  · exact .withDirection packet _
  · exact .refl packet

end FlowMap

/-- What a packet that is handled does to the map. -/
inductive PacketStep (config : Config) (m : FlowMap) (key : FlowMapKey) (packet : MetaPacket) :
    FlowMap → Prop
  | ignored (totalFlow count : Nat) :
      PacketStep config m key packet
        { m with
          totalFlow := totalFlow
          counter := ⟨m.counter.new + count, m.counter.closed + count⟩ }
  | created {p : MetaPacket} {answers : Answers} {flowId : BitVec 64} {n : FlowNode}
      (totalFlow : Nat) (hp : Directed packet p) (hroom : 0 ≤ m.size ∧ m.size < config.capacity)
      (h : FlowNode.new config p answers m.serials flowId = .ok n) :
      PacketStep config m key packet
        { m with
          totalFlow := totalFlow
          size := m.size + 1
          counter := { m.counter with new := m.counter.new + 1 }
          serials := m.serials + 1
          timeSet := m.timeSet.insert n.timestampKey key
          nodeMap := Function.update m.nodeMap key (m.nodeMap key ++ [n])
          injected := m.injected ++ [(n.flow.serial, p)] }
  | updated {index : Nat} {old n : FlowNode} {p : MetaPacket} {answers : Answers} {turns : Bool}
      (hp : Directed packet p) (hold : (m.nodeMap key)[index]? = some old)
      (h : (old.updatedAftercare config packet.lookupKey.timestamp true turns).1.update config p
        answers = .ok (n, false)) :
      PacketStep config m key packet
        (FlowMap.keepNode
          { m with
            reports := m.reports ++
              (old.updatedAftercare config packet.lookupKey.timestamp true turns).2
            injected := m.injected ++ [(n.flow.serial, p)] }
          key index n (packet.lookupKey.timestamp / second))

namespace FlowMap

/-- An updated node is put in the place of the old one, with the second of the
packet, and its key is listed for that second unless it was before. -/
theorem keepNode_eq (m : FlowMap) (key : FlowMapKey) (index : Nat) (n : FlowNode) (time : Nat) :
    keepNode m key index n time =
      { m with
        nodeMap := update m.nodeMap key
          ((m.nodeMap key).set index { n with timestampKey := time })
        timeSet := if n.timestampKey = time then m.timeSet else m.timeSet.insert time key } := by
  unfold keepNode
  by_cases hsame : n.timestampKey = time
  · subst hsame
    simp
  · simp [hsame]

variable {config : Config} {env : Env} {m m' : FlowMap} {key : FlowMapKey}
  {packet p : MetaPacket} {answers : Answers}

theorem packetStep_of_createFlow (hp : Directed packet p)
    (h : createFlow config m key p answers = .ok m') : PacketStep config m key packet m' := by
  unfold createFlow at h
  split at h
  · cases h
    exact .ignored m.totalFlow 0
  obtain ⟨r, hnode, h⟩ := bind_eq_ok h
  unfold newFlowNode at hnode
  split at hnode
  · cases hnode
    cases h
    exact .ignored m.totalFlow 0
  rename_i hfull
  have hroom : 0 ≤ m.size ∧ m.size < config.capacity := by omega
  obtain ⟨n, hnew, hnode⟩ := bind_eq_ok hnode
  by_cases hebpf : p.signalSource = .ebpf
  · simp only [hebpf, if_true] at hnew hnode
    split at hnode
    · cases hnode
      cases h
      exact .ignored m.totalFlow 1
    · cases hnode
      cases h
      exact .created m.totalFlow hp hroom hnew
  · simp only [hebpf, if_false, false_and] at hnew hnode
    cases hnode
    cases h
    exact .created (m.totalFlow + 1) hp hroom hnew

theorem packetStep_of_updateFlow (hp : Directed packet p) {index : Nat}
    (h : updateFlow config m key index p answers = .ok m') : PacketStep config m key packet m' := by
  obtain ⟨old, hold, h⟩ := bind_eq_ok h
  obtain ⟨⟨n, closed⟩, hupdate, h⟩ := bind_eq_ok h
  have hhandles : FlowNode.Handles config true _ _ n ∧ closed = false :=
    FlowNode.handles_update hupdate fun _ => rfl
  obtain ⟨-, rfl⟩ := hhandles
  cases h
  rw [hp.timestamp] at hupdate ⊢
  exact .updated (hp.trans (directed_turnPacket old p answers.turnsReport)) (index_eq_ok hold)
    hupdate

/-- **A call** flushes first; behind that, a packet that is not older than the window makes
a step. -/
theorem step_cases {c : Call × Env} (h : m.step config c = .ok m') :
    ∃ timestamp r, FlushStep config c.2 m timestamp r ∧
      (m' = r.1 ∨ ∃ packet answers key, c.1 = .packet packet answers ∧
        timestamp = packet.lookupKey.timestamp ∧ r.2 = true ∧
        PacketStep config r.1 key packet m') := by
  obtain ⟨call, env⟩ := c
  cases call with
  | flush timestamp =>
    obtain ⟨r, hflush, hr⟩ := bind_eq_ok h
    cases hr
    exact ⟨timestamp, r, flushStep_of_injectFlushTicker hflush, .inl rfl⟩
  | packet packet answers =>
    obtain ⟨r, hflush, h⟩ := bind_eq_ok h
    refine ⟨_, r, flushStep_of_injectFlushTicker hflush, ?_⟩
    cases hhandled : r.2 with
    | false =>
      rw [hhandled] at h
      cases h
      exact .inl rfl
    | true =>
      rw [hhandled] at h
      obtain ⟨key, -, h⟩ := bind_eq_ok h
      have hp := directed_position config (r.1.nodeMap key) packet
      refine .inr ⟨packet, answers, key, rfl, rfl, rfl, ?_⟩
      dsimp only at h
      split at h
      · exact packetStep_of_createFlow hp h
      · exact packetStep_of_updateFlow hp h

end FlowMap

end ZeroTrace.FlowGenerator
