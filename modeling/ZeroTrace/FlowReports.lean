import ZeroTrace.FlowLives

/-!
# What the reports on a flow add up to

The counts of a flow are raised by every packet, copied into a report, cleared
after it, and exchanged when the flow is turned around.  The totals are never
cleared.  In the life of a flow of captured packets the reports and the counts
of the node together are, at any time, what was injected, and so are the totals;
therefore each report has totals equal to the sum of all reports up to it, and
once the flow is removed its reports account for all packets.

Everything is shown of the two directions together, which no reversal changes.
-/

namespace ZeroTrace.FlowGenerator

open RustExec List FlowNode

namespace Metric

def packetCount : Metric where
  peer p := p.packetCount
  amount _ := 1

def byteCount : Metric where
  peer p := p.byteCount
  amount packet := packet.packetLen

def l3ByteCount : Metric where
  peer p := p.l3ByteCount
  amount packet := packet.l3PayloadLen

def l4ByteCount : Metric where
  peer p := p.l4ByteCount
  amount packet := packet.l4PayloadLen

def totalPacketCount : Metric where
  peer p := p.totalPacketCount
  amount _ := 1

def totalByteCount : Metric where
  peer p := p.totalByteCount
  amount packet := packet.packetLen

def interval : List Metric := [packetCount, byteCount, l3ByteCount, l4ByteCount]

def totals : List (Metric × Metric) :=
  [(packetCount, totalPacketCount), (byteCount, totalByteCount)]

theorem reset_interval {μ : Metric} (h : μ ∈ interval) (p : FlowMetricsPeer) :
    μ.peer p.reset = 0 := by
  simp only [interval, mem_cons, not_mem_nil, or_false] at h
  rcases h with rfl | rfl | rfl | rfl <;> rfl

theorem reset_totals {pair : Metric × Metric} (h : pair ∈ totals) :
    pair.1 ∈ interval ∧ pair.1.amount = pair.2.amount ∧
      ∀ p : FlowMetricsPeer, pair.2.peer p.reset = pair.2.peer p := by
  simp only [totals, mem_cons, not_mem_nil, or_false] at h
  rcases h with rfl | rfl <;> exact ⟨by simp [interval], rfl, fun _ => rfl⟩

end Metric

/-! ### Sums of a flow -/

def sumReports (rs : List Flow) (μ : Metric) : Nat := (rs.map fun r => r.sum μ).sum

def sumPackets (ps : List MetaPacket) (μ : Metric) : Nat := (ps.map μ.amount).sum

theorem sumReports_append (rs rs' : List Flow) (μ : Metric) :
    sumReports (rs ++ rs') μ = sumReports rs μ + sumReports rs' μ := by
  unfold sumReports
  rw [map_append, sum_append]

theorem sumReports_singleton (r : Flow) (μ : Metric) : sumReports [r] μ = r.sum μ := by
  simp [sumReports]

theorem sumPackets_append (ps ps' : List MetaPacket) (μ : Metric) :
    sumPackets (ps ++ ps') μ = sumPackets ps μ + sumPackets ps' μ := by
  unfold sumPackets
  rw [map_append, sum_append]

theorem sum_updateFlowDirection (n : FlowNode) (turns : Bool) (μ : Metric) :
    (n.updateFlowDirection turns).flow.sum μ = n.flow.sum μ := by
  have hturned := @evolves_turnIf {} false n (n.turnsAround turns)
  exact hturned.sums μ

theorem sum_removedAftercare (n : FlowNode) (timeout : Nat) (turns : Bool) (μ : Metric) :
    (n.removedAftercare timeout turns).sum μ = n.flow.sum μ :=
  sum_updateFlowDirection n turns μ

/-! ### Conservation in a life -/

namespace Life

def liveSum (life : Life) (μ : Metric) : Nat :=
  match life.live with
  | some (_, n) => n.flow.sum μ
  | none => 0

structure Conserved (life : Life) : Prop where
  captured : ∀ k n, life.live = some (k, n) → n.flow.signalSource ≠ .ebpf
  counts : ∀ μ ∈ Metric.interval,
    sumReports life.reports μ + life.liveSum μ = sumPackets life.injected μ
  totals : ∀ k n, life.live = some (k, n) → ∀ pair ∈ Metric.totals,
    n.flow.sum pair.2 = sumPackets life.injected pair.2
  running : ∀ rs r, rs ++ [r] <+: life.reports → ∀ pair ∈ Metric.totals,
    sumReports (rs ++ [r]) pair.1 = r.sum pair.2

variable {config : Config} {life : Life} {key : FlowMapKey} {n n' : FlowNode} {p : MetaPacket}
  {u : Nat}

theorem liveSum_of_live (hlive : life.live = some (key, n)) (μ : Metric) :
    life.liveSum μ = n.flow.sum μ := by
  unfold liveSum
  rw [hlive]

section Live

variable (h : life.Conserved) (hlive : life.live = some (key, n))

include h hlive

theorem Conserved.running_append {r : Flow} (hr : ∀ μ, r.sum μ = n.flow.sum μ) :
    ∀ rs r', rs ++ [r'] <+: life.reports ++ [r] → ∀ pair ∈ Metric.totals,
      sumReports (rs ++ [r']) pair.1 = r'.sum pair.2 := by
  intro rs r' hle pair hpair
  rcases prefix_concat_iff.mp hle with heq | hle
  · obtain ⟨hinterval, hamount, -⟩ := Metric.reset_totals hpair
    obtain ⟨rfl, hr'⟩ := append_inj' heq rfl
    obtain rfl : r' = r := by simpa using hr'
    have hcounts := h.counts pair.1 hinterval
    have htotals := h.totals key n hlive pair hpair
    rw [liveSum_of_live hlive] at hcounts
    rw [sumReports_append, sumReports_singleton, hr, hr, htotals, hcounts]
    unfold sumPackets
    rw [hamount]
  · exact h.running rs r' hle pair hpair

theorem Conserved.report (hcollector : config.collectorEnabled = true) (timestamp : Nat)
    (onPacket turns : Bool)
    (hn' : n'.flow = (n.updatedAftercare config timestamp onPacket turns).1.flow) :
    Conserved
      { life with
        reports := life.reports ++ (n.updatedAftercare config timestamp onPacket turns).2
        live := some (key, n') } := by
  have hsource := h.captured key n hlive
  have htotals := h.totals key n hlive
  by_cases hdue : n.reportDue timestamp onPacket = true
  · have hturned := reported_turnIf n (n.turnsAround turns)
    have hsum := sum_updateFlowDirection n turns
    simp only [updatedAftercare, hdue, hcollector, if_true] at hn' ⊢
    refine ⟨?_, ?_, ?_, h.running_append hlive hsum⟩
    · intro k n₁ hn₁
      cases hn₁
      rw [hn']
      exact fun hebpf => hsource (hturned.same.signalSource.symm.trans hebpf)
    · intro μ hμ
      have hzero : n'.flow.sum μ = 0 := by
        rw [hn']
        simp [resetFlowStatInfo, Flow.sum, Metric.reset_interval hμ]
      rw [liveSum_of_live rfl, sumReports_append, sumReports_singleton, hsum, hzero, Nat.add_zero,
        ← liveSum_of_live hlive]
      exact h.counts μ hμ
    · intro k n₁ hn₁ pair hpair
      cases hn₁
      obtain ⟨-, -, hreset⟩ := Metric.reset_totals hpair
      rw [← htotals pair hpair, ← hsum, hn']
      simp [resetFlowStatInfo, Flow.sum, hreset]
  · -- No report is due: the flow stays as it is.
    simp only [updatedAftercare, hdue, Bool.false_eq_true, if_false, append_nil] at hn' ⊢
    refine ⟨?_, ?_, ?_, h.running⟩
    · intro k n₁ hn₁
      cases hn₁
      rwa [hn']
    · intro μ hμ
      rw [liveSum_of_live rfl, hn', ← liveSum_of_live hlive]
      exact h.counts μ hμ
    · intro k n₁ hn₁ pair hpair
      cases hn₁
      rw [hn']
      exact htotals pair hpair

theorem Conserved.remove (timeout : Nat) (turns : Bool) :
    Conserved
      { life with
        reports := life.reports ++ [n.removedAftercare timeout turns]
        live := none } := by
  have hsum := sum_removedAftercare n timeout turns
  refine Conserved.mk ?_ ?_ ?_ (h.running_append hlive hsum)
  · intro k n₁ hn₁
    cases hn₁
  · intro μ hμ
    have hcounts := h.counts μ hμ
    rw [liveSum_of_live hlive] at hcounts
    rw [sumReports_append, sumReports_singleton, hsum]
    exact hcounts
  · intro k n₁ hn₁
    cases hn₁

theorem Conserved.count (hsource : n'.flow.signalSource = n.flow.signalSource)
    (hsum : ∀ μ, n'.flow.sum μ = n.flow.sum μ + μ.amount p) :
    Conserved { life with injected := life.injected ++ [p], live := some (key, n') } := by
  have hpackets : ∀ μ, sumPackets (life.injected ++ [p]) μ =
      sumPackets life.injected μ + μ.amount p := by
    intro μ
    rw [sumPackets_append]
    simp [sumPackets]
  refine ⟨?_, ?_, ?_, h.running⟩
  · intro k n₁ hn₁
    cases hn₁
    rw [hsource]
    exact h.captured key n hlive
  · intro μ hμ
    have hcounts := h.counts μ hμ
    rw [liveSum_of_live hlive] at hcounts
    rw [hpackets, liveSum_of_live rfl, hsum, ← hcounts, Nat.add_assoc]
  · intro k n₁ hn₁ pair hpair
    cases hn₁
    rw [hpackets, hsum, h.totals key n hlive pair hpair]

end Live

theorem Conserved.scan (hcollector : config.collectorEnabled = true) (h : life.Conserved)
    (env : Env) (time t : Nat) (key : FlowMapKey) :
    (life.scan config env time t key).Conserved := by
  unfold Life.scan
  cases hlive : life.live with
  | none => exact h
  | some entry =>
    obtain ⟨k, n⟩ := entry
    dsimp only
    split
    · split
      · unfold FlowMap.visit
        split
        · rw [append_nil, ← hlive]
          exact h
        · dsimp only
          split <;> exact h.report hlive hcollector time false (env.turns t key n) rfl
      · exact h.remove hlive n.deadline (env.turns t key n)
    · exact h

theorem conserved_born {answers : Answers} {flowId : BitVec 64}
    (hp : p.signalSource ≠ .ebpf) (hnew : FlowNode.new config p answers u flowId = .ok n) :
    Conserved { injected := [p], live := some (key, n) } := by
  have hevolves : Evolves config true [] [] _ n := evolves_new hnew fun _ => rfl
  have hsum : ∀ μ, n.flow.sum μ = sumPackets [p] μ := by
    intro μ
    rw [hevolves.sums μ]
    simp [ofPacket, Flow.sum, sumPackets, μ.add, μ.zero]
  refine Conserved.mk ?_ ?_ ?_ ?_
  · intro k n₁ hn₁
    cases hn₁
    rw [hevolves.same.signalSource]
    exact hp
  · intro μ hμ
    rw [liveSum_of_live rfl, hsum]
    exact Nat.zero_add _
  · intro k n₁ hn₁ pair hpair
    cases hn₁
    exact hsum pair.2
  · intro rs r hle
    have hnil := prefix_nil.mp hle
    simp at hnil

/-- **One step.**  In the life of a flow that captured packets only, every step
keeps the books. -/
theorem conserved_step (hcollector : config.collectorEnabled = true) (life life' : Life)
    (h : (∀ p ∈ life.injected, p.signalSource ≠ .ebpf) → life.Conserved)
    (hstep : LifeStep config u life life')
    (hcaptured : ∀ p ∈ life'.injected, p.signalSource ≠ .ebpf) : life'.Conserved := by
  cases hstep with
  | scanned env time t key =>
    rw [scan_injected] at hcaptured
    exact (h hcaptured).scan hcollector env time t key
  | born key hnew => exact conserved_born (hcaptured _ mem_cons_self) hnew
  | @handled _ key old n p answers timestamp time turns hlive hupdate =>
    have hold : life.Conserved := h fun q hq => hcaptured q (mem_append_left _ hq)
    have hp : p.signalSource ≠ .ebpf := hcaptured p (mem_append_right _ mem_cons_self)
    have hreported := hold.report hlive hcollector timestamp true turns rfl
    have hhandles : FlowNode.Handles config true p _ n :=
      (handles_update hupdate fun _ => rfl).1
    have hnode := hreported.captured key _ rfl
    obtain ⟨times, packets, hevolves, -, hpackets⟩ := hhandles.evolves
    obtain rfl := hpackets hp hnode
    refine hreported.count rfl ?_ ?_
    · exact hhandles.same.signalSource
    · intro μ
      rw [hevolves.sums μ]
      simp

end Life

/-! ### Every run -/

open FlowMap in
/-- **The reports account for every packet.**  Take any run of the flow map with
the collector enabled, and any flow that was given captured packets only.  While
the flow is in the map, its reports and its node together have counted what was
injected; once it is out, its reports alone have; and every report carries the
totals of all reports up to it. -/
theorem flow_metrics_conserved {config : Config} {id now u : Nat} {start m : FlowMap}
    {calls : List (Call × Env)} (hcollector : config.collectorEnabled = true)
    (hnew : FlowMap.new config id now = .ok start)
    (hrun : Runs.run (FlowMap.step config) start calls = .ok m)
    (hcaptured : ∀ p ∈ m.injectedOf u, p.signalSource ≠ .ebpf) :
    (∀ key, ∀ n ∈ m.nodeMap key, n.flow.serial = u → ∀ μ ∈ Metric.interval,
      sumReports (m.reportsOf u) μ + n.flow.sum μ = sumPackets (m.injectedOf u) μ) ∧
    ((∀ key, ∀ n ∈ m.nodeMap key, n.flow.serial ≠ u) → ∀ μ ∈ Metric.interval,
      sumReports (m.reportsOf u) μ = sumPackets (m.injectedOf u) μ) ∧
    ∀ rs r, rs ++ [r] <+: m.reportsOf u →
      sumReports (rs ++ [r]) .packetCount = r.sum .totalPacketCount ∧
        sumReports (rs ++ [r]) .byteCount = r.sum .totalByteCount := by
  have hempty : (∀ p ∈ ({} : Life).injected, p.signalSource ≠ .ebpf) → Life.Conserved {} := by
    intro _
    refine Life.Conserved.mk (fun k n hn => by cases hn) (fun μ _ => rfl)
      (fun k n hn => by cases hn) ?_
    intro rs r hle
    have hnil := prefix_nil.mp hle
    simp at hnil
  obtain ⟨life, hlives, hconserved⟩ := lived_run (u := u) (Life.conserved_step hcollector)
    hempty hnew hrun
  rw [hlives.injected] at hcaptured ⊢
  rw [hlives.reports]
  have hbooks := hconserved hcaptured
  refine ⟨?_, ?_, ?_⟩
  · intro key n hn hu μ hμ
    rw [← Life.liveSum_of_live (hlives.live_of_mem hn hu)]
    exact hbooks.counts μ hμ
  · intro hgone μ hμ
    have hcounts := hbooks.counts μ hμ
    cases hlive : life.live with
    | none =>
      unfold Life.liveSum at hcounts
      rw [hlive] at hcounts
      exact hcounts
    | some entry =>
      obtain ⟨hmem, hu⟩ := hlives.mem_of_live hlive
      exact absurd hu (hgone _ _ hmem)
  · intro rs r hle
    exact ⟨hbooks.running rs r hle (.packetCount, .totalPacketCount) (by simp [Metric.totals]),
      hbooks.running rs r hle (.byteCount, .totalByteCount) (by simp [Metric.totals])⟩

/-- Short timeouts. -/
def quickConfig : Config :=
  { tcpTimeout := { established := second, closingRst := second, others := second } }

def frameAt (timestamp : Nat) : MetaPacket :=
  { lookupKey := { timestamp := timestamp }, packetLen := 60
    fromEbpf := captured_fromEbpf, closedByEbpf := captured_closedByEbpf }

/-- Two frames of one flow, and a tick that is late enough for it to end. -/
def quickCalls : List (Call × Env) :=
  [(.packet (frameAt (100 * second)) {}, {}), (.packet (frameAt (101 * second)) {}, {}),
    (.flush (200 * second), {})]

/-- Two frames make two reports, the second of which carries the totals of both. -/
theorem flow_metrics_conserved_frames :
    ∃ start m, FlowMap.new quickConfig 0 (100 * second) = .ok start ∧
      Runs.run (FlowMap.step quickConfig) start quickCalls = .ok m ∧
      (m.injectedOf 0).length = 2 ∧ (m.reportsOf 0).length = 2 ∧
      ∀ rs r, rs ++ [r] <+: m.reportsOf 0 →
        sumReports (rs ++ [r]) .packetCount = r.sum .totalPacketCount ∧
          sumReports (rs ++ [r]) .byteCount = r.sum .totalByteCount := by
  have hrun : delivers
      (FlowMap.new quickConfig 0 (100 * second) >>= fun start =>
        Runs.run (FlowMap.step quickConfig) start quickCalls)
      (fun m => ((m.injectedOf 0).all fun p => p.signalSource != .ebpf) &&
        (m.injectedOf 0).length == 2 && (m.reportsOf 0).length == 2) = true := by
    decide +kernel
  obtain ⟨m, hm, htest⟩ := eq_ok_of_delivers hrun
  obtain ⟨start, hstart, hcalls⟩ := bind_eq_ok hm
  simp only [Bool.and_eq_true, all_eq_true, bne_iff_ne, beq_iff_eq] at htest
  obtain ⟨⟨hcaptured, hinjected⟩, hreports⟩ := htest
  exact ⟨start, m, hstart, hcalls, hinjected, hreports,
    (flow_metrics_conserved rfl hstart hcalls hcaptured).2.2⟩

end ZeroTrace.FlowGenerator
