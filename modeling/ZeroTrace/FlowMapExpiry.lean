import ZeroTrace.FlowMapWheel

/-!
# Every flow is looked at again

The invariant of the wheel, over whole runs.  As long as the timeouts fit into
one turn of the wheel and no packet has the time zero, which stands for a tick,
every flow in the map is listed for a second of the window; and when the window
has passed that second and the deadline of the flow, the flow is gone, with one
last report.

Timeouts of whole seconds that come from the flow configuration always fit.  An
eBPF flow waits for its session to be put together, as long as the parser
configuration says; the wheel knows nothing of that timeout, and if it is too
long the key is drained a turn too early and is not put down again.
-/

namespace ZeroTrace.FlowGenerator

open RustExec FlowMap List Nat

/-- A packet has a time, and is eBPF data only if that is expected. -/
def Call.Regular (ebpf : Bool) : Call → Prop
  | .packet p _ => p.lookupKey.timestamp ≠ 0 ∧ (p.signalSource = .ebpf → ebpf = true)
  | .flush _ => True

namespace FlowMap

variable {config : Config} {ebpf : Bool} {m m' start : FlowMap} {id now : Nat}
  {calls : List (Call × Env)} {key : FlowMapKey} {n : FlowNode} {life : Life}

theorem wheelInv_new (h : new config id now = .ok m) : WheelInv config ebpf m := by
  obtain ⟨late, -, h⟩ := bind_eq_ok h
  obtain ⟨start, -, h⟩ := bind_eq_ok h
  cases h
  refine ⟨rfl, rfl, ?_, ?_⟩
  all_goals
    intro key n hn
    cases hn

/-- **One call keeps the invariant.** -/
theorem WheelInv.step (hfits : config.Fits ebpf) (h : WheelInv config ebpf m) {c : Call × Env}
    (hc : c.1.Regular ebpf) (hstep : m.step config c = .ok m') : WheelInv config ebpf m' := by
  obtain ⟨timestamp, r, hflush, rfl | ⟨packet, answers, key, hcall, rfl, hhandled, hpacket⟩⟩ :=
    step_cases hstep
  · exact h.flush hflush
  · rw [hcall] at hc
    obtain ⟨hle, hlt⟩ := punctual_of_flush hc.1 hflush hhandled
    exact (h.flush hflush).packetStep hfits hle hlt hc.2 hpacket

theorem wheelInv_run (hfits : config.Fits ebpf) (hnew : new config id now = .ok start)
    (hcalls : ∀ c ∈ calls, c.1.Regular ebpf)
    (hrun : Runs.run (step config) start calls = .ok m) : WheelInv config ebpf m :=
  Runs.run_induction (J := WheelInv config ebpf) (Q := fun c => c.1.Regular ebpf)
    (fun _ _ _ hs hc hok => hs.step hfits hc hok) (wheelInv_new hnew) hcalls hrun

/-! ### The end of a flow -/

/-- The flow of the node ends in time: a tick that moves the window past the
second of the node and past its deadline leaves no node of the flow, and makes
exactly one more report on it, the last. -/
def Ends (config : Config) (m : FlowMap) (n : FlowNode) : Prop :=
  ∀ (env : Env) (timestamp next : Nat),
    next = (env.time timestamp - config.packetDelay) / second →
    m.startTime + config.packetDelay + second ≤ env.time timestamp →
    n.timestampKey < next → n.deadline < next * second →
    ∃ m' turns, m.step config (.flush timestamp, env) = .ok m' ∧ m'.startTimeInUnit = next ∧
      (∀ key, ∀ n' ∈ m'.nodeMap key, n'.flow.serial ≠ n.flow.serial) ∧
      m'.reportsOf n.flow.serial =
        m.reportsOf n.flow.serial ++ [n.removedAftercare n.deadline turns]

def lastLife (life : Life) (n : FlowNode) (turns : Bool) : Life :=
  { life with
    reports := life.reports ++ [n.removedAftercare n.deadline turns]
    live := none }

theorem scan_after_deadline (config : Config) {scan : Nat}
    (hlive : life.live = some (key, n)) (hscan : n.deadline ≤ scan) (env : Env) (t : Nat)
    (k : FlowMapKey) (life' : Life) (h : life' = life ∨ ∃ turns, life' = lastLife life n turns) :
    life'.scan config env scan t k = life ∨
      ∃ turns, life'.scan config env scan t k = lastLife life n turns := by
  rcases h with rfl | ⟨turns, rfl⟩
  · unfold Life.scan
    rw [hlive]
    dsimp only
    split
    next hk =>
      by_cases hlater : t < n.timestampKey
      · have hkept : notTimedOut scan t n = true := by simp [notTimedOut, hlater]
        rw [if_pos hkept, visit_later hlater, append_nil, ← hlive]
        exact .inl rfl
      · have hdue : ¬ notTimedOut scan t n = true := by
          simp only [notTimedOut, Bool.or_eq_true, decide_eq_true_eq]
          omega
        rw [if_neg hdue]
        exact .inr ⟨_, rfl⟩
    · exact .inl rfl
  · exact .inr ⟨turns, rfl⟩

theorem WheelInv.ends (h : WheelInv config ebpf m)
    (hlives : m.Lives n.flow.serial life) (hn : n ∈ m.nodeMap key) : m.Ends config n := by
  intro env timestamp next hnext hlate hkey hdeadline
  have hstart : m.startTime < next * second := by
    rw [hnext]
    exact startTime_lt_next hlate
  have htimestamp : timestamp ≠ 0 → m.startTime ≤ timestamp := by
    intro hne
    have htime : env.time timestamp = timestamp := if_neg hne
    omega
  have hpushed := h.push env hstart
  have hlive := hlives.live_of_mem hn rfl
  have hscan : n.deadline ≤ next * second - 1 := by omega
  have hlived : m.Lived n.flow.serial fun life' =>
      life' = life ∨ ∃ turns, life' = lastLife life n turns := ⟨life, hlives, .inl rfl⟩
  have hkeep := scan_after_deadline config hlive hscan env
  obtain ⟨life', hlives', hlife'⟩ := hlived.push hkeep next
  obtain ⟨-, hunit⟩ := push_start config env (next * second - 1) m next
  have hstep : m.step config (.flush timestamp, env) =
      .ok (m.push config env next (next * second - 1)) := by
    have hinject := injectFlushTicker_pushed htimestamp hlate
    rw [← hnext] at hinject
    unfold FlowMap.step
    dsimp only
    rw [hinject, ok_bind]
  rcases hlife' with rfl | ⟨turns, rfl⟩
  · -- The flow would still be there, with a second that has left the window.
    have hle := (hpushed.kept key n (hlives'.mem_of_live hlive).1).start_le
    omega
  refine ⟨_, turns, hstep, hunit, ?_, ?_⟩
  · intro k n' hn' hserial
    have hnone := hlives'.live_of_mem hn' hserial
    cases hnone
  · rw [hlives'.reports, hlives.reports]
    rfl

/-- **No flow is lost**, if the timeouts fit into one turn of the wheel. -/
theorem kept_and_ends (hfits : config.Fits ebpf) (hnew : new config id now = .ok start)
    (hcalls : ∀ c ∈ calls, c.1.Regular ebpf) (hrun : Runs.run (step config) start calls = .ok m) :
    ∀ key, ∀ n ∈ m.nodeMap key, m.Kept key n ∧ m.Ends config n := by
  intro key n hn
  have hinv := wheelInv_run hfits hnew hcalls hrun
  obtain ⟨life, hlives, -⟩ := lived_run (u := n.flow.serial) (P := fun _ => True)
    (fun _ _ _ _ => trivial) trivial hnew hrun
  exact ⟨hinv.kept key n hn, hinv.ends hlives hn⟩

end FlowMap

/-! ### Captured packets -/

/-- The packet delay and the timeouts are whole seconds. -/
def Config.WholeSeconds (config : Config) : Prop :=
  second ∣ config.packetDelay ∧ ∀ τ ∈ config.flowTimeout.values, second ∣ τ

theorem Config.WholeSeconds.fits {config : Config} (h : config.WholeSeconds) :
    config.Fits false := by
  intro τ hτ
  have hmem : τ ∈ config.flowTimeout.values := by simpa [Config.timeouts] using hτ
  have hle : τ ≤ config.flowTimeout.max := config.tcpTimeout.le_max τ hmem
  obtain ⟨d, hd⟩ := h.1
  obtain ⟨k, hk⟩ := h.2 _ config.tcpTimeout.max_mem
  have hmax : config.flowTimeout.max = second * k := hk
  have hsize := le_two_pow_powerBits
    (config.packetDelay / second + config.flowTimeout.max / second + 1)
  have hpos : 0 < second := by decide
  rw [hd, hmax, Nat.mul_div_cancel_left _ hpos, Nat.mul_div_cancel_left _ hpos] at hsize
  have hscaled := mul_le_mul_right second hsize
  have hbits : windowBits config = powerBits (d + k + 1) := by
    unfold windowBits
    rw [hd, hmax, Nat.mul_div_cancel_left _ hpos, Nat.mul_div_cancel_left _ hpos]
  rw [hbits, hd]
  rw [add_mul, add_mul, one_mul, mul_comm d, mul_comm k] at hscaled
  omega

/-- **Flows of captured packets.**  With whole seconds in the configuration, in
every run of packets that have a time and of ticks, every flow in the map is
listed for a second of the window, and ends when the window has passed its
timeout. -/
theorem packet_flows_kept {config : Config} {id now : Nat} {start m : FlowMap}
    {calls : List (Call × Env)} (hwhole : config.WholeSeconds)
    (hnew : new config id now = .ok start)
    (hcalls : ∀ c ∈ calls, c.1.Regular false)
    (hrun : Runs.run (FlowMap.step config) start calls = .ok m) :
    ∀ key, ∀ n ∈ m.nodeMap key, m.Kept key n ∧ m.Ends config n :=
  kept_and_ends hwhole.fits hnew hcalls hrun

def timelessFrame : MetaPacket :=
  { packetLen := 60, fromEbpf := captured_fromEbpf, closedByEbpf := captured_closedByEbpf }

def timedFrame : MetaPacket :=
  { lookupKey := { timestamp := 100 * second }, packetLen := 60
    fromEbpf := captured_fromEbpf, closedByEbpf := captured_closedByEbpf }

theorem wholeSeconds_default : Config.WholeSeconds {} := by
  unfold Config.WholeSeconds
  decide

theorem run_of_delivers (config : Config) (calls : List (Call × Env)) (test : FlowMap → Bool)
    (h : delivers (new config 0 (100 * second) >>= fun start =>
      Runs.run (step config) start calls) test = true) :
    ∃ start m, new config 0 (100 * second) = .ok start ∧
      Runs.run (step config) start calls = .ok m ∧ test m = true := by
  obtain ⟨m, hm, htest⟩ := eq_ok_of_delivers h
  obtain ⟨start, hstart, hrun⟩ := bind_eq_ok hm
  exact ⟨start, m, hstart, hrun, htest⟩

/-- The frame of second 100 is listed for that second. -/
theorem packet_flows_kept_frame :
    ∃ start m n, new {} 0 (100 * second) = .ok start ∧
      Runs.run (FlowMap.step {}) start [(.packet timedFrame {}, {})] = .ok m ∧
      n ∈ m.nodeMap ⟨0, 0⟩ ∧ m.Kept ⟨0, 0⟩ n ∧ m.Ends {} n := by
  obtain ⟨start, m, hstart, hrun, htest⟩ := run_of_delivers {} [(.packet timedFrame {}, {})]
    (fun m => !(m.nodeMap ⟨0, 0⟩).isEmpty) (by decide +kernel)
  obtain ⟨n, hn⟩ : ∃ n, n ∈ m.nodeMap ⟨0, 0⟩ := by
    apply exists_mem_of_ne_nil
    simpa using htest
  have hregular : ∀ c ∈ [((.packet timedFrame {}, {}) : Call × Env)], c.1.Regular false := by
    intro c hc
    rw [mem_singleton.mp hc]
    exact ⟨by decide, by decide⟩
  exact ⟨start, m, n, hstart, hrun, hn,
    packet_flows_kept wholeSeconds_default hstart hregular hrun _ n hn⟩

/-- A frame without a time is taken for a tick, and its flow is put down for the
second zero, which the window has left long ago. -/
theorem packet_flow_lost_timeless :
    timelessFrame.signalSource ≠ .ebpf ∧ Config.WholeSeconds {} ∧
      ∃ start m n, new {} 0 (100 * second) = .ok start ∧
        Runs.run (FlowMap.step {}) start
          [(.packet timelessFrame {}, { now := 100 * second })] = .ok m ∧
        n ∈ m.nodeMap ⟨0, 0⟩ ∧ n.timestampKey < m.startTimeInUnit := by
  obtain ⟨start, m, hstart, hrun, htest⟩ := run_of_delivers {}
    [(.packet timelessFrame {}, { now := 100 * second })]
    (fun m => (m.nodeMap ⟨0, 0⟩).any fun n => decide (n.timestampKey < m.startTimeInUnit))
    (by decide +kernel)
  obtain ⟨n, hn, hlt⟩ := any_eq_true.mp htest
  exact ⟨by decide, wholeSeconds_default, start, m, n, hstart, hrun, hn, of_decide_eq_true hlt⟩

/-! ### eBPF data -/

/-- **Flows of eBPF data.**  If all timeouts fit into one turn of the wheel, also
the one that eBPF flows get from the parser configuration, then in every run of
packets that have a time, eBPF data among them, every flow in the map is listed
for a second of the window, and ends when the window has passed its timeout. -/
theorem ebpf_flows_kept {config : Config} {id now : Nat} {start m : FlowMap}
    {calls : List (Call × Env)} (hfits : config.Fits true)
    (hnew : new config id now = .ok start)
    (hcalls : ∀ c ∈ calls, c.1.Regular true)
    (hrun : Runs.run (FlowMap.step config) start calls = .ok m) :
    ∀ key, ∀ n ∈ m.nodeMap key, m.Kept key n ∧ m.Ends config n :=
  kept_and_ends hfits hnew hcalls hrun

def socketKey : FlowMapKey := ⟨0, 5⟩

theorem fits_default : Config.Fits {} true := by
  unfold Config.Fits
  decide +kernel

/-- With the default configuration the flow of a socket is kept. -/
theorem ebpf_flows_kept_socket :
    ∃ start m n, new {} 0 (100 * second) = .ok start ∧
      Runs.run (FlowMap.step {}) start
        [(.packet socketData {}, {}), (.flush (103 * second), {})] = .ok m ∧
      n ∈ m.nodeMap socketKey ∧ m.Kept socketKey n ∧ m.Ends {} n := by
  obtain ⟨start, m, hstart, hrun, htest⟩ := run_of_delivers {}
    [(.packet socketData {}, {}), (.flush (103 * second), {})]
    (fun m => !(m.nodeMap socketKey).isEmpty) (by decide +kernel)
  obtain ⟨n, hn⟩ : ∃ n, n ∈ m.nodeMap socketKey := by
    apply exists_mem_of_ne_nil
    simpa using htest
  have hregular : ∀ c ∈ ([(.packet socketData {}, {}), (.flush (103 * second), {})] :
      List (Call × Env)), c.1.Regular true := by
    intro c hc
    simp only [mem_cons, not_mem_nil, or_false] at hc
    rcases hc with rfl | rfl
    · exact ⟨by decide, fun _ => rfl⟩
    · trivial
  exact ⟨start, m, n, hstart, hrun, hn, ebpf_flows_kept fits_default hstart hregular hrun _ n hn⟩

/-- A parser configuration that waits ten minutes for the answer to a request. -/
def patientConfig : Config := { l7LogSessionAggrMaxTimeout := 600 * second }

/-- The flow is put down for second 700, whose slot is the one of second 188.  When
the window has passed 188, the key is gone from the wheel, and the flow is still
in the map. -/
theorem ebpf_flow_lost_patient :
    ∃ start m n, new patientConfig 0 (100 * second) = .ok start ∧
      Runs.run (FlowMap.step patientConfig) start
        [(.packet socketData {}, {}), (.flush (103 * second), {}),
          (.flush (200 * second), {})] = .ok m ∧
      n ∈ m.nodeMap socketKey ∧ ¬ m.timeSet.Lists n.timestampKey socketKey := by
  obtain ⟨start, m, hstart, hrun, htest⟩ := run_of_delivers patientConfig
    [(.packet socketData {}, {}), (.flush (103 * second), {}), (.flush (200 * second), {})]
    (fun m => (m.nodeMap socketKey).any fun n =>
      decide (socketKey ∉ m.timeSet.slots (m.timeSet.slot n.timestampKey))) (by decide +kernel)
  obtain ⟨n, hn, hnot⟩ := any_eq_true.mp htest
  have hdrained : socketKey ∉ m.timeSet.slots (m.timeSet.slot n.timestampKey) :=
    of_decide_eq_true hnot
  exact ⟨start, m, n, hstart, hrun, hn, hdrained⟩

end ZeroTrace.FlowGenerator
