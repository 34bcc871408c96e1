import ZeroTrace.FlowLives

/-!
# No flow falls off the wheel

Every node carries the second for which its key was put down last.  The flow is
looked at again only if the key is in the slot of that second when the window
gets there.  Slots are drained wholesale and shared by all seconds that are a
turn of the wheel apart, so the invariant is: the second of a node lies in the
window, which is one turn long, and its key is in the slot.

A packet is accepted only between the start of the window and the packet delay
and a second later, so a flow that has not timed out when the window moves is
put down for a second at most the delay, a second and its timeout after the old
start.  The wheel is large enough for that if `Config.Fits`; for captured packets
and timeouts of whole seconds it always is, while the timeout of an eBPF flow
comes from another part of the configuration.
-/

namespace ZeroTrace.FlowGenerator

open Wheels List Function Nat Wheel FlowNode

/-- One turn of the wheel is long enough for all timeouts that a flow can get. -/
def Config.Fits (config : Config) (ebpf : Bool) : Prop :=
  ∀ τ ∈ config.timeouts ebpf,
    config.packetDelay + second + τ ≤ 2 ^ FlowMap.windowBits config * second

namespace FlowMap

/-- The second of the node lies in the window, and the key is listed for it. -/
structure Kept (m : FlowMap) (key : FlowMapKey) (n : FlowNode) : Prop where
  start_le : m.startTimeInUnit ≤ n.timestampKey
  lt_end : n.timestampKey < m.startTimeInUnit + m.timeSet.size
  lists : m.timeSet.Lists n.timestampKey key

/-- Neither the last packet nor the timeout of the node is too far off: counted
from a start of the window. -/
structure Timely (config : Config) (ebpf : Bool) (start size : Nat) (n : FlowNode) : Prop where
  source : n.flow.signalSource = .ebpf → ebpf = true
  recent : n.recentTime < start + config.packetDelay + second
  timeout : config.packetDelay + second + n.timeout ≤ size * second

structure WheelInv (config : Config) (ebpf : Bool) (m : FlowMap) : Prop where
  size : m.timeSet.size = 2 ^ windowBits config
  unit : m.startTimeInUnit = m.startTime / second
  kept : ∀ key, ∀ n ∈ m.nodeMap key, m.Kept key n
  timely : ∀ key, ∀ n ∈ m.nodeMap key, Timely config ebpf m.startTime m.timeSet.size n

/-! ### Times -/

theorem deadline_le (n : FlowNode) : n.deadline ≤ n.recentTime + n.timeout := mod_le _ _

theorem le_deadline_unit {next d : Nat} (h : next * second - 1 < d) : next ≤ d / second := by
  rw [le_div_iff_mul_le (by decide)]
  omega

variable {n : FlowNode}

theorem Timely.deadline_unit_le {config : Config} {ebpf : Bool} {start size : Nat}
    (h : Timely config ebpf start size n) : n.deadline / second ≤ start / second + size := by
  have hdeadline := deadline_le n
  have hrecent := h.recent
  have htimeout := h.timeout
  have hlt : n.deadline < start + size * second := by omega
  rw [← add_mul_div_right start size (by decide)]
  exact Nat.div_le_div_right (Nat.le_of_lt hlt)

/-! ### What a visit does -/

variable {config : Config} {ebpf : Bool} {env : Env} {scan t : Nat} {key : FlowMapKey}

theorem visit_later (h : t < n.timestampKey) : visit config env scan t key n = { node := n } := by
  unfold visit
  rw [if_pos h]

theorem visit_due (config : Config) (env : Env) (scan : Nat) (key : FlowMapKey)
    (h : n.timestampKey ≤ t) (hne : n.timestampKey ≠ n.deadline / second) :
    ∃ n', FlowNode.Reported n n' ∧
      (visit config env scan t key n).node = { n' with timestampKey := n.deadline / second } ∧
      (visit config env scan t key n).moved = some (n.deadline / second) := by
  have hcare := n.reported_updatedAftercare config scan false (env.turns t key n)
  have hdeadline : (n.updatedAftercare config scan false (env.turns t key n)).1.deadline =
      n.deadline := by
    unfold deadline
    rw [hcare.recent, hcare.timeout]
  refine ⟨_, hcare, ?_⟩
  unfold visit
  rw [if_neg (by omega)]
  dsimp only
  rw [hdeadline, hcare.key, if_pos hne]
  exact ⟨rfl, rfl⟩

theorem Timely.of_reported {start size : Nat} {n n' : FlowNode}
    (h : Timely config ebpf start size n) (hn' : FlowNode.Reported n n') (time : Nat) :
    Timely config ebpf start size { n' with timestampKey := time } where
  source := fun hsource => h.source (hn'.same.signalSource.symm.trans hsource)
  recent := hn'.recent ▸ h.recent
  timeout := hn'.timeout ▸ h.timeout

/-! ### Draining a slot -/

/-- Where a node stands while the slot of the second `t` is drained: its second
comes later and its key is listed, or it waits for its key to be scanned, or it
has been moved to a second from `next` on. -/
inductive Place (w : Wheel FlowMapKey) (t next limit : Nat) (waiting : List FlowMapKey)
    (moved : List (Nat × FlowMapKey)) (key : FlowMapKey) (n : FlowNode) : Prop
  | later (h : t < n.timestampKey) (hlt : n.timestampKey < t + w.size)
      (hlimit : n.timestampKey < limit ∨ next ≤ n.timestampKey ∧ n.timestampKey ≤ limit)
      (hlists : w.Lists n.timestampKey key)
  | now (h : n.timestampKey = t) (hkey : key ∈ waiting)
  | moved (h : next ≤ n.timestampKey) (hlimit : n.timestampKey ≤ limit)
      (hmoved : (n.timestampKey, key) ∈ moved)

/-- The invariant of the loop over the keys of a slot. -/
structure Draining (config : Config) (ebpf : Bool) (start next t : Nat) (w : Wheel FlowMapKey)
    (waiting : List FlowMapKey) (s : FlowMap × List (Nat × FlowMapKey)) : Prop where
  wheel : s.1.timeSet = w
  place : ∀ key, ∀ n ∈ s.1.nodeMap key,
    Place w t next (start / second + w.size) waiting s.2 key n
  timely : ∀ key, ∀ n ∈ s.1.nodeMap key, Timely config ebpf start w.size n

variable {start next : Nat} {w : Wheel FlowMapKey} {waiting : List FlowMapKey}
  {s : FlowMap × List (Nat × FlowMapKey)}

theorem place_visit {moved moved' : List (Nat × FlowMapKey)} (hnext : t < next)
    (hplace : Place w t next (start / second + w.size) (key :: waiting) moved key n)
    (htimely : Timely config ebpf start w.size n)
    (hkept : notTimedOut (next * second - 1) t n = true) (hsub : moved ⊆ moved')
    (hmoved : ∀ time, (visit config env (next * second - 1) t key n).moved = some time →
      (time, key) ∈ moved') :
    Place w t next (start / second + w.size) waiting moved' key
        (visit config env (next * second - 1) t key n).node ∧
      Timely config ebpf start w.size (visit config env (next * second - 1) t key n).node := by
  cases hplace with
  | later h hlt hlimit hlists =>
    rw [visit_later h]
    exact ⟨.later h hlt hlimit hlists, htimely⟩
  | now h hkey =>
    -- The node is due and has not timed out, so its deadline lies in the new window.
    have hdeadline : next * second - 1 < n.deadline := by
      simp only [notTimedOut, h, gt_iff_lt, lt_irrefl, decide_false, Bool.false_or,
        decide_eq_true_eq] at hkept
      exact hkept
    have hunit := le_deadline_unit hdeadline
    have hle : n.timestampKey ≤ t := by omega
    have hne : n.timestampKey ≠ n.deadline / second := by omega
    obtain ⟨n', hreported, hnode, htime⟩ := visit_due config env (next * second - 1) key hle hne
    rw [hnode]
    exact ⟨.moved hunit htimely.deadline_unit_le (hmoved _ htime), htimely.of_reported hreported _⟩
  | moved h hlimit hmem =>
    rw [visit_later (by omega)]
    exact ⟨.moved h hlimit (hsub hmem), htimely⟩

theorem Draining.scanKey (hnext : t < next)
    (h : Draining config ebpf start next t w (key :: waiting) s) :
    Draining config ebpf start next t w waiting
      (scanKey config env (next * second - 1) t s key) := by
  obtain ⟨removed, kept, -, hkept, hmap, hmoved⟩ :=
    scanKey_eq config env (next * second - 1) t s key
  have hsub : s.2 ⊆ (FlowMap.scanKey config env (next * second - 1) t s key).2 := by
    rw [hmoved]
    exact subset_append_left _ _
  have hnodes : ∀ k, ∀ n ∈ (FlowMap.scanKey config env (next * second - 1) t s key).1.nodeMap k,
      Place w t next (start / second + w.size) waiting
          (FlowMap.scanKey config env (next * second - 1) t s key).2 k n ∧
        Timely config ebpf start w.size n := by
    intro k n hn
    rw [hmap] at hn
    dsimp only at hn
    by_cases hk : k = key
    · rw [hk, update_self, mem_map] at hn
      obtain ⟨old, hold, rfl⟩ := hn
      have hmem := mem_filter.mp (hkept.mem_iff.mp hold)
      rw [hk]
      refine place_visit hnext (h.place key old hmem.1) (h.timely key old hmem.1) hmem.2 hsub ?_
      intro time htime
      rw [hmoved]
      apply mem_append_right
      rw [mem_filterMap]
      exact ⟨old, hold, by rw [htime]; rfl⟩
    · rw [update_of_ne hk] at hn
      refine ⟨?_, h.timely k n hn⟩
      cases h.place k n hn with
      | later hlater hlt hlimit hlists => exact .later hlater hlt hlimit hlists
      | now hnow hkey => exact .now hnow ((mem_cons.mp hkey).resolve_left hk)
      | moved hle hlimit hmem => exact .moved hle hlimit (hsub hmem)
  refine ⟨?_, fun k n hn => (hnodes k n hn).1, fun k n hn => (hnodes k n hn).2⟩
  rw [hmap]
  exact h.wheel

theorem Draining.scanKeys (env : Env) (hnext : t < next) (keys : List FlowMapKey)
    (h : Draining config ebpf start next t w keys s) :
    Draining config ebpf start next t w []
      (keys.foldl (FlowMap.scanKey config env (next * second - 1) t) s) := by
  induction keys generalizing s with
  | nil => exact h
  | cons key keys ih => exact ih (h.scanKey hnext)

/-! ### Moving the window -/

/-- The invariant of the loop over the slots: all seconds before `t` have been
drained, and no node is left there. -/
structure Sweeping (config : Config) (ebpf : Bool) (start next turn t : Nat) (m : FlowMap) :
    Prop where
  size : m.timeSet.size = turn
  start_le : ∀ key, ∀ n ∈ m.nodeMap key, t ≤ n.timestampKey
  lt_end : ∀ key, ∀ n ∈ m.nodeMap key, n.timestampKey < t + turn
  limit : ∀ key, ∀ n ∈ m.nodeMap key, n.timestampKey < start / second + turn ∨
    next ≤ n.timestampKey ∧ n.timestampKey ≤ start / second + turn
  lists : ∀ key, ∀ n ∈ m.nodeMap key, m.timeSet.Lists n.timestampKey key
  timely : ∀ key, ∀ n ∈ m.nodeMap key, Timely config ebpf start turn n

variable {m m' : FlowMap} {turn : Nat} {timestamp : Nat} {r : FlowMap × Bool}

section Sweep

variable (h : Sweeping config ebpf start next turn t m)

include h

theorem Sweeping.draining (env : Env) :
    Draining config ebpf start next t (m.timeSet.clear t)
      (env.order (m.timeSet.slots (m.timeSet.slot t)))
      ({ m with timeSet := m.timeSet.clear t }, []) := by
  have hsize : (m.timeSet.clear t).size = turn := h.size
  refine ⟨rfl, ?_, ?_⟩
  · intro key n hn
    have hle := h.start_le key n hn
    have hlt := h.lt_end key n hn
    have hlists := h.lists key n hn
    by_cases hnow : n.timestampKey = t
    · refine .now hnow ?_
      rw [(env.perm _).mem_iff, ← hnow]
      exact hlists
    -- Within one turn no other second shares the slot.
    have hslot : m.timeSet.slot n.timestampKey ≠ m.timeSet.slot t := by
      intro heq
      have heq' := eq_of_slot_eq heq.symm hle (by rw [h.size]; exact hlt)
      exact hnow heq'.symm
    refine .later (by omega) ?_ ?_ (hlists.clear hslot)
    · rw [hsize]
      exact hlt
    · rw [hsize]
      exact h.limit key n hn
  · rw [hsize]
    exact h.timely

theorem Sweeping.scanSlot (hnext : t < next) (hstart : start / second ≤ t) :
    Sweeping config ebpf start next turn (t + 1) (scanSlot config env (next * second - 1) m t) := by
  have hdrained := Draining.scanKeys env hnext _ (h.draining env)
  set s := (env.order (m.timeSet.slots (m.timeSet.slot t))).foldl
    (FlowMap.scanKey config env (next * second - 1) t)
    ({ m with timeSet := m.timeSet.clear t }, []) with hs
  have hsize : (m.timeSet.clear t).size = turn := h.size
  have hplace := hdrained.place
  have htimely := hdrained.timely
  rw [hsize] at hplace htimely
  have hscan : FlowMap.scanSlot config env (next * second - 1) m t =
      { s.1 with timeSet := s.1.timeSet.insertAll s.2 } := rfl
  rw [hscan]
  refine ⟨?_, ?_, ?_, ?_, ?_, htimely⟩
  · rw [size_insertAll, hdrained.wheel]
    exact hsize
  · intro key n hn
    cases hplace key n hn with
    | later hlater _ _ _ => exact hlater
    | now _ hkey => cases hkey
    | moved hle _ _ => omega
  · intro key n hn
    cases hplace key n hn with
    | now _ hkey => cases hkey
    | _ => omega
  · intro key n hn
    cases hplace key n hn with
    | later _ _ hlimit _ => exact hlimit
    | now _ hkey => cases hkey
    | moved hle hlimit _ => exact .inr ⟨hle, hlimit⟩
  · intro key n hn
    cases hplace key n hn with
    | later _ _ _ hlists =>
      rw [← hdrained.wheel] at hlists
      exact hlists.insertAll s.2
    | now _ hkey => cases hkey
    | moved _ _ hmoved => exact lists_insertAll _ hmoved

theorem Sweeping.scanSlots (env : Env) (k : Nat) (hnext : t + k ≤ next)
    (hstart : start / second ≤ t) :
    Sweeping config ebpf start next turn (t + k)
      ((List.range' t k).foldl (FlowMap.scanSlot config env (next * second - 1)) m) := by
  induction k generalizing t m with
  | zero => exact h
  | succ k ih =>
    rw [range'_succ, foldl_cons, add_comm k 1, ← add_assoc]
    exact ih (h.scanSlot (by omega) hstart) (by omega) (by omega)

end Sweep

/-- **Pushing the window keeps the invariant.** -/
theorem WheelInv.push (h : WheelInv config ebpf m) (env : Env)
    (hnext : m.startTime < next * second) :
    WheelInv config ebpf (m.push config env next (next * second - 1)) := by
  obtain ⟨hstart, hunit⟩ := push_start config env (next * second - 1) m next
  have hlt : m.startTimeInUnit < next := by
    rw [h.unit, div_lt_iff_lt_mul (by decide)]
    exact hnext
  have hsweep : Sweeping config ebpf m.startTime next m.timeSet.size m.startTimeInUnit
      { m with startTime := next * second } := by
    refine ⟨rfl, ?_, ?_, ?_, ?_, h.timely⟩
    · intro key n hn
      exact (h.kept key n hn).start_le
    · intro key n hn
      exact (h.kept key n hn).lt_end
    · intro key n hn
      rw [← h.unit]
      exact .inl (h.kept key n hn).lt_end
    · intro key n hn
      exact (h.kept key n hn).lists
  have hswept := hsweep.scanSlots env
    (min next (m.startTimeInUnit + m.timeSet.size) - m.startTimeInUnit) (by omega)
    (le_of_eq h.unit.symm)
  have hsize : (m.push config env next (next * second - 1)).timeSet.size = m.timeSet.size :=
    hswept.size
  refine ⟨hsize.trans h.size, ?_, ?_, ?_⟩
  · rw [hstart, hunit, Nat.mul_div_cancel _ (by decide)]
  · intro key n hn
    have hle := hswept.start_le key n hn
    have hlimit := hswept.limit key n hn
    rw [← h.unit] at hlimit
    -- If the window jumps by more than a turn, all old seconds have been drained.
    refine ⟨?_, ?_, hswept.lists key n hn⟩
    · rw [hunit]
      omega
    · rw [hunit, hsize]
      omega
  · intro key n hn
    have htimely := hswept.timely key n hn
    refine ⟨htimely.source, ?_, ?_⟩
    · have hrecent := htimely.recent
      rw [hstart]
      omega
    · rw [hsize]
      exact htimely.timeout

theorem startTime_lt_next {time : Nat} (h : m.startTime + config.packetDelay + second ≤ time) :
    m.startTime < (time - config.packetDelay) / second * second := by
  have hlt : time - config.packetDelay <
      (time - config.packetDelay) / second * second + second :=
    lt_div_mul_add (by decide)
  omega

theorem WheelInv.flush (h : WheelInv config ebpf m) (hflush : FlushStep config env m timestamp r) :
    WheelInv config ebpf r.1 := by
  cases hflush with
  | pushed _ hlate => exact h.push env (startTime_lt_next hlate)
  | _ => exact h

theorem punctual_of_flush (hne : timestamp ≠ 0)
    (hflush : FlushStep config env m timestamp r) (hr : r.2 = true) :
    r.1.startTime ≤ timestamp ∧ timestamp < r.1.startTime + config.packetDelay + second := by
  have htime : env.time timestamp = timestamp := if_neg hne
  cases hflush with
  | dropped _ _ => cases hr
  | kept h hlate =>
    rw [htime] at hlate
    exact ⟨h hne, hlate⟩
  | pushed h hlate =>
    rw [htime] at hlate ⊢
    obtain ⟨hstart, -⟩ := push_start config env
      ((timestamp - config.packetDelay) / second * second - 1) m
      ((timestamp - config.packetDelay) / second)
    have hle := div_mul_le_self (timestamp - config.packetDelay) second
    have hlt : timestamp - config.packetDelay <
        (timestamp - config.packetDelay) / second * second + second :=
      lt_div_mul_add (by decide)
    rw [hstart]
    constructor <;> omega

/-! ### Packets -/

theorem room_of_fits (h : config.Fits ebpf) :
    config.packetDelay + second + 2 * second ≤ 2 ^ windowBits config * second := by
  apply h
  apply mem_timeouts
  simp [FlowTimeout.values, Config.flowTimeout, TcpTimeout.flowTimeout]

theorem WheelInv.unit_mem (h : WheelInv config ebpf m) (hfits : config.Fits ebpf)
    (hle : m.startTime ≤ timestamp) (hlt : timestamp < m.startTime + config.packetDelay + second) :
    m.startTimeInUnit ≤ timestamp / second ∧
      timestamp / second < m.startTimeInUnit + m.timeSet.size := by
  have hroom := room_of_fits hfits
  have hstart : m.startTime < m.startTime / second * second + second :=
    lt_div_mul_add (by decide)
  rw [h.unit, h.size]
  constructor
  · exact Nat.div_le_div_right hle
  · rw [div_lt_iff_lt_mul (by decide), add_mul]
    omega

theorem WheelInv.setNodes (h : WheelInv config ebpf m) {nodes : List FlowNode}
    (hstart : m'.startTime = m.startTime) (hunit : m'.startTimeInUnit = m.startTimeInUnit)
    (hsize : m'.timeSet.size = m.timeSet.size)
    (hlists : ∀ {t k}, m.timeSet.Lists t k → m'.timeSet.Lists t k)
    (hmap : m'.nodeMap = update m.nodeMap key nodes)
    (hnodes : ∀ n ∈ nodes, n ∈ m.nodeMap key ∨
      m'.Kept key n ∧ Timely config ebpf m.startTime m.timeSet.size n) :
    WheelInv config ebpf m' := by
  have hall : ∀ k, ∀ n ∈ m'.nodeMap k, m'.Kept k n ∧
      Timely config ebpf m.startTime m.timeSet.size n := by
    intro k n hn
    have hold : n ∈ m.nodeMap k → m'.Kept k n ∧
        Timely config ebpf m.startTime m.timeSet.size n := by
      intro hmem
      have hkept := h.kept k n hmem
      refine ⟨⟨?_, ?_, hlists hkept.lists⟩, h.timely k n hmem⟩
      · rw [hunit]
        exact hkept.start_le
      · rw [hunit, hsize]
        exact hkept.lt_end
    rw [hmap] at hn
    by_cases hk : k = key
    · rw [hk, update_self] at hn
      rw [hk] at hold ⊢
      rcases hnodes n hn with hmem | hnew
      · exact hold hmem
      · exact hnew
    · rw [update_of_ne hk] at hn
      exact hold hn
  refine ⟨hsize.trans h.size, ?_, fun k n hn => (hall k n hn).1, ?_⟩
  · rw [hunit, hstart]
    exact h.unit
  · rw [hstart, hsize]
    exact fun k n hn => (hall k n hn).2

theorem Timely.of_evolves {start : Nat} {old n : FlowNode} {times : List Nat}
    {packets : List MetaPacket} (hfits : config.Fits ebpf)
    (h : Timely config ebpf start (2 ^ windowBits config) old)
    (hevolves : Evolves config ebpf times packets old n)
    (htimes : ∀ time ∈ times, time < start + config.packetDelay + second) (time : Nat) :
    Timely config ebpf start (2 ^ windowBits config) { n with timestampKey := time } := by
  refine ⟨?_, ?_, ?_⟩
  · intro hsource
    exact h.source (hevolves.same.signalSource.symm.trans hsource)
  · change n.recentTime < _
    rw [hevolves.recent]
    exact foldlRecOn (motive := (· < _)) times max h.recent fun a ha x hx =>
      Nat.max_lt.mpr ⟨ha, htimes x hx⟩
  · change config.packetDelay + second + n.timeout ≤ _
    rcases hevolves.timeout with heq | hmem
    · rw [heq]
      exact h.timeout
    · exact hfits _ hmem

/-- **A packet keeps the invariant.** -/
theorem WheelInv.packetStep (hfits : config.Fits ebpf) (h : WheelInv config ebpf m)
    {packet : MetaPacket} (hle : m.startTime ≤ packet.lookupKey.timestamp)
    (hlt : packet.lookupKey.timestamp < m.startTime + config.packetDelay + second)
    (hsource : packet.signalSource = .ebpf → ebpf = true)
    (hstep : PacketStep config m key packet m') : WheelInv config ebpf m' := by
  obtain ⟨hunit_le, hunit_lt⟩ := h.unit_mem hfits hle hlt
  cases hstep with
  | ignored totalFlow count =>
    refine ⟨h.size, h.unit, ?_, h.timely⟩
    intro k n hn
    obtain ⟨hstart, hend, hlists⟩ := h.kept k n hn
    exact ⟨hstart, hend, hlists⟩
  | @created p answers flowId n totalFlow hp hroom hnew =>
    have hevolves : Evolves config ebpf [] [] _ n :=
      evolves_new hnew fun hebpf => hsource (hp.signalSource.symm.trans hebpf)
    have hkey : n.timestampKey = packet.lookupKey.timestamp / second := by
      rw [hevolves.key]
      exact congrArg (· / second) hp.timestamp
    have hfirst : Timely config ebpf m.startTime (2 ^ windowBits config)
        (ofPacket p m.serials flowId) := by
      refine ⟨fun hebpf => hsource (hp.signalSource.symm.trans hebpf), ?_, ?_⟩
      · change p.lookupKey.timestamp < _
        rw [hp.timestamp]
        exact hlt
      · have hroom := room_of_fits hfits
        change config.packetDelay + second + 0 ≤ _
        omega
    have htimely := hfirst.of_evolves hfits hevolves nofun n.timestampKey
    refine h.setNodes rfl rfl rfl (fun hlists => hlists.insert _ _) rfl ?_
    intro n₁ hn₁
    rcases mem_append.mp hn₁ with hmem | hmem
    · exact .inl hmem
    rw [mem_singleton.mp hmem]
    refine .inr ⟨⟨?_, ?_, lists_insert_self _ _ _⟩, ?_⟩
    · rw [hkey]
      exact hunit_le
    · rw [hkey]
      exact hunit_lt
    · rw [h.size]
      exact htimely
  | @updated index old n p answers turns hp hold hupdate =>
    rw [keepNode_eq]
    have hmem := mem_of_getElem? hold
    have hcare := old.reported_updatedAftercare config packet.lookupKey.timestamp true turns
    have hreported := (h.timely key old hmem).of_reported hcare
      (old.updatedAftercare config packet.lookupKey.timestamp true turns).1.timestampKey
    rw [h.size] at hreported
    have hebpf : (old.updatedAftercare config packet.lookupKey.timestamp true
        turns).1.flow.signalSource = .ebpf ∨ p.signalSource = .ebpf → ebpf = true := by
      rintro (hnode | hpacket)
      · exact hreported.source hnode
      · exact hsource (hp.signalSource.symm.trans hpacket)
    obtain ⟨times, packets, hevolves, htimes, -⟩ :=
      (handles_update hupdate hebpf).1.evolves
    have hpunctual : ∀ time ∈ times, time < m.startTime + config.packetDelay + second := by
      intro time htime
      rcases htimes with rfl | ⟨rfl, -⟩
      · rw [mem_singleton.mp htime, hp.timestamp]
        exact hlt
      · cases htime
    have htimely := hreported.of_evolves hfits hevolves hpunctual
      (packet.lookupKey.timestamp / second)
    refine h.setNodes rfl rfl ?_ ?_ rfl ?_
    · split <;> rfl
    · intro t k hlists
      split
      · exact hlists
      · exact hlists.insert _ _
    intro n₁ hn₁
    rcases mem_or_eq_of_mem_set hn₁ with hmem₁ | rfl
    · exact .inl hmem₁
    refine .inr ⟨⟨hunit_le, ?_, ?_⟩, ?_⟩
    · split <;> exact hunit_lt
    · split
      next hsame =>
        rw [← hsame, hevolves.key, hcare.key]
        exact (h.kept key old hmem).lists
      · exact lists_insert_self _ _ _
    · rw [h.size]
      exact htimely

end FlowMap

end ZeroTrace.FlowGenerator
