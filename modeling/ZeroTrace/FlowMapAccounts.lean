import Mathlib.Data.Finite.Prod
import ZeroTrace.FlowReports
import ZeroTrace.TableValues

/-!
# The accounts of the flow map

The nodes of the flow map stand in one vector per key, and how many there are is counted
besides: `size` limits the map to its capacity, and two counters say how many flows were
created and closed.  The counters are changed apart from the vectors, on the paths that create
a node, remove one, or remove those that have timed out.
-/

namespace ZeroTrace.FlowGenerator

open RustExec Function List

instance : Finite FlowMapKey :=
  Finite.of_injective (fun key => (key.lhs.toFin, key.rhs.toFin)) (by
    rintro ⟨lhs, rhs⟩ ⟨lhs', rhs'⟩ h
    rw [Prod.mk.injEq, BitVec.toFin_inj, BitVec.toFin_inj] at h
    obtain ⟨rfl, rfl⟩ := h
    rfl)

namespace FlowMap

/-- The number of nodes stored under all keys. -/
noncomputable def stored (m : FlowMap) : Nat := ∑ᶠ key, (m.nodeMap key).length

structure Exact (config : Config) (m : FlowMap) : Prop where
  size : m.size = m.stored
  capacity : m.size ≤ config.capacity
  nonneg : m.belowZero = false
  counted : m.counter.new = m.counter.closed + m.stored

variable {config : Config} {env : Env} {m m' : FlowMap} {key : FlowMapKey} {nodes : List FlowNode}

theorem stored_update (h : m'.nodeMap = update m.nodeMap key nodes) :
    m'.stored + (m.nodeMap key).length = m.stored + nodes.length := by
  have hlength : (fun k => (m'.nodeMap k).length) =
      update (fun k => (m.nodeMap k).length) key nodes.length := by
    rw [h]
    exact comp_update length m.nodeMap key nodes
  unfold stored
  rw [hlength]
  exact Tables.finsum_update _ key nodes.length

theorem Exact.congr (h : Exact config m) (hnodes : m'.nodeMap = m.nodeMap)
    (hsize : m'.size = m.size) (hbelow : m'.belowZero = m.belowZero)
    (hcounter : ∃ n, m'.counter = ⟨m.counter.new + n, m.counter.closed + n⟩) : Exact config m' := by
  obtain ⟨n, hcounter⟩ := hcounter
  have hstored : m'.stored = m.stored := by
    unfold stored
    rw [hnodes]
  have hcounted := h.counted
  refine ⟨?_, ?_, hbelow.trans h.nonneg, ?_⟩
  · rw [hsize, hstored]
    exact h.size
  · rw [hsize]
    exact h.capacity
  · rw [hcounter, hstored]
    dsimp only
    omega

theorem Exact.remove (h : Exact config m) (key : FlowMapKey) {n : Nat}
    (hnodes : m'.nodeMap = update m.nodeMap key nodes)
    (hlength : nodes.length + n = (m.nodeMap key).length) (hsize : m'.size = m.size - n)
    (hbelow : m'.belowZero = (m.belowZero || decide (m.size < n)))
    (hcounter : m'.counter = { m.counter with closed := m.counter.closed + n }) :
    Exact config m' := by
  have hstored := stored_update hnodes
  have hold := h.size
  have hcapacity := h.capacity
  have hcounted := h.counted
  refine ⟨by omega, by omega, ?_, ?_⟩
  · rw [hbelow, h.nonneg, Bool.false_or, decide_eq_false_iff_not]
    omega
  · rw [hcounter]
    dsimp only
    omega

theorem Exact.create (h : Exact config m) {n : FlowNode} (hroom : m.size < config.capacity)
    (hnodes : m'.nodeMap = update m.nodeMap key (m.nodeMap key ++ [n]))
    (hsize : m'.size = m.size + 1) (hbelow : m'.belowZero = m.belowZero)
    (hcounter : m'.counter = { m.counter with new := m.counter.new + 1 }) : Exact config m' := by
  have hstored := stored_update hnodes
  rw [length_append, length_singleton] at hstored
  have hold := h.size
  have hcounted := h.counted
  refine ⟨by omega, by omega, hbelow.trans h.nonneg, ?_⟩
  rw [hcounter]
  dsimp only
  omega

/-! ### Draining the wheel -/

variable {scan t : Nat}

theorem Exact.scanKey {s : FlowMap × List (Nat × FlowMapKey)} (h : Exact config s.1)
    (key : FlowMapKey) : Exact config (scanKey config env scan t s key).1 := by
  obtain ⟨removed, kept, hremoved, hkept, hmap, -⟩ := scanKey_eq config env scan t s key
  have hlength : (s.1.nodeMap key).length = kept.length + removed.length := by
    rw [hremoved.length_eq, hkept.length_eq]
    exact length_eq_length_filter_add _
  rw [hmap]
  refine h.remove key rfl ?_ rfl rfl rfl
  rw [length_map]
  exact hlength.symm

section

variable (h : Exact config m)

include h

theorem Exact.push (next : Nat) : Exact config (m.push config env next scan) := by
  refine push_rule config env scan m ?_ ?_ h next
  · exact fun t s key hs => hs.scanKey key
  · exact fun m _ _ _ hm => hm.congr rfl rfl rfl ⟨0, rfl⟩

theorem Exact.flush {timestamp : Nat} {r : FlowMap × Bool}
    (hflush : FlushStep config env m timestamp r) : Exact config r.1 := by
  cases hflush with
  | pushed _ _ => exact h.push _
  | _ => exact h

/-! ### Packets and runs -/

theorem Exact.packetStep {packet : MetaPacket} (hstep : PacketStep config m key packet m') :
    Exact config m' := by
  cases hstep with
  | ignored totalFlow count => exact h.congr rfl rfl rfl ⟨count, rfl⟩
  | created totalFlow hp hroom hnew => exact h.create hroom.2 rfl rfl rfl rfl
  | @updated index old n p answers turns hp hold hupdate =>
    rw [keepNode_eq]
    refine h.remove key (n := 0) rfl ?_ (Int.sub_zero _).symm ?_ rfl
    · exact length_set
    · have hsize := h.size
      change m.belowZero = _
      rw [decide_eq_false (by omega), Bool.or_false]

/-- **A call keeps the accounts exact.** -/
theorem Exact.step {c : Call × Env} (hstep : step config m c = .ok m') : Exact config m' := by
  obtain ⟨timestamp, r, hflush, rfl | ⟨packet, answers, key, -, -, -, hpacket⟩⟩ := step_cases hstep
  · exact h.flush hflush
  · exact (h.flush hflush).packetStep hpacket

end

theorem exact_new {id now : Nat} (h : new config id now = .ok m) : Exact config m := by
  obtain ⟨late, -, h⟩ := bind_eq_ok h
  obtain ⟨start, -, h⟩ := bind_eq_ok h
  cases h
  have hstored : ∀ m : FlowMap, m.nodeMap = (fun _ => []) → m.stored = 0 := by
    intro m hm
    unfold stored
    rw [hm]
    exact finsum_zero
  refine ⟨?_, Int.natCast_nonneg _, rfl, ?_⟩
  · rw [hstored _ rfl]
    rfl
  · rw [hstored _ rfl]

/-- **The accounts of the flow map are exact** after every run of packets and ticks. -/
theorem accounts_exact {id now : Nat} {start : FlowMap} {calls : List (Call × Env)}
    (hnew : new config id now = .ok start)
    (hrun : Runs.run (FlowMap.step config) start calls = .ok m) : Exact config m :=
  Runs.run_induction (J := Exact config) (Q := fun _ => True)
    (fun _ _ _ hs _ hok => hs.step hok) (exact_new hnew) (fun _ _ => trivial) hrun

/-- The first of two frames creates a flow, which a late tick closes. -/
theorem accounts_exact_frames :
    ∃ start m, FlowMap.new quickConfig 0 (100 * second) = .ok start ∧
      Runs.run (FlowMap.step quickConfig) start quickCalls = .ok m ∧
      m.counter = ⟨1, 1⟩ ∧ Exact quickConfig m := by
  have hrun : delivers
      (new quickConfig 0 (100 * second) >>= fun start =>
        Runs.run (step quickConfig) start quickCalls)
      (fun m => m.counter == ⟨1, 1⟩) = true := by
    decide +kernel
  obtain ⟨m, hm, htest⟩ := eq_ok_of_delivers hrun
  obtain ⟨start, hstart, hcalls⟩ := bind_eq_ok hm
  exact ⟨start, m, hstart, hcalls, beq_iff_eq.mp htest, accounts_exact hstart hcalls⟩

end FlowMap

end ZeroTrace.FlowGenerator
