import ZeroTrace.FlowMapSteps

/-!
# The lives of the flows

The flow map handles many flows at once, but each of them lives for itself.  The
`Life` of a flow has its reports, the packets that were given to it, and its
node with the key it is filed under, as long as it has one.  Nothing that the
map does to other flows touches it: a scan of a key acts on the lives of the
flows under that key, one by one, and a packet gives birth to one flow or goes
on with one.

`Lives m u life` says that `life` is what the map `m` has of flow number `u`,
and `lives_run` that every run of the map is, for each flow, a sequence of
`LifeStep`s.  What is to be shown about the reports on a flow is shown there.
-/

namespace ZeroTrace.FlowGenerator

open RustExec List FlowMap Function

structure Life where
  reports : List Flow := []
  injected : List MetaPacket := []
  live : Option (FlowMapKey × FlowNode) := none

namespace Life

/-- The node of the flow, if it is filed under the key. -/
def nodesAt (life : Life) (key : FlowMapKey) : List FlowNode :=
  match life.live with
  | some (k, n) => if k = key then [n] else []
  | none => []

/-- What the scan of a key does to a flow: it ends if it is filed there and has
timed out, and is visited if it has not. -/
def scan (config : Config) (env : Env) (scan t : Nat) (key : FlowMapKey) (life : Life) : Life :=
  match life.live with
  | some (k, n) =>
    if k = key then
      if notTimedOut scan t n then
        { life with
          reports := life.reports ++ (visit config env scan t key n).reports
          live := some (k, (visit config env scan t key n).node) }
      else
        { life with
          reports := life.reports ++ [n.removedAftercare n.deadline (env.turns t key n)]
          live := none }
    else life
  | none => life

theorem length_nodesAt_le (life : Life) (key : FlowMapKey) : (life.nodesAt key).length ≤ 1 := by
  unfold nodesAt
  grind

section Scan

variable (config : Config) (env : Env) (time t : Nat) (key : FlowMapKey) (life : Life)

theorem scan_injected : (life.scan config env time t key).injected = life.injected := by
  unfold scan
  grind

theorem scan_reports :
    (life.scan config env time t key).reports = life.reports ++
      (((life.nodesAt key).filter fun n => !notTimedOut time t n).map fun n =>
        n.removedAftercare n.deadline (env.turns t key n)) ++
      ((life.nodesAt key).filter (notTimedOut time t)).flatMap fun n =>
        (visit config env time t key n).reports := by
  unfold scan nodesAt
  cases hlive : life.live with
  | none => simp
  | some entry =>
    by_cases hkey : entry.1 = key
    · cases hdue : notTimedOut time t entry.2 <;> simp [hkey, hdue]
    · simp [hkey]

theorem scan_nodesAt_self :
    (life.scan config env time t key).nodesAt key =
      ((life.nodesAt key).filter (notTimedOut time t)).map fun n =>
        (visit config env time t key n).node := by
  unfold scan
  cases hlive : life.live with
  | none => simp [nodesAt, hlive]
  | some entry =>
    by_cases hkey : entry.1 = key
    · cases hdue : notTimedOut time t entry.2 <;> simp [nodesAt, hlive, hkey, hdue]
    · simp [nodesAt, hlive, hkey]

theorem scan_nodesAt_other {k : FlowMapKey} (h : k ≠ key) :
    (life.scan config env time t key).nodesAt k = life.nodesAt k := by
  unfold scan
  cases hlive : life.live with
  | none => simp [nodesAt, hlive]
  | some entry =>
    by_cases hkey : entry.1 = key
    · cases hdue : notTimedOut time t entry.2 <;> simp [nodesAt, hlive, hkey, hdue, Ne.symm h]
    · simp [nodesAt, hlive, hkey]

end Scan

end Life

/-- One step in the life of flow number `u`. -/
inductive LifeStep (config : Config) (u : Nat) : Life → Life → Prop
  | scanned (env : Env) (scan t : Nat) (key : FlowMapKey) (life : Life) :
      LifeStep config u life (life.scan config env scan t key)
  | born {p : MetaPacket} {answers : Answers} {flowId : BitVec 64} {n : FlowNode}
      (key : FlowMapKey) (h : FlowNode.new config p answers u flowId = .ok n) :
      LifeStep config u {} { injected := [p], live := some (key, n) }
  | handled {life : Life} {key : FlowMapKey} {old n : FlowNode} {p : MetaPacket}
      {answers : Answers} (timestamp time : Nat) (turns : Bool)
      (hlive : life.live = some (key, old))
      (h : (old.updatedAftercare config timestamp true turns).1.update config p answers =
        .ok (n, false)) :
      LifeStep config u life
        { reports := life.reports ++ (old.updatedAftercare config timestamp true turns).2
          injected := life.injected ++ [p]
          live := some (key, { n with timestampKey := time }) }

/-! ### Filters that leave at most one element -/

section Filter

variable {α β : Type*} {xs ys : List α} {p q : α → Bool} {i : Nat}

theorem filter_map_of (xs : List α) (p : α → Bool) (r : β → Bool) {f : α → β}
    (hf : ∀ x, r (f x) = p x) : (xs.map f).filter r = (xs.filter p).map f := by
  rw [filter_map]
  congr 2
  funext x
  exact hf x

theorem filter_flatMap_of (xs : List α) (p : α → Bool) (r : β → Bool) {g : α → List β}
    (hg : ∀ x, ∀ y ∈ g x, r y = p x) : (xs.flatMap g).filter r = (xs.filter p).flatMap g := by
  induction xs with
  | nil => rfl
  | cons x xs ih =>
    rw [flatMap_cons, filter_append, ih, filter_cons]
    cases hp : p x with
    | true =>
      have hall : (g x).filter r = g x := filter_eq_self.mpr fun y hy => by rw [hg x y hy, hp]
      simp [hall]
    | false =>
      have hnone : (g x).filter r = [] := filter_eq_nil_iff.mpr fun y hy => by simp [hg x y hy, hp]
      simp [hnone]

theorem filter_eq_of_perm (h : xs.Perm (ys.filter q)) (hone : (ys.filter p).length ≤ 1) :
    xs.filter p = (ys.filter p).filter q := by
  have hperm := h.filter p
  rw [filter_comm] at hperm
  cases hone' : ys.filter p with
  | nil =>
    rw [hone'] at hperm
    exact hperm.eq_nil
  | cons a as =>
    rw [hone', length_cons] at hone
    have has : as = [] := eq_nil_of_length_eq_zero (by omega)
    rw [hone', has] at hperm
    rw [has]
    cases hq : q a with
    | true =>
      simp only [filter_cons, hq, if_true, filter_nil] at hperm ⊢
      exact perm_singleton.mp hperm
    | false =>
      simp only [filter_cons, hq, filter_nil] at hperm ⊢
      exact hperm.eq_nil

theorem filter_set_of_neg {x y : α} (hx : xs[i]? = some x) (hpx : p x = false)
    (hpy : p y = false) : (xs.set i y).filter p = xs.filter p := by
  obtain ⟨hi, rfl⟩ := List.getElem?_eq_some_iff.mp hx
  obtain ⟨as, bs, hxs, -, hset⟩ := @exists_of_set _ _ y xs hi
  rw [hset, congrArg (filter p) hxs, filter_append, filter_append]
  simp [hpx, hpy]

theorem filter_set_of_pos {x y z : α} (hx : xs[i]? = some x) (hpx : p x = true)
    (hpy : p y = true) (hone : xs.filter p = [z]) : (xs.set i y).filter p = [y] := by
  obtain ⟨hi, rfl⟩ := List.getElem?_eq_some_iff.mp hx
  obtain ⟨as, bs, hxs, -, hset⟩ := @exists_of_set _ _ y xs hi
  rw [hxs, filter_append, filter_cons_of_pos hpx] at hone
  rcases append_eq_singleton_iff.mp hone with ⟨has, hbs⟩ | ⟨-, hbs⟩
  · rw [hset, filter_append, filter_cons_of_pos hpy, has, (List.cons.inj hbs).2]
    rfl
  · cases hbs

end Filter

/-! ### The lives that a map has -/

namespace FlowMap

/-- The reports on flow number `u`, in their order. -/
def reportsOf (m : FlowMap) (u : Nat) : List Flow := m.reports.filter fun r => r.serial == u

/-- The packets given to flow number `u`, in their order. -/
def injectedOf (m : FlowMap) (u : Nat) : List MetaPacket :=
  (m.injected.filter fun i => i.1 == u).map Prod.snd

/-- What the map has of flow number `u`. -/
structure Lives (m : FlowMap) (u : Nat) (life : Life) : Prop where
  reports : m.reportsOf u = life.reports
  injected : m.injectedOf u = life.injected
  nodes : ∀ key, (m.nodeMap key).filter (fun n => n.flow.serial == u) = life.nodesAt key
  unborn : m.serials ≤ u → life = {}

variable {config : Config} {env : Env} {m m' : FlowMap} {u : Nat} {life : Life} {scan t : Nat}
  {key : FlowMapKey}

theorem Lives.congr (h : m.Lives u life) (hnodes : m'.nodeMap = m.nodeMap)
    (hreports : m'.reports = m.reports) (hinjected : m'.injected = m.injected)
    (hserials : m'.serials = m.serials) : m'.Lives u life := by
  refine ⟨?_, ?_, ?_, ?_⟩
  · rw [reportsOf, hreports]
    exact h.reports
  · rw [injectedOf, hinjected]
    exact h.injected
  · rw [hnodes]
    exact h.nodes
  · rw [hserials]
    exact h.unborn

variable {n : FlowNode} {timestamp : Nat}

theorem Lives.live_of_mem (h : m.Lives u life) (hn : n ∈ m.nodeMap key) (hu : n.flow.serial = u) :
    life.live = some (key, n) := by
  have hmem : n ∈ life.nodesAt key := by
    rw [← h.nodes key]
    exact mem_filter.mpr ⟨hn, by simp [hu]⟩
  unfold Life.nodesAt at hmem
  grind

theorem Lives.mem_of_live (h : m.Lives u life) (hlive : life.live = some (key, n)) :
    n ∈ m.nodeMap key ∧ n.flow.serial = u := by
  have hmem : n ∈ (m.nodeMap key).filter fun n => n.flow.serial == u := by
    rw [h.nodes key, Life.nodesAt, hlive]
    simp
  simpa using hmem

/-! ### Scans -/

theorem updatedAftercare_serial {onPacket turns : Bool} :
    ∀ r ∈ (n.updatedAftercare config timestamp onPacket turns).2, r.serial = n.flow.serial := by
  intro r hr
  rw [FlowNode.updatedAftercare_reports hr]
  exact n.updateFlowDirection_serial turns

theorem visit_serial (config : Config) (env : Env) (scan t : Nat) (key : FlowMapKey)
    (n : FlowNode) :
    (visit config env scan t key n).node.flow.serial = n.flow.serial ∧
      ∀ r ∈ (visit config env scan t key n).reports, r.serial = n.flow.serial := by
  have hcare := (n.reported_updatedAftercare config scan false (env.turns t key n)).same.serial
  unfold visit
  split
  · exact ⟨rfl, fun r hr => by cases hr⟩
  · dsimp only
    split <;> exact ⟨hcare, updatedAftercare_serial⟩

/-- **A scan acts on the life of each flow.** -/
theorem Lives.scanKey {s : FlowMap × List (Nat × FlowMapKey)} (h : s.1.Lives u life) :
    (scanKey config env scan t s key).1.Lives u (life.scan config env scan t key) := by
  obtain ⟨removed, kept, hremoved, hkept, hmap, -⟩ := scanKey_eq config env scan t s key
  have hone : ((s.1.nodeMap key).filter fun n => n.flow.serial == u).length ≤ 1 := by
    rw [h.nodes key]
    exact life.length_nodesAt_le key
  have hkept' := filter_eq_of_perm hkept hone
  have hremoved' := filter_eq_of_perm hremoved hone
  rw [h.nodes key] at hkept' hremoved'
  have hvisit := visit_serial config env scan t key
  rw [hmap]
  refine ⟨?_, ?_, ?_, ?_⟩
  · have hlast := filter_map_of removed (fun n => n.flow.serial == u) (fun r => r.serial == u)
      (f := fun n => n.removedAftercare n.deadline (env.turns t key n)) fun n => by
        rw [FlowNode.removedAftercare, n.updateFlowDirection_serial]
    have hvisits := filter_flatMap_of kept (fun n => n.flow.serial == u) (fun r => r.serial == u)
      (g := fun n => (visit config env scan t key n).reports) fun n r hr => by
        rw [(hvisit n).2 r hr]
    rw [reportsOf, filter_append, filter_append, hlast, hvisits, hkept', hremoved',
      Life.scan_reports, ← h.reports, reportsOf]
  · rw [Life.scan_injected]
    exact h.injected
  · intro k
    dsimp only
    by_cases hk : k = key
    · have hnodes := filter_map_of kept (fun n => n.flow.serial == u) (fun n => n.flow.serial == u)
        (f := fun n => (visit config env scan t key n).node) fun n => by rw [(hvisit n).1]
      rw [hk, update_self, hnodes, hkept', Life.scan_nodesAt_self]
    · rw [update_of_ne hk, Life.scan_nodesAt_other _ _ _ _ _ _ hk]
      exact h.nodes k
  · intro hserials
    rw [h.unborn hserials]
    rfl

/-- The life that the map has of flow number `u` has the property. -/
def Lived (m : FlowMap) (u : Nat) (P : Life → Prop) : Prop := ∃ life, m.Lives u life ∧ P life

variable {P : Life → Prop}

theorem Lived.push (hP : ∀ t key life, P life → P (life.scan config env scan t key))
    (h : m.Lived u P) (next : Nat) : (push config env m next scan).Lived u P := by
  refine push_rule (P := (Lived · u P)) config env scan m ?_ ?_ h next
  · rintro t s key ⟨life, hlives, hlife⟩
    exact ⟨_, hlives.scanKey, hP t key life hlife⟩
  · rintro m timeSet startTime startTimeInUnit ⟨life, hlives, hlife⟩
    exact ⟨life, hlives.congr rfl rfl rfl rfl, hlife⟩

/-! ### Packets -/

variable {p : MetaPacket} {nodes : List FlowNode} {answers : Answers} {rs : List Flow}

theorem new_serial {serial : Nat} {flowId : BitVec 64}
    (h : FlowNode.new config p answers serial flowId = .ok n) : n.flow.serial = serial := by
  have hevolves : Evolves config true [] [] _ n := FlowNode.evolves_new h fun _ => rfl
  exact hevolves.same.serial

theorem update_serial {old n : FlowNode} {turns closed : Bool}
    (h : (old.updatedAftercare config timestamp true turns).1.update config p answers =
      .ok (n, closed)) : n.flow.serial = old.flow.serial := by
  have hhandles : FlowNode.Handles config true p _ n := (FlowNode.handles_update h fun _ => rfl).1
  rw [hhandles.same.serial]
  exact (old.reported_updatedAftercare config timestamp true turns).same.serial

theorem Lives.packet (h : m.Lives u life) {life' : Life} {v : Nat} (hrs : ∀ r ∈ rs, r.serial = v)
    (hnodes : (nodes.filter fun n => n.flow.serial == u) = life'.nodesAt key)
    (hother : ∀ k, k ≠ key → life'.nodesAt k = life.nodesAt k)
    (hm : m'.nodeMap = Function.update m.nodeMap key nodes)
    (hreports : m'.reports = m.reports ++ rs) (hinjected : m'.injected = m.injected ++ [(v, p)])
    (hnew : life'.reports = life.reports ++ if v = u then rs else [])
    (hnew' : life'.injected = life.injected ++ if v = u then [p] else [])
    (hunborn : m'.serials ≤ u → life' = {}) : m'.Lives u life' := by
  refine ⟨?_, ?_, ?_, hunborn⟩
  · have hown : (rs.filter fun r => r.serial == u) = if v = u then rs else [] := by
      split_ifs with hv
      · exact filter_eq_self.mpr fun r hr => by simp [hrs r hr, hv]
      · exact filter_eq_nil_iff.mpr fun r hr => by simp [hrs r hr, hv]
    rw [reportsOf, hreports, filter_append, hown, hnew]
    exact congrArg (· ++ _) h.reports
  · have hown : ([(v, p)].filter fun i => i.1 == u).map Prod.snd = if v = u then [p] else [] := by
      split_ifs with hv <;> simp [hv]
    rw [injectedOf, hinjected, filter_append, map_append, hown, hnew']
    exact congrArg (· ++ _) h.injected
  · intro k
    rw [hm]
    by_cases hk : k = key
    · rw [hk, update_self]
      exact hnodes
    · rw [update_of_ne hk, hother k hk]
      exact h.nodes k

theorem Lives.born (h : m.Lives u life) (hlive : life.live = some (key, n)) : u < m.serials := by
  by_contra hle
  rw [h.unborn (by omega)] at hlive
  cases hlive

/-- **A packet acts on the life of one flow.** -/
theorem Lives.packetStep {packet : MetaPacket} (h : m.Lives u life)
    (hstep : PacketStep config m key packet m') :
    ∃ life', m'.Lives u life' ∧ (life' = life ∨ LifeStep config u life life') := by
  cases hstep with
  | ignored totalFlow count => exact ⟨life, h.congr rfl rfl rfl rfl, .inl rfl⟩
  | @created p answers flowId n totalFlow hp hroom hnew =>
    have hserial := new_serial hnew
    by_cases hu : m.serials = u
    · have hempty := h.unborn (Nat.le_of_eq hu)
      subst hempty
      have hnodes : ((m.nodeMap key ++ [n]).filter fun n => n.flow.serial == u) = [n] := by
        rw [filter_append, h.nodes key]
        simp [Life.nodesAt, hserial, hu]
      rw [hu] at hnew hserial
      refine ⟨_, ?_, .inr (.born key hnew)⟩
      exact h.packet (fun r hr => by cases hr) (by simpa [Life.nodesAt] using hnodes)
        (fun k hk => by simp [Life.nodesAt, hk.symm]) rfl (append_nil _).symm rfl (by simp)
        (by simp [hserial]) fun hle => by simp [hu] at hle
    · have hnodes : ((m.nodeMap key ++ [n]).filter fun n => n.flow.serial == u) =
          life.nodesAt key := by
        rw [filter_append, h.nodes key]
        simp [hserial, hu]
      exact ⟨life, h.packet (fun r hr => by cases hr) hnodes (fun _ _ => rfl) rfl
        (append_nil _).symm rfl (by simp) (by simp [hserial, hu])
        fun hle => h.unborn (Nat.le_of_succ_le hle), .inl rfl⟩
  | @updated index old n p answers turns hp hold hupdate =>
    rw [keepNode_eq]
    have hserial := update_serial hupdate
    by_cases hu : old.flow.serial = u
    · have hlive := h.live_of_mem (mem_of_getElem? hold) hu
      have hone : ((m.nodeMap key).filter fun n => n.flow.serial == u) = [old] := by
        rw [h.nodes key, Life.nodesAt, hlive]
        simp
      have hnodes := filter_set_of_pos
        (y := { n with timestampKey := packet.lookupKey.timestamp / second }) hold
        (by simp [hu]) (by simp [hserial, hu]) hone
      refine ⟨_, ?_, .inr (.handled _ (packet.lookupKey.timestamp / second) turns hlive hupdate)⟩
      exact h.packet (fun r hr => (updatedAftercare_serial r hr).trans hserial.symm)
        (by simpa [Life.nodesAt] using hnodes) (fun k hk => by simp [Life.nodesAt, hlive, hk.symm])
        rfl rfl rfl (by simp [hserial, hu]) (by simp [hserial, hu])
        fun hle => absurd (h.born hlive) (by simpa using hle)
    · have hnodes := filter_set_of_neg (p := fun n => n.flow.serial == u)
        (y := { n with timestampKey := packet.lookupKey.timestamp / second }) hold
        (by simp [hu]) (by simp [hserial, hu])
      rw [h.nodes key] at hnodes
      exact ⟨life, h.packet (fun r hr => (updatedAftercare_serial r hr).trans hserial.symm) hnodes
        (fun _ _ => rfl) rfl rfl rfl (by simp [hserial, hu]) (by simp [hserial, hu]) h.unborn,
        .inl rfl⟩

/-! ### Runs -/

variable (hP : ∀ life life', P life → LifeStep config u life life' → P life') {id now : Nat}

include hP

theorem Lived.flush (h : m.Lived u P) {r : FlowMap × Bool}
    (hflush : FlushStep config env m timestamp r) : r.1.Lived u P := by
  cases hflush with
  | pushed _ _ => exact h.push (fun t key life hlife => hP _ _ hlife (.scanned env _ t key life)) _
  | _ => exact h

theorem Lived.step (h : m.Lived u P) {c : Call × Env} (hstep : step config m c = .ok m') :
    m'.Lived u P := by
  obtain ⟨timestamp, r, hflush, rfl | ⟨packet, answers, key, -, -, -, hpacket⟩⟩ := step_cases hstep
  · exact h.flush hP hflush
  obtain ⟨life, hlives, hlife⟩ := h.flush hP hflush
  obtain ⟨life', hlives', heq | hstep'⟩ := hlives.packetStep hpacket
  · exact ⟨life', hlives', by rwa [heq]⟩
  · exact ⟨life', hlives', hP life life' hlife hstep'⟩

omit hP in
theorem lives_new (h : new config id now = .ok m) (u : Nat) : m.Lives u {} := by
  obtain ⟨late, -, h⟩ := bind_eq_ok h
  obtain ⟨start, -, h⟩ := bind_eq_ok h
  cases h
  exact ⟨rfl, rfl, fun key => rfl, fun _ => rfl⟩

/-- **Lives.**  Whatever holds of a flow that is not born, and is kept by every
step of a life, holds of every flow in every run of the map. -/
theorem lived_run {start : FlowMap} {calls : List (Call × Env)} (hempty : P {})
    (hnew : new config id now = .ok start) (hrun : Runs.run (step config) start calls = .ok m) :
    m.Lived u P := by
  have hstart : start.Lived u P := ⟨{}, lives_new hnew u, hempty⟩
  exact Runs.run_induction (J := fun m => m.Lived u P) (Q := fun _ => True)
    (fun s a s' hs _ hok => hs.step hP hok) hstart (fun _ _ => trivial) hrun

end FlowMap

end ZeroTrace.FlowGenerator
