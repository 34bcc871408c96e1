import ZeroTrace.FlowAggrSteps

/-!
# No report is lost, and which reports are merged

Every report that an aggregator is given gets a number.  A report should then be in exactly
one flow, sent or held, or among those that were counted as too late; and two reports of one
flow should be in the same one exactly if their minutes are the same and the flow was not
ended in between.

Four things stand in the way of this.  A health check that was not stashed overwrites the one
that has its addresses.  A health check that was stashed is merged with an earlier one of
the same flow.  A flow that was ended by a report of another minute remains in its slot and
is merged with a late report.  And a report that is too late cannot join the open reports of
its minute.  A run is exact if and only if none of them happens.
-/

namespace ZeroTrace.Collector.Aggr

open RustExec Runs FlowAggr List Option Aggr.TaggedFlow Nat

structure Report where
  flow : TaggedFlow
  time : Nat

def packetsOf (reports : List Report) (i : Nat) : Nat :=
  (reports[i]?.map fun r => r.flow.packetCount).getD 0

/-- The `i`-th report is one of this flow and this minute, and since then no report has ended
the flow. -/
def Open (reports : List Report) (i : Nat) (flowId : BitVec 64) (time : Nat) : Prop :=
  ∃ r, reports[i]? = some r ∧ r.flow.flowId = flowId ∧ r.time = time ∧
    ∀ k r', i ≤ k → reports[k]? = some r' → r'.flow.flowId = flowId →
      r'.flow.closeType = .forcedReport

def Together (flows : List TaggedFlow) (i j : Nat) : Prop :=
  ∃ f ∈ flows, i ∈ f.origin ∧ j ∈ f.origin

variable {time : Nat} {flowId : BitVec 64}

section Histories

variable {reports : List Report} {r : Report} {i : Nat}

theorem getElem?_concat_eq_some {r' : Report} :
    (reports ++ [r])[i]? = some r' ↔ reports[i]? = some r' ∨ i = reports.length ∧ r = r' := by
  rcases lt_trichotomy i reports.length with hlt | rfl | hgt
  · simp [getElem?_append_left hlt, hlt.ne]
  · simp
  · have hnone : (reports ++ [r])[i]? = none := getElem?_eq_none (by rwa [length_append])
    simp [hnone, getElem?_eq_none hgt.le, hgt.ne']

theorem packetsOf_concat (hi : i < reports.length) {r : Report} :
    packetsOf (reports ++ [r]) i = packetsOf reports i := by
  rw [packetsOf, packetsOf, getElem?_append_left hi]

theorem Open.lt (h : Open reports i flowId time) : i < reports.length := by
  obtain ⟨r, hr, -⟩ := h
  exact (List.getElem?_eq_some_iff.mp hr).1

/-- After one more report, the open ones are those of before, unless it ends their flow, and
the new one, unless it does. -/
theorem open_concat (reports : List Report) (r : Report) (i : Nat) (flowId : BitVec 64)
    (time : Nat) :
    Open (reports ++ [r]) i flowId time ↔
      (r.flow.flowId = flowId → r.flow.closeType = .forcedReport) ∧
        (Open reports i flowId time ∨
          i = reports.length ∧ r.flow.flowId = flowId ∧ r.time = time) := by
  have hlast : (reports ++ [r])[reports.length]? = some r := getElem?_concat_length
  constructor
  · rintro ⟨r', hr', hid, htime, hopen⟩
    rcases getElem?_concat_eq_some.mp hr' with hold | ⟨rfl, rfl⟩
    · refine ⟨hopen _ r (List.getElem?_eq_some_iff.mp hold).1.le hlast, ?_⟩
      refine .inl ⟨r', hold, hid, htime, fun k r₁ hk hr₁ => hopen k r₁ hk ?_⟩
      exact getElem?_concat_eq_some.mpr (.inl hr₁)
    · exact ⟨hopen _ r (le_refl _) hlast, .inr ⟨rfl, hid, htime⟩⟩
  · rintro ⟨hends, ⟨r', hr', hid, htime, hopen⟩ | ⟨rfl, hid, htime⟩⟩
    · refine ⟨r', getElem?_concat_eq_some.mpr (.inl hr'), hid, htime, fun k r₁ hk hr₁ hid₁ => ?_⟩
      rcases getElem?_concat_eq_some.mp hr₁ with hr₁ | ⟨-, rfl⟩
      · exact hopen k r₁ hk hr₁ hid₁
      · exact hends hid₁
    · refine ⟨r, hlast, hid, htime, fun k r₁ hk hr₁ hid₁ => ?_⟩
      rcases getElem?_concat_eq_some.mp hr₁ with hr₁ | ⟨-, rfl⟩
      · exact absurd (List.getElem?_eq_some_iff.mp hr₁).1 (not_lt.mpr hk)
      · exact hends hid₁

theorem sum_packetsOf (reports : List Report) :
    ((List.range reports.length).map (packetsOf reports)).sum =
      (reports.map fun r => r.flow.packetCount).sum := by
  congr 1
  apply ext_getElem
  · simp
  · intro i h₁ h₂
    have hi : i < reports.length := by simpa using h₂
    simp [packetsOf, getElem?_eq_getElem hi]

end Histories

variable {reports : List Report} {id : BitVec 64} {call : Call} {t : Nat}

theorem sum_packetCount {flows : List TaggedFlow}
    (h : ∀ f ∈ flows, f.packetCount = (f.origin.map (packetsOf reports)).sum) :
    (flows.map packetCount).sum =
      ((flows.flatMap origin).map (packetsOf reports)).sum := by
  induction flows with
  | nil => rfl
  | cons f flows ih =>
    obtain ⟨hf, hrest⟩ := forall_mem_cons.mp h
    rw [map_cons, sum_cons, flatMap_cons, map_append, sum_append_nat, hf, ih hrest]

/-- An aggregator, the reports it was given, and which of them it dropped. -/
structure Recorded where
  aggr : FlowAggr
  reports : List Report
  dropped : List Nat

/-- What an aggregator is asked for. -/
inductive Call where
  | minuteMerge (f : TaggedFlow)
  | rotate

namespace Recorded

/-- An aggregator that was just made. -/
def start (delay : Nat) : Recorded := ⟨.new delay, [], []⟩

/-- A report gets its number. -/
def stamp (s : Recorded) (f : TaggedFlow) : TaggedFlow := { f with origin := [s.reports.length] }

/-- A report is written down. -/
def given (s : Recorded) (f : TaggedFlow) (time : Nat) (aggr : FlowAggr) : Recorded where
  aggr := aggr
  reports := s.reports ++ [⟨f, time⟩]
  dropped := if time < s.aggr.slotStartTime then s.dropped ++ [s.reports.length] else s.dropped

theorem given_of_le {s : Recorded} (h : s.aggr.slotStartTime ≤ time) (f : TaggedFlow)
    (aggr : FlowAggr) : s.given f time aggr = ⟨aggr, s.reports ++ [⟨f, time⟩], s.dropped⟩ := by
  rw [given, if_neg (not_lt.mpr h)]

/-- One call. -/
def step (aggregate : Bool) (s : Recorded) : Call → Exec Recorded
  | .minuteMerge f =>
    f.startTimeInMinute >>= fun time =>
      s.aggr.minuteMerge aggregate (s.stamp f) >>= fun aggr => .ok (s.given f time aggr)
  | .rotate => s.aggr.flushFrontSlotAndRotate >>= fun aggr => .ok { s with aggr := aggr }

def MergedRightly (s : Recorded) : Prop :=
  ∀ i j r r', i < j → s.reports[i]? = some r → s.reports[j]? = some r' →
    r.flow.flowId = r'.flow.flowId →
    (Together s.aggr.flows i j ↔ Open (s.reports.take j) i r'.flow.flowId r'.time)

/-- Nothing is lost: each report is in one flow or was counted as dropped, and so are its
packets; each time that is not too late has a slot; and the reports are merged as they
should be. -/
structure Exact (aggregate : Bool) (s : Recorded) : Prop where
  counted : s.aggr.dropBeforeWindow = s.dropped.length
  reports : (s.aggr.flows.flatMap TaggedFlow.origin ++ s.dropped).Perm
    (List.range s.reports.length)
  packets : (s.aggr.flows.map TaggedFlow.packetCount).sum +
      (s.dropped.map (packetsOf s.reports)).sum =
    (s.reports.map fun r => r.flow.packetCount).sum
  slot : ∀ time, s.aggr.slotStartTime ≤ time →
    ∃ aggr timeSlot, s.aggr.locate aggregate time = .ok (aggr, timeSlot) ∧
      timeSlot < aggr.slotCount
  merged : s.MergedRightly

/-- What a report may find: nothing stashed that was ended, and under its addresses no
health check that it would overwrite or that has reports of its flow. -/
structure Fits (reports : List Report) (entry occupant : Option TaggedFlow) (flowId : BitVec 64)
    (time : Nat) : Prop where
  stashed : ∀ flow ∈ entry, ∀ i ∈ flow.origin, Open reports i flowId time
  occupied : ∀ hbFlow ∈ occupant, entry ≠ none ∧
    ∀ i ∈ hbFlow.origin, ∀ r, reports[i]? = some r → r.flow.flowId ≠ flowId

theorem Fits.place {entry occupant : Option TaggedFlow}
    (h : Fits reports entry occupant flowId time) : occupant ≠ none → entry ≠ none := by
  intro hne
  obtain ⟨hbFlow, hsome⟩ := ne_none_iff_exists'.mp hne
  exact (h.occupied hbFlow hsome).1

/-- A call that spoils nothing.  The minute of a report does not begin before the beginning
of time, a report that is too late has no open ones to join, and another one fits to what
it finds once the ring has turned. -/
def Clear (aggregate : Bool) (s : Recorded) : Call → Prop
  | .rotate => True
  | .minuteMerge f =>
    ∃ time, f.startTimeInMinute = .ok time ∧
      (time < s.aggr.slotStartTime → ∀ i, ¬ Open s.reports i f.flowId time) ∧
      (s.aggr.slotStartTime ≤ time → ∀ aggr timeSlot,
        s.aggr.locate aggregate time = .ok (aggr, timeSlot) →
        Fits s.reports (aggr.entry time f.flowId)
          (occupant aggregate aggr (aggr.entry time f.flowId) (s.stamp f)) f.flowId time)

/-- What holds all along a run that spoils nothing. -/
structure Sound (s : Recorded) : Prop where
  shaped : s.aggr.Shaped
  counted : s.aggr.dropBeforeWindow = s.dropped.length
  reports : (s.aggr.flows.flatMap TaggedFlow.origin ++ s.dropped).Perm
    (List.range s.reports.length)
  packets : ∀ f ∈ s.aggr.flows, f.packetCount = (f.origin.map (packetsOf s.reports)).sum
  merged : s.MergedRightly
  entries : ∀ time flowId flow, s.aggr.entry time flowId = some flow →
    ∀ i ∈ flow.origin, ∃ r, s.reports[i]? = some r ∧ r.flow.flowId = flowId
  opened : ∀ i flowId time, Open s.reports i flowId time → s.aggr.slotStartTime ≤ time →
    ∃ flow, s.aggr.entry time flowId = some flow ∧ i ∈ flow.origin
  heartbeats : ∀ hbFlow ∈ s.aggr.heartbeats, hbFlow.origin ≠ [] ∧
    ∀ i ∈ hbFlow.origin, ∀ flowId time, ¬ Open s.reports i flowId time

namespace Sound

variable {aggregate : Bool} {s : Recorded}

theorem exact (h : s.Sound) (aggregate : Bool) : s.Exact aggregate where
  counted := h.counted
  reports := h.reports
  packets := by
    rw [sum_packetCount h.packets, ← sum_append_nat, ← map_append, ← sum_packetsOf]
    exact (h.reports.map _).sum_nat
  slot := by
    intro time hle
    obtain ⟨aggr, hlocate, -, -, hlt⟩ := locate_spec h.shaped aggregate hle
    exact ⟨aggr, _, hlocate, hlt⟩
  merged := h.merged

theorem start (delay : Nat) : (start delay).Sound where
  shaped := shaped_new delay
  counted := rfl
  reports := by
    rw [Recorded.start, flows_new]
    exact List.Perm.refl _
  packets f hf := by
    rw [Recorded.start, flows_new] at hf
    cases hf
  merged i j r r' _ hr := by cases hr
  entries time flowId flow hflow := by
    have hnone := entry_new delay time flowId
    rw [Recorded.start, hnone] at hflow
    cases hflow
  opened i flowId time hopen := absurd hopen.lt (not_lt_zero i)
  heartbeats hbFlow hmem := by cases hmem

variable {i : Nat}

theorem lt (h : s.Sound) {f : TaggedFlow} (hf : f ∈ s.aggr.flows) (hi : i ∈ f.origin) :
    i < s.reports.length := by
  have hmem : i ∈ s.aggr.flows.flatMap origin := mem_flatMap.mpr ⟨f, hf, hi⟩
  exact mem_range.mp (h.reports.mem_iff.mp (mem_append_left _ hmem))

theorem together_append (flows flows' : List TaggedFlow) (i j : Nat) :
    Together (flows ++ flows') i j ↔ Together flows i j ∨ Together flows' i j := by
  simp only [Together, mem_append, or_and_right, exists_or]

theorem together_cons (f : TaggedFlow) (flows : List TaggedFlow) (i j : Nat) :
    Together (f :: flows) i j ↔ i ∈ f.origin ∧ j ∈ f.origin ∨ Together flows i j := by
  simp [Together]

theorem together_congr {flows flows' : List TaggedFlow} (h : flows'.Perm flows) (i j : Nat) :
    Together flows' i j ↔ Together flows i j := by
  unfold Together
  simp only [h.mem_iff]

/-- **Turning the ring spoils nothing.** -/
theorem turned (h : s.Sound) {aggr : FlowAggr} (ht : Turned s.aggr aggr) :
    Sound { s with aggr := aggr } where
  shaped := ht.shaped
  counted := ht.dropBeforeWindow.trans h.counted
  reports := ((ht.flows.flatMap_right _).append_right _).trans h.reports
  packets f hf := h.packets f (ht.flows.mem_iff.mp hf)
  merged i j r r' hij hr hr' hid :=
    (together_congr ht.flows i j).trans (h.merged i j r r' hij hr hr' hid)
  entries time flowId flow hflow := by
    by_cases hle : aggr.slotStartTime ≤ time
    · exact h.entries time flowId flow ((ht.entry time flowId hle).symm.trans hflow)
    · have hnone : aggr.entry time flowId = none := if_pos (not_le.mp hle)
      exact absurd (hnone.symm.trans hflow) nofun
  opened i flowId time hopen hle := by
    obtain ⟨flow, hflow, hi⟩ := h.opened i flowId time hopen (ht.later.trans hle)
    exact ⟨flow, (ht.entry time flowId hle).trans hflow, hi⟩
  heartbeats hbFlow hmem := h.heartbeats hbFlow (ht.heartbeats hbFlow hmem)

/-- One more report is merged rightly if the others stay as they are and it is with the
open ones of its flow. -/
theorem merged_given (h : s.Sound) {f : TaggedFlow} {aggr : FlowAggr}
    (hold : ∀ i j r r', s.reports[i]? = some r → s.reports[j]? = some r' →
      r.flow.flowId = r'.flow.flowId → (Together aggr.flows i j ↔ Together s.aggr.flows i j))
    (hnew : ∀ i r, s.reports[i]? = some r → r.flow.flowId = f.flowId →
      (Together aggr.flows i s.reports.length ↔ Open s.reports i f.flowId time)) :
    (s.given f time aggr).MergedRightly := by
  intro i j r r' hij hr hr' hid
  change Together aggr.flows i j ↔
    Open ((s.reports ++ [(⟨f, time⟩ : Report)]).take j) i r'.flow.flowId r'.time
  have hr := getElem?_concat_eq_some.mp hr
  rcases getElem?_concat_eq_some.mp hr' with hr' | ⟨rfl, rfl⟩
  · have hj := (List.getElem?_eq_some_iff.mp hr').1
    have hr := hr.resolve_right fun hlast => by omega
    rw [take_append_of_le_length hj.le]
    exact (hold i j r r' hr hr' hid).trans (h.merged i j r r' hij hr hr' hid)
  · rw [take_left]
    exact hnew i r (hr.resolve_right fun hlast => by omega) hid

/-- A report that was not open before a new one is not open after it, but for the new one. -/
theorem not_open_given (hi : i < reports.length) (h : ∀ flowId time, ¬ Open reports i flowId time)
    (r : Report) (flowId : BitVec 64) (time : Nat) : ¬ Open (reports ++ [r]) i flowId time := by
  rw [open_concat]
  rintro ⟨-, hopen | ⟨heq, -⟩⟩
  · exact h flowId time hopen
  · omega

/-- **A report that is too late** is counted. -/
theorem late (h : s.Sound) {f : TaggedFlow} (hlate : time < s.aggr.slotStartTime)
    (hnone : ∀ i, ¬ Open s.reports i f.flowId time) :
    (s.given f time { s.aggr with dropBeforeWindow := s.aggr.dropBeforeWindow + 1 }).Sound where
  shaped := ⟨h.shaped.slots, h.shaped.slotCount, h.shaped.heartbeats⟩
  counted := by
    rw [given, if_pos hlate, length_append, h.counted]
    rfl
  reports := by
    rw [given, if_pos hlate, length_append, length_singleton, range_succ, ← append_assoc]
    exact h.reports.append_right _
  packets g hg := by
    rw [h.packets g hg]
    congr 1
    exact map_congr_left fun i hi => (packetsOf_concat (h.lt hg hi)).symm
  merged := by
    refine h.merged_given (fun _ _ _ _ _ _ _ => Iff.rfl) fun i r hr hid => ?_
    refine iff_of_false ?_ (hnone i)
    rintro ⟨g, hg, -, hlast⟩
    exact absurd (h.lt hg hlast) (lt_irrefl _)
  entries t id flow hflow i hi := by
    obtain ⟨r, hr, hid⟩ := h.entries t id flow hflow i hi
    exact ⟨r, getElem?_concat_eq_some.mpr (.inl hr), hid⟩
  opened i id t hopen hle := by
    obtain ⟨-, hold | ⟨-, -, htime⟩⟩ := (open_concat _ _ _ _ _).mp hopen
    · exact h.opened i id t hold hle
    · have hle : s.aggr.slotStartTime ≤ t := hle
      have htime : time = t := htime
      omega
  heartbeats hbFlow hmem := by
    obtain ⟨hne, hclosed⟩ := h.heartbeats hbFlow hmem
    refine ⟨hne, fun i hi => not_open_given ?_ (hclosed i hi) _⟩
    exact h.lt (mem_append_right _ (mem_append_right _ hmem)) hi

section Absorbing

variable {f : TaggedFlow} {entry occupant : Option TaggedFlow}

theorem together_taken (hentry : ∀ flow ∈ entry, ∀ i ∈ flow.origin,
      ∃ r, s.reports[i]? = some r ∧ r.flow.flowId = f.flowId)
    (hfits : Fits s.reports entry occupant f.flowId time) {i j : Nat} {r r' : Report}
    (hr : s.reports[i]? = some r) (hr' : s.reports[j]? = some r')
    (hid : r.flow.flowId = r'.flow.flowId)
    (hi : i ∈ (occupant.toList ++ entry.toList).flatMap origin)
    (hj : j ∈ (occupant.toList ++ entry.toList).flatMap origin) :
    Together (occupant.toList ++ entry.toList) i j := by
  -- the stashed flow has only reports of its flow, and the health check has none of them
  have hstashed : ∀ i r, s.reports[i]? = some r → ∀ flow ∈ entry, i ∈ flow.origin →
      r.flow.flowId = f.flowId := by
    intro i r hr flow hflow hi
    obtain ⟨r₁, hr₁, hid₁⟩ := hentry flow hflow i hi
    rw [hr] at hr₁
    cases hr₁
    exact hid₁
  have hother : ∀ i r, s.reports[i]? = some r → ∀ hbFlow ∈ occupant, i ∈ hbFlow.origin →
      r.flow.flowId ≠ f.flowId :=
    fun i r hr hbFlow hmem hi => (hfits.occupied hbFlow hmem).2 i hi r hr
  obtain ⟨g, hg, hi⟩ := mem_flatMap.mp hi
  obtain ⟨g', hg', hj⟩ := mem_flatMap.mp hj
  rw [mem_append, mem_toList, mem_toList] at hg hg'
  rcases hg with hg | hg
  · rcases hg' with hg' | hg'
    · have heq := mem_unique hg hg'
      subst heq
      exact ⟨g, mem_append_left _ (mem_toList.mpr hg), hi, hj⟩
    · exact absurd (hid.trans (hstashed j r' hr' g' hg' hj)) (hother i r hr g hg hi)
  · rcases hg' with hg' | hg'
    · exact absurd (hid.symm.trans (hstashed i r hr g hg hi)) (hother j r' hr' g' hg' hj)
    · have heq := mem_unique hg hg'
      subst heq
      exact ⟨g, mem_append_right _ (mem_toList.mpr hg), hi, hj⟩

variable (h : s.Sound) {aggr : FlowAggr} (hle : s.aggr.slotStartTime ≤ time)
  (hentry : s.aggr.entry time f.flowId = entry)
  (hoccupant : ∀ hbFlow ∈ occupant, hbFlow ∈ s.aggr.heartbeats)
  (habsorbed : Absorbed s.aggr aggr time (s.stamp f) (occupant.toList ++ entry.toList)
    (joinedFlow entry (s.stamp f)) (outcome entry occupant (s.stamp f)))
  (hfits : Fits s.reports entry occupant f.flowId time)

section Bag

include h habsorbed hfits

theorem absorbed_reports :
    (aggr.flows.flatMap origin ++ s.dropped).Perm
      (List.range (s.reports.length + 1)) := by
  obtain ⟨rest, hbefore, hafter⟩ := habsorbed.flows
  have horigin := outcome_origin hfits.place (s.stamp f)
  apply perm_iff_count.mpr
  intro i
  have hold := h.reports.count_eq i
  have htaken := (hbefore.flatMap_right origin).count_eq i
  have hmade := (hafter.flatMap_right origin).count_eq i
  rw [flatMap_cons, horigin] at hmade
  rw [range_succ]
  simp only [count_append, flatMap_append, stamp] at hold htaken hmade ⊢
  omega

theorem absorbed_packets {g : TaggedFlow} (hg : g ∈ aggr.flows) :
    g.packetCount = (g.origin.map (packetsOf (s.reports ++ [⟨f, time⟩]))).sum := by
  obtain ⟨rest, hbefore, hafter⟩ := habsorbed.flows
  have hsame : ∀ g ∈ s.aggr.flows, g.origin.map (packetsOf (s.reports ++ [⟨f, time⟩])) =
      g.origin.map (packetsOf s.reports) := fun g hg =>
    map_congr_left fun i hi => packetsOf_concat (h.lt hg hi)
  rcases mem_cons.mp (hafter.mem_iff.mp hg) with rfl | hg
  · have hlast : packetsOf (s.reports ++ [⟨f, time⟩]) s.reports.length = f.packetCount := by
      rw [packetsOf, getElem?_concat_length]
      rfl
    have htaken : ∀ g ∈ occupant.toList ++ entry.toList,
        g.packetCount = (g.origin.map (packetsOf (s.reports ++ [⟨f, time⟩]))).sum := by
      intro g hg
      have hg : g ∈ s.aggr.flows := hbefore.mem_iff.mpr (mem_append_left _ hg)
      rw [hsame g hg, h.packets g hg]
    rw [outcome_origin hfits.place, outcome_packetCount hfits.place, sum_packetCount htaken,
      map_append, sum_append_nat]
    change _ + f.packetCount = _ + (packetsOf _ s.reports.length + 0)
    rw [hlast, add_zero]
  · have hg : g ∈ s.aggr.flows := hbefore.mem_iff.mpr (mem_append_right _ hg)
    rw [hsame g hg, h.packets g hg]

include hle hentry

theorem absorbed_merged : (s.given f time aggr).MergedRightly := by
  obtain ⟨rest, hbefore, hafter⟩ := habsorbed.flows
  have horigin := outcome_origin hfits.place (s.stamp f)
  have hnew : ∀ i, i ∈ (outcome entry occupant (s.stamp f)).origin ↔
      i ∈ (occupant.toList ++ entry.toList).flatMap origin ∨ i = s.reports.length := by
    intro i
    rw [horigin, mem_append]
    exact or_congr_right mem_singleton
  refine h.merged_given (fun i j r r' hr hr' hid => ?_) fun i r hr hid => ?_
  · have hi := (List.getElem?_eq_some_iff.mp hr).1
    have hj := (List.getElem?_eq_some_iff.mp hr').1
    rw [together_congr hafter, together_congr hbefore, together_cons, together_append]
    refine or_congr_left ⟨fun hboth => ?_, ?_⟩
    · have hi' := ((hnew i).mp hboth.1).resolve_right (by omega)
      have hj' := ((hnew j).mp hboth.2).resolve_right (by omega)
      refine together_taken (fun flow hflow => ?_) hfits hr hr' hid hi' hj'
      exact h.entries time f.flowId flow (hentry.trans hflow)
    · rintro ⟨g, hg, hi', hj'⟩
      exact ⟨(hnew i).mpr (.inl (mem_flatMap.mpr ⟨g, hg, hi'⟩)),
        (hnew j).mpr (.inl (mem_flatMap.mpr ⟨g, hg, hj'⟩))⟩
  · have hi := (List.getElem?_eq_some_iff.mp hr).1
    rw [together_congr hafter, together_cons]
    constructor
    · rintro (⟨hi', -⟩ | ⟨g, hg, -, hlast⟩)
      · obtain ⟨g, hg, hig⟩ := mem_flatMap.mp (((hnew i).mp hi').resolve_right (by omega))
        rw [mem_append, mem_toList, mem_toList] at hg
        rcases hg with hg | hg
        · exact absurd hid ((hfits.occupied g hg).2 i hig r hr)
        · exact hfits.stashed g hg i hig
      · have hg : g ∈ s.aggr.flows := hbefore.mem_iff.mpr (mem_append_right _ hg)
        exact absurd (h.lt hg hlast) (lt_irrefl _)
    · intro hopen
      obtain ⟨flow, hflow, hi'⟩ := h.opened i f.flowId time hopen hle
      have hmem : flow ∈ occupant.toList ++ entry.toList :=
        mem_append_right _ (mem_toList.mpr (hentry.symm.trans hflow))
      exact .inl ⟨(hnew i).mpr (.inl (mem_flatMap.mpr ⟨flow, hmem, hi'⟩)), (hnew _).mpr (.inr rfl)⟩

end Bag

theorem mem_joinedFlow :
    i ∈ (joinedFlow entry (s.stamp f)).origin ↔
      (∃ flow ∈ entry, i ∈ flow.origin) ∨ i = s.reports.length := by
  rw [joinedFlow_origin, mem_append, mem_flatMap]
  simp only [mem_toList]
  exact or_congr_right mem_singleton

include h hentry habsorbed

theorem absorbed_entries {flow : TaggedFlow}
    (hflow : aggr.entry t id = some flow) (hi : i ∈ flow.origin) :
    ∃ r, (s.reports ++ [⟨f, time⟩])[i]? = some r ∧ r.flow.flowId = id := by
  have hkeep : ∀ flow, s.aggr.entry t id = some flow → i ∈ flow.origin →
      ∃ r, (s.reports ++ [⟨f, time⟩])[i]? = some r ∧ r.flow.flowId = id := by
    intro flow hflow hi
    obtain ⟨r, hr, hid⟩ := h.entries t id flow hflow i hi
    exact ⟨r, getElem?_concat_eq_some.mpr (.inl hr), hid⟩
  rw [habsorbed.entry] at hflow
  split at hflow
  · next hhere =>
    obtain ⟨rfl, rfl⟩ := hhere
    split at hflow
    · cases hflow
      rcases mem_joinedFlow.mp hi with ⟨flow, hflow, hi⟩ | rfl
      · exact hkeep flow (hentry.trans hflow) hi
      · exact ⟨⟨f, t⟩, getElem?_concat_length, rfl⟩
    · cases hflow
  · exact hkeep flow hflow hi

theorem absorbed_opened (hopen : Open (s.reports ++ [⟨f, time⟩]) i id t)
    (ht : aggr.slotStartTime ≤ t) : ∃ flow, aggr.entry t id = some flow ∧ i ∈ flow.origin := by
  obtain ⟨hends, hcases⟩ := (open_concat _ _ _ _ _).mp hopen
  rw [habsorbed.slotStartTime] at ht
  rw [habsorbed.entry]
  by_cases hhere : t = time ∧ id = (s.stamp f).flowId
  · have hforced : (s.stamp f).closeType = .forcedReport := hends hhere.2.symm
    rw [if_pos hhere, if_pos hforced]
    refine ⟨_, rfl, mem_joinedFlow.mpr ?_⟩
    rcases hcases with hold | ⟨hlast, -⟩
    · obtain ⟨flow, hflow, hi⟩ := h.opened i id t hold ht
      rw [hhere.1, hhere.2] at hflow
      exact .inl ⟨flow, hentry.symm.trans hflow, hi⟩
    · exact .inr hlast
  · rw [if_neg hhere]
    rcases hcases with hold | ⟨-, hid, htime⟩
    · exact h.opened i id t hold ht
    · exact absurd ⟨htime.symm, hid.symm⟩ hhere

include hoccupant hfits

theorem absorbed_heartbeats {hbFlow : TaggedFlow} (hmem : hbFlow ∈ aggr.heartbeats) :
    hbFlow.origin ≠ [] ∧ ∀ i ∈ hbFlow.origin, ∀ id t, ¬ Open (s.reports ++ [⟨f, time⟩]) i id t := by
  have hkeep : ∀ hbFlow ∈ s.aggr.heartbeats, ∀ i ∈ hbFlow.origin, ∀ id t,
      ¬ Open (s.reports ++ [⟨f, time⟩]) i id t := by
    intro hbFlow hmem i hi
    have hlt := h.lt (mem_append_right _ (mem_append_right _ hmem)) hi
    exact not_open_given hlt ((h.heartbeats hbFlow hmem).2 i hi) _
  rcases habsorbed.heartbeats hbFlow hmem with hold | ⟨rfl, hclosed⟩
  · exact ⟨(h.heartbeats hbFlow hold).1, hkeep hbFlow hold⟩
  rw [outcome_origin hfits.place]
  refine ⟨append_ne_nil_of_right_ne_nil _ (cons_ne_nil _ _), fun i hi id t hopen => ?_⟩
  -- the report that ends the flow is not open, nor are those of its flow
  have hmine : ∀ r, (s.reports ++ [⟨f, time⟩])[i]? = some r → r.flow.flowId ≠ f.flowId := by
    intro r hr hid
    have hends := ((open_concat _ _ _ _ _).mp hopen).1
    obtain ⟨r', hr', hid', -, -⟩ := hopen
    rw [hr] at hr'
    cases hr'
    exact hclosed (hends (hid.symm.trans hid'))
  rcases mem_append.mp hi with hi | hi
  · obtain ⟨g, hg, hi⟩ := mem_flatMap.mp hi
    rw [mem_append, mem_toList, mem_toList] at hg
    rcases hg with hg | hg
    · exact hkeep g (hoccupant g hg) i hi id t hopen
    · obtain ⟨r, hr, hid⟩ := h.entries time f.flowId g (hentry.trans hg) i hi
      exact hmine r (getElem?_concat_eq_some.mpr (.inl hr)) hid
  · rw [mem_singleton.mp hi] at hmine
    exact hmine _ getElem?_concat_length rfl

include hle

/-- **A report that fits** is merged as it should be, and nothing is lost. -/
theorem absorbed : (s.given f time aggr).Sound where
  shaped := habsorbed.shaped
  counted := by
    rw [given_of_le hle]
    exact habsorbed.dropBeforeWindow.trans h.counted
  reports := by
    rw [given_of_le hle, length_append, length_singleton]
    exact absorbed_reports h habsorbed hfits
  packets _ hg := absorbed_packets h habsorbed hfits hg
  merged := absorbed_merged h hle hentry habsorbed hfits
  entries _ _ _ hflow _ hi := absorbed_entries h hentry habsorbed hflow hi
  opened _ _ _ hopen ht := absorbed_opened h hentry habsorbed hopen ht
  heartbeats _ hmem := absorbed_heartbeats h hentry hoccupant habsorbed hfits hmem

omit hle hfits

/-- A report that was taken in without loss, and is with open reports only, did fit. -/
theorem fits_of_exact
    (hreports : (aggr.flows.flatMap origin ++ s.dropped).Perm
      (List.range (s.reports.length + 1)))
    (hmerged : ∀ i r, s.reports[i]? = some r → r.flow.flowId = f.flowId →
      Together aggr.flows i s.reports.length → Open s.reports i f.flowId time) :
    Fits s.reports entry occupant f.flowId time := by
  obtain ⟨rest, hbefore, hafter⟩ := habsorbed.flows
  have hplace : occupant ≠ none → entry ≠ none := by
    intro hne hnone
    obtain ⟨hbFlow, hsome⟩ := ne_none_iff_exists'.mp hne
    subst hnone hsome
    -- what is overwritten had a report, which is missing now
    have hempty := (h.heartbeats hbFlow (hoccupant hbFlow rfl)).1
    have hpos := length_pos_iff.mpr hempty
    have hold := h.reports.length_eq
    have hnew := hreports.length_eq
    have htaken := (hbefore.flatMap_right origin).length_eq
    have hmade := (hafter.flatMap_right origin).length_eq
    have hone : (outcome none (some hbFlow) (s.stamp f)).origin.length = 1 := rfl
    simp only [length_append, length_range, flatMap_append, flatMap_cons,
      flatMap_nil, append_nil, toList_some, toList_none, hone]
      at hold hnew htaken hmade
    omega
  have htogether : ∀ g ∈ occupant.toList ++ entry.toList, ∀ i ∈ g.origin,
      Together aggr.flows i s.reports.length := by
    intro g hg i hi
    rw [together_congr hafter, together_cons, outcome_origin hplace]
    exact .inl ⟨mem_append_left _ (mem_flatMap.mpr ⟨g, hg, hi⟩), mem_append_right _ mem_cons_self⟩
  refine ⟨fun flow hflow i hi => ?_, fun hbFlow hmem => ⟨?_, fun i hi r hr hid => ?_⟩⟩
  · obtain ⟨r, hr, hid⟩ := h.entries time f.flowId flow (hentry.trans hflow) i hi
    exact hmerged i r hr hid (htogether flow (mem_append_right _ (mem_toList.mpr hflow)) i hi)
  · exact hplace (ne_none_iff_exists'.mpr ⟨hbFlow, hmem⟩)
  · refine (h.heartbeats hbFlow (hoccupant hbFlow hmem)).2 i hi f.flowId time ?_
    exact hmerged i r hr hid (htogether hbFlow (mem_append_left _ (mem_toList.mpr hmem)) i hi)

end Absorbing

/-- **A clear call spoils nothing.** -/
theorem step (h : s.Sound) (hclear : s.Clear aggregate call) :
    ∃ s', s.step aggregate call = .ok s' ∧ s'.Sound := by
  cases call with
  | rotate =>
    obtain ⟨aggr, hok, hturned, -⟩ := flushFrontSlotAndRotate_spec h.shaped
    exact ⟨{ s with aggr := aggr }, by rw [Recorded.step, hok]; rfl, h.turned hturned⟩
  | minuteMerge f =>
    obtain ⟨time, htime, hlate, hinside⟩ := hclear
    have hstamp : (s.stamp f).startTimeInMinute = .ok time := htime
    by_cases hlt : time < s.aggr.slotStartTime
    · refine ⟨_, ?_, h.late hlt (hlate hlt)⟩
      rw [Recorded.step, htime, ok_bind, FlowAggr.minuteMerge, hstamp, ok_bind, if_pos hlt]
      rfl
    have hle := not_lt.mp hlt
    obtain ⟨b, hlocate, hturned, hle', aggr, hok, habsorbed⟩ :=
      minuteMerge_spec h.shaped aggregate hstamp hle
    have hb := h.turned hturned
    have hnow := absorbed hb hle' rfl (fun _ => occupant_mem hturned.shaped) habsorbed
      (hinside hle b _ hlocate)
    refine ⟨s.given f time aggr, by rw [Recorded.step, htime, ok_bind, hok]; rfl, ?_⟩
    rw [given_of_le hle]
    rwa [given_of_le hle'] at hnow

/-- **A call that does not fit spoils something.** -/
theorem clear_of_exact (h : s.Sound) {s' : Recorded}
    (hstep : s.step aggregate call = .ok s') (hexact : s'.Exact aggregate) :
    s.Clear aggregate call := by
  cases call with
  | rotate => trivial
  | minuteMerge f =>
    obtain ⟨time, htime, hrest⟩ := bind_eq_ok hstep
    obtain ⟨aggr, hok, hgiven⟩ := bind_eq_ok hrest
    cases hgiven
    have hlast : (s.given f time aggr).reports[s.reports.length]? = some ⟨f, time⟩ :=
      getElem?_concat_length
    -- an earlier report of the flow is with this one exactly if it is open
    have hmerged : ∀ i r, s.reports[i]? = some r → r.flow.flowId = f.flowId →
        (Together aggr.flows i s.reports.length ↔ Open s.reports i f.flowId time) := by
      intro i r hr hid
      have hiff := hexact.merged i s.reports.length r ⟨f, time⟩
        (List.getElem?_eq_some_iff.mp hr).1 (getElem?_concat_eq_some.mpr (.inl hr)) hlast hid
      have htake : (s.given f time aggr).reports.take s.reports.length = s.reports := take_left
      rwa [htake] at hiff
    have hstamp : (s.stamp f).startTimeInMinute = .ok time := htime
    refine ⟨time, htime, fun hlt i hopen => ?_, fun hle b slot hlocate => ?_⟩
    · obtain ⟨r, hr, hid, -⟩ := id hopen
      obtain ⟨g, hg, -, hnew⟩ := (hmerged i r hr hid).mpr hopen
      rw [FlowAggr.minuteMerge, hstamp, ok_bind, if_pos hlt] at hok
      cases hok
      exact absurd (h.lt hg hnew) (lt_irrefl _)
    obtain ⟨b', hlocate', hturned, hle', aggr', hok', habsorbed⟩ :=
      minuteMerge_spec h.shaped aggregate hstamp hle
    rw [hlocate] at hlocate'
    cases hlocate'
    rw [hok] at hok'
    cases hok'
    have hreports := hexact.reports
    rw [given_of_le hle, length_append, length_singleton] at hreports
    have hfits := fits_of_exact (h.turned hturned) rfl
      (fun _ => occupant_mem hturned.shaped) habsorbed hreports
      fun i r hr hid => (hmerged i r hr hid).mp
    exact hfits

end Sound

/-- **No report is lost and the reports are merged rightly exactly on clear runs.** -/
theorem reports_exact_iff (aggregate : Bool) (delay : Nat) (calls : List Call) :
    StatesHold (step aggregate) (Exact aggregate) (start delay) calls ↔
      StepsObey (step aggregate) (Clear aggregate) (start delay) calls :=
  statesHold_iff (fun _ h => h.exact aggregate) (fun _ _ h hclear => h.step hclear)
    (fun _ _ h hclear _ hstep hexact => hclear (h.clear_of_exact hstep hexact))
    (Sound.start delay)

/-- A health check of a minute, from one port of a client: a single report that ends its flow. -/
def healthCheck (flowId : BitVec 64) (portSrc : BitVec 16) : TaggedFlow where
  flowKey :=
    { tapType := .cloud
      tapPort := ⟨0⟩
      macSrc := ⟨.replicate 6 1⟩
      macDst := ⟨.replicate 6 2⟩
      ipSrc := .v4 (.replicate 4 10)
      ipDst := .v4 (.replicate 4 11)
      portSrc := portSrc
      portDst := 80
      proto := .tcp }
  peerSrc := { packetCount := 3, totalPacketCount := 3 }
  peerDst := { packetCount := 1, totalPacketCount := 1 }
  flowId := flowId
  startTime := 5
  flowStatTime := 60
  closeType := .tcpFinClientRst
  tapSide := .client

/-- The second health check of a client overwrites the first: of the eight packets that were
reported, four are left, and none was counted as dropped. -/
theorem second_healthCheck_loses_first :
    ∃ s, run (step true) (start 0)
        [.minuteMerge (healthCheck 1 40001), .minuteMerge (healthCheck 2 40002)] = .ok s ∧
      (s.reports.map fun r => r.flow.packetCount).sum = 8 ∧
      (s.aggr.flows.map TaggedFlow.packetCount).sum = 4 ∧ s.aggr.dropBeforeWindow = 0 ∧
      ¬ s.Exact true :=
  ⟨_, rfl, rfl, rfl, rfl, fun h => absurd h.packets (by decide)⟩

end Recorded

end ZeroTrace.Collector.Aggr
