import ZeroTrace.ChronoValues
import ZeroTrace.FlowAggr

/-!
# What a report does to the flows

All flows that an aggregator was given are in one bag: those it has sent, those in its
slots and the health checks.  Turning the ring moves flows from the slots and the map to
the sent ones.  A report takes at most two flows from the bag, the one in its slot and a
health check with its addresses, and puts one back.
-/

namespace ZeroTrace.Collector.Aggr

open RustExec Chrono List Chains Tables Aggr.TaggedFlow Nat Option

namespace FlowAggr

variable {a : FlowAggr} (delay : Nat)

def stashed (a : FlowAggr) : List TaggedFlow := a.flowStashs.flatMap Tables.values

/-- The health checks that wait for others. -/
def heartbeats (a : FlowAggr) : List TaggedFlow := a.heartbeatFlowStash.values

def flows (a : FlowAggr) : List TaggedFlow := a.sent ++ (a.stashed ++ a.heartbeats)

def entry (a : FlowAggr) (time : Nat) (flowId : BitVec 64) : Option TaggedFlow :=
  if time < a.slotStartTime then none
  else (a.flowStashs.getD (time - a.slotStartTime) ∅).lookup flowId

/-- The shape of an aggregator. -/
structure Shaped (a : FlowAggr) : Prop where
  slots : a.flowStashs.length = a.slotCount
  slotCount : 0 < a.slotCount
  heartbeats : a.heartbeatFlowStash.WellFormed

theorem shaped_new : (new delay).Shaped :=
  ⟨length_replicate, Nat.add_pos_left (by decide) delay, wellFormed_nil⟩

variable {time : Nat} {left : Option TaggedFlow}

theorem entry_of_le (h : a.slotStartTime ≤ time) (flowId : BitVec 64) :
    a.entry time flowId = (a.flowStashs.getD (time - a.slotStartTime) ∅).lookup flowId :=
  if_neg (not_lt.mpr h)

theorem entry_new (delay time : Nat) (flowId : BitVec 64) :
    (new delay).entry time flowId = none := by
  rw [entry_of_le (zero_le time), new, getD_eq_getElem?_getD, getElem?_replicate]
  split <;> rfl

theorem flows_new : (new delay).flows = [] := by
  simp [new, flows, stashed, heartbeats]

theorem Shaped.entry_past (h : a.Shaped) (hpast : a.slotStartTime + a.slotCount ≤ time)
    (flowId : BitVec 64) : a.entry time flowId = none := by
  have hlength : a.flowStashs.length ≤ time - a.slotStartTime := by
    rw [h.slots]
    omega
  rw [entry_of_le (by omega), getD_eq_default _ _ hlength]
  rfl

/-- The ring was turned: no flow is lost, and what is stashed is what was stashed for a time
that is still in the window. -/
structure Turned (a a' : FlowAggr) : Prop where
  shaped : a'.Shaped
  slotCount : a'.slotCount = a.slotCount
  dropBeforeWindow : a'.dropBeforeWindow = a.dropBeforeWindow
  later : a.slotStartTime ≤ a'.slotStartTime
  flows : a'.flows.Perm a.flows
  entry : ∀ time flowId, a'.slotStartTime ≤ time → a'.entry time flowId = a.entry time flowId
  heartbeats : ∀ f ∈ a'.heartbeats, f ∈ a.heartbeats

theorem Turned.refl (h : a.Shaped) : Turned a a :=
  ⟨h, rfl, rfl, le_refl _, List.Perm.refl _, fun _ _ _ => rfl, fun _ hf => hf⟩

theorem Turned.trans {a b c : FlowAggr} (h : Turned a b) (h' : Turned b c) : Turned a c where
  shaped := h'.shaped
  slotCount := h'.slotCount.trans h.slotCount
  dropBeforeWindow := h'.dropBeforeWindow.trans h.dropBeforeWindow
  later := h.later.trans h'.later
  flows := h'.flows.trans h.flows
  entry time flowId hle :=
    (h'.entry time flowId hle).trans (h.entry time flowId (h'.later.trans hle))
  heartbeats f hf := h.heartbeats f (h'.heartbeats f hf)

theorem Turned.entry_none {a a' : FlowAggr} (h : Turned a a') (ha : a.Shaped)
    (hround : a.slotStartTime + a.slotCount ≤ a'.slotStartTime) (time : Nat) (flowId : BitVec 64) :
    a'.entry time flowId = none := by
  by_cases hle : a'.slotStartTime ≤ time
  · rw [h.entry time flowId hle]
    exact ha.entry_past (hround.trans hle) flowId
  · exact if_pos (not_le.mp hle)

theorem Turned.skip {a a' : FlowAggr} (h : Turned a a') (ha : a.Shaped)
    (hround : a.slotStartTime + a.slotCount ≤ a'.slotStartTime) (count : Nat) :
    Turned a { a' with slotStartTime := a'.slotStartTime + count } where
  shaped := ⟨h.shaped.slots, h.shaped.slotCount, h.shaped.heartbeats⟩
  slotCount := h.slotCount
  dropBeforeWindow := h.dropBeforeWindow
  later := h.later.trans (le_add_right _ _)
  flows := h.flows
  heartbeats := h.heartbeats
  entry := by
    intro time flowId hle
    have hle' : a'.slotStartTime + count ≤ time := hle
    have hslot := h.entry_none ha hround
      (a'.slotStartTime + (time - (a'.slotStartTime + count))) flowId
    rw [entry_of_le (Nat.le_add_right _ _), Nat.add_sub_cancel_left] at hslot
    rw [ha.entry_past (by omega), entry_of_le hle, hslot]

theorem flushFrontSlotAndRotate_spec (h : a.Shaped) :
    ∃ a', a.flushFrontSlotAndRotate = .ok a' ∧ Turned a a' ∧
      a'.slotStartTime = a.slotStartTime + 1 := by
  cases hstashs : a.flowStashs with
  | nil =>
    have hlength := h.slots
    rw [hstashs, length_nil] at hlength
    exact absurd hlength h.slotCount.ne
  | cons flowStash flowStashs =>
    refine ⟨{ a with
      flowStashs := flowStashs ++ [∅]
      sent := a.sent ++ values flowStash
      slotStartTime := a.slotStartTime + 1 }, ?_, ?_, rfl⟩
    · unfold flushFrontSlotAndRotate
      rw [hstashs]
      rfl
    refine ⟨⟨?_, h.slotCount, h.heartbeats⟩, rfl, rfl, le_succ _, ?_,
      fun time flowId hle => ?_, fun f hf => hf⟩
    · have hlength := h.slots
      rw [hstashs, length_cons] at hlength
      rw [length_append]
      exact hlength
    · simp [flows, stashed, heartbeats, hstashs]
    have hle' : a.slotStartTime + 1 ≤ time := hle
    have hindex : time - a.slotStartTime = time - (a.slotStartTime + 1) + 1 := by omega
    rw [entry_of_le hle, entry_of_le (by omega), hstashs, hindex]
    -- the slot behind the last one is as empty as the new one
    exact congrArg (·.lookup flowId) (getD_drop_append (flowStash :: flowStashs) ∅ 1 1 _)

theorem flushLoop_spec (h : a.Shaped) (count : Nat) :
    ∃ a', flushLoop count a = .ok a' ∧ Turned a a' ∧
      a'.slotStartTime = a.slotStartTime + count := by
  induction count generalizing a with
  | zero => exact ⟨a, rfl, Turned.refl h, rfl⟩
  | succ count ih =>
    obtain ⟨b, hok, hturned, hstart⟩ := flushFrontSlotAndRotate_spec h
    obtain ⟨c, hok', hturned', hstart'⟩ := ih hturned.shaped
    refine ⟨c, ?_, hturned.trans hturned', ?_⟩
    · rw [flushLoop, hok, ok_bind, hok']
    · rw [hstart', hstart]
      omega

theorem forwardHeartbeats_spec (h : a.Shaped) :
    Turned a a.forwardHeartbeats ∧ a.forwardHeartbeats.slotStartTime = a.slotStartTime := by
  have heq : a.forwardHeartbeats = { a with
      sent := a.sent ++ expired a.slotStartTime a.heartbeatFlowStash
      heartbeatFlowStash := pending a.slotStartTime a.heartbeatFlowStash } := by
    rw [forwardHeartbeats, forwardTime_of_drop (fun _ _ => rfl), foldl_append_eq_append,
      ← flatMap_def, flatMap_singleton']
  have hvalues := values_expired_pending a.slotStartTime a.heartbeatFlowStash
  rw [heq]
  refine ⟨⟨⟨h.slots, h.slotCount, h.heartbeats.pending _⟩, rfl, rfl, le_refl _, ?_,
    fun _ _ _ => rfl, fun f hf => ?_⟩, rfl⟩
  · simp only [flows, stashed, heartbeats, hvalues, append_assoc]
    exact (perm_append_comm_assoc _ _ _).append_left _
  · rw [heartbeats, hvalues]
    exact mem_append_right _ hf

theorem flushSlots_spec (h : a.Shaped) (aggregate : Bool) (count : Nat) :
    ∃ a', flushSlots aggregate count a = .ok a' ∧ Turned a a' ∧
      a'.slotStartTime = a.slotStartTime + count := by
  obtain ⟨b, hok, hturned, hstart⟩ := flushLoop_spec h (min count a.slotCount)
  have hcount := hturned.slotCount
  have hskip : ∃ c, (if b.slotCount < count then
        { b with slotStartTime := b.slotStartTime + (count - b.slotCount) } else b) = c ∧
      Turned a c ∧ c.slotStartTime = a.slotStartTime + count := by
    refine ⟨_, rfl, ?_⟩
    split_ifs
    · refine ⟨hturned.skip h (by omega) _, ?_⟩
      change b.slotStartTime + (count - b.slotCount) = _
      omega
    · exact ⟨hturned, by omega⟩
  obtain ⟨c, hc, hturnedc, hstartc⟩ := hskip
  unfold flushSlots
  rw [hok, ok_bind, hc]
  cases aggregate with
  | false => exact ⟨c, rfl, hturnedc, hstartc⟩
  | true =>
    obtain ⟨hforward, hsame⟩ := forwardHeartbeats_spec hturnedc.shaped
    exact ⟨_, rfl, hturnedc.trans hforward, hsame.trans hstartc⟩

/-- **The slot of a time exists.** -/
theorem locate_spec (h : a.Shaped) (aggregate : Bool) (hle : a.slotStartTime ≤ time) :
    ∃ a', a.locate aggregate time = .ok (a', time - a'.slotStartTime) ∧ Turned a a' ∧
      a'.slotStartTime ≤ time ∧ time - a'.slotStartTime < a'.slotCount := by
  have hpos := h.slotCount
  unfold locate
  by_cases hpast : a.slotCount ≤ time - a.slotStartTime
  · rw [if_pos hpast]
    obtain ⟨b, hok, hturned, hstart⟩ :=
      flushSlots_spec h aggregate (time - a.slotStartTime - a.slotCount + 1)
    have hcount := hturned.slotCount
    have hslot : b.slotCount - 1 = time - b.slotStartTime := by omega
    refine ⟨b, ?_, hturned, by omega, by omega⟩
    rw [hok, ok_bind, checkedSub_ok (by omega), ok_bind, hslot]
  · rw [if_neg hpast]
    exact ⟨a, rfl, Turned.refl h, hle, not_le.mp hpast⟩

/-- A report together with what is stashed of its flow. -/
def joinedFlow (entry : Option TaggedFlow) (f : TaggedFlow) : TaggedFlow :=
  match entry with
  | none => f
  | some flow => merged flow f

/-- The health check that a report finds under its addresses. -/
def occupant (aggregate : Bool) (a : FlowAggr) (entry : Option TaggedFlow) (f : TaggedFlow) :
    Option TaggedFlow :=
  if IsHeartbeat aggregate f.closeType then
    (a.heartbeatFlowStash.find (joinedFlow entry f).getHeartbeatAggrKey).map Prod.snd
  else none

/-- The flow that a report becomes.  Only what was stashed before is merged with other
health checks. -/
def outcome (entry occupant : Option TaggedFlow) (f : TaggedFlow) : TaggedFlow :=
  match entry, occupant with
  | some flow, some hbFlow => (hbFlow.sequentialMerge (merged flow f)).clearSourcePort
  | _, _ => joinedFlow entry f

theorem occupant_mem {aggregate : Bool} (ha : a.Shaped) {entry : Option TaggedFlow}
    {f hbFlow : TaggedFlow} (h : hbFlow ∈ occupant aggregate a entry f) :
    hbFlow ∈ a.heartbeats := by
  unfold occupant at h
  split at h
  · have hvalues := values_find ha.heartbeats (joinedFlow entry f).getHeartbeatAggrKey
    exact hvalues.mem_iff.mpr (mem_append_left _ (mem_toList.mpr h))
  · cases h

section Merged

variable (flow f : TaggedFlow)

theorem sequentialMerge_origin : (flow.sequentialMerge f).origin = flow.origin ++ f.origin := by
  unfold sequentialMerge
  split <;> rfl

theorem sequentialMerge_packetCount :
    (flow.sequentialMerge f).packetCount = flow.packetCount + f.packetCount := by
  have hswap : ∀ p q r t : Nat, p + q + (r + t) = p + r + (q + t) := by omega
  unfold sequentialMerge packetCount
  split <;> exact hswap _ _ _ _

theorem merged_closeType : (merged flow f).closeType = f.closeType := rfl

theorem merged_origin : (merged flow f).origin = flow.origin ++ f.origin := by
  rw [merged, sequentialMerge_origin]
  split <;> rfl

theorem merged_packetCount : (merged flow f).packetCount = flow.packetCount + f.packetCount := by
  rw [merged, sequentialMerge_packetCount]
  split
  · exact congrArg (· + f.packetCount) (add_comm _ _)
  · rfl

end Merged

theorem joinedFlow_origin (entry : Option TaggedFlow) (f : TaggedFlow) :
    (joinedFlow entry f).origin = entry.toList.flatMap origin ++ f.origin := by
  cases entry with
  | none => rfl
  | some flow => simpa [joinedFlow] using merged_origin flow f

theorem outcome_origin {entry occupant : Option TaggedFlow} (h : occupant ≠ none → entry ≠ none)
    (f : TaggedFlow) :
    (outcome entry occupant f).origin =
      (occupant.toList ++ entry.toList).flatMap origin ++ f.origin := by
  cases entry with
  | none =>
    cases occupant with
    | none => rfl
    | some hbFlow => exact absurd rfl (h nofun)
  | some flow =>
    cases occupant with
    | none => simpa [outcome, joinedFlow] using merged_origin flow f
    | some hbFlow =>
      have horigin := sequentialMerge_origin hbFlow (merged flow f)
      rw [merged_origin, ← append_assoc] at horigin
      simpa [outcome, clearSourcePort] using horigin

theorem outcome_packetCount {entry occupant : Option TaggedFlow}
    (h : occupant ≠ none → entry ≠ none) (f : TaggedFlow) :
    (outcome entry occupant f).packetCount =
      ((occupant.toList ++ entry.toList).map packetCount).sum + f.packetCount := by
  cases entry with
  | none =>
    cases occupant with
    | none => exact (zero_add _).symm
    | some hbFlow => exact absurd rfl (h nofun)
  | some flow =>
    cases occupant with
    | none => simpa [outcome, joinedFlow] using merged_packetCount flow f
    | some hbFlow =>
      have hcount := sequentialMerge_packetCount hbFlow (merged flow f)
      rw [merged_packetCount, ← add_assoc] at hcount
      have hclear : (outcome (some flow) (some hbFlow) f).packetCount =
        (hbFlow.sequentialMerge (merged flow f)).packetCount := rfl
      simpa using hclear.trans hcount

section Slots

variable {stashs : List (AList fun _ : BitVec 64 => TaggedFlow)} {slot : Nat}
  {flowStash : AList fun _ : BitVec 64 => TaggedFlow} {flowId : BitVec 64}

/-- The flow of a slot is written: `taken` goes from the ring, and `made` comes. -/
structure Written (stashs stashs' : List (AList fun _ : BitVec 64 => TaggedFlow)) (slot : Nat)
    (flowId : BitVec 64) (left : Option TaggedFlow) (taken made : List TaggedFlow) : Prop where
  length : stashs'.length = stashs.length
  lookup : ∀ i id, (stashs'.getD i ∅).lookup id =
    if i = slot ∧ id = flowId then left else (stashs.getD i ∅).lookup id
  values : ∃ rest, (stashs.flatMap Tables.values).Perm (taken ++ rest) ∧
    (stashs'.flatMap Tables.values).Perm (made ++ rest)

variable (hget : stashs[slot]? = some flowStash)

include hget

theorem written_of_set {stash : AList fun _ : BitVec 64 => TaggedFlow}
    {taken made others : List TaggedFlow}
    (hlookup : ∀ id, stash.lookup id = if id = flowId then left else flowStash.lookup id)
    (hbefore : (Tables.values flowStash).Perm (taken ++ others))
    (hafter : (Tables.values stash).Perm (made ++ others)) :
    Written stashs (stashs.set slot stash) slot flowId left taken made := by
  refine ⟨length_set, fun i id => ?_, ?_⟩
  · have hlt : slot < stashs.length := (List.getElem?_eq_some_iff.mp hget).1
    rw [getD_eq_getElem?_getD, getD_eq_getElem?_getD]
    by_cases hi : i = slot
    · rw [hi, getElem?_set_self hlt, hget, getD_some, getD_some, hlookup]
      simp only [true_and]
    · rw [getElem?_set_ne (Ne.symm hi), if_neg (fun hc => hi hc.1)]
  · obtain ⟨rest, hold, hnew⟩ := Tables.exists_flatMap_set Tables.values hget
    refine ⟨others ++ rest, ?_, ?_⟩
    · rw [← append_assoc]
      exact hold.trans (hbefore.append_right _)
    · rw [← append_assoc]
      exact (hnew stash).trans (hafter.append_right _)

theorem written_erase {flow : TaggedFlow} (hflow : flowStash.lookup flowId = some flow) :
    Written stashs (stashs.set slot (flowStash.erase flowId)) slot flowId none [flow] [] :=
  written_of_set hget (lookup_erase flowStash flowId) (values_erase hflow)
    (List.Perm.refl _)

theorem written_insert (flowId : BitVec 64) (f : TaggedFlow) :
    Written stashs (stashs.set slot (flowStash.insert flowId f)) slot flowId (some f)
      (flowStash.lookup flowId).toList [f] := by
  have hlookup := fun id => lookup_insert flowStash flowId id f
  cases hflow : flowStash.lookup flowId with
  | none =>
    have hnew := values_insert_new hflow f
    exact written_of_set hget hlookup (List.Perm.refl _) (hnew ▸ List.Perm.refl _)
  | some flow =>
    have hnew := values_insert flowStash flowId f
    exact written_of_set hget hlookup (values_erase hflow) (hnew ▸ List.Perm.refl _)

theorem written_none (hflow : flowStash.lookup flowId = none) :
    Written stashs stashs slot flowId none [] [] := by
  refine ⟨rfl, fun i id => ?_, _, List.Perm.refl _, List.Perm.refl _⟩
  split_ifs with hi
  · rw [hi.1, hi.2, getD_eq_getElem?_getD, hget, getD_some, hflow]
  · rfl

end Slots

theorem Written.entry {a a' : FlowAggr} {flowId : BitVec 64} {taken made : List TaggedFlow}
    (h : Written a.flowStashs a'.flowStashs (time - a.slotStartTime) flowId left taken made)
    (hstart : a'.slotStartTime = a.slotStartTime) (hle : a.slotStartTime ≤ time) (t : Nat)
    (id : BitVec 64) : a'.entry t id = if t = time ∧ id = flowId then left else a.entry t id := by
  by_cases ht : a.slotStartTime ≤ t
  · have hsame : t - a.slotStartTime = time - a.slotStartTime ↔ t = time := by omega
    rw [entry_of_le (hstart.symm ▸ ht), entry_of_le ht, hstart, h.lookup]
    simp only [hsame]
  · have hlt : t < a.slotStartTime := not_le.mp ht
    rw [if_neg (fun hc => absurd hc.1 (by omega)), FlowAggr.entry, FlowAggr.entry, hstart,
      if_pos hlt, if_pos hlt]

/-- A report was taken in: it takes some flows from the bag and puts one back. -/
structure Absorbed (a a' : FlowAggr) (time : Nat) (f : TaggedFlow) (taken : List TaggedFlow)
    (left made : TaggedFlow) : Prop where
  shaped : a'.Shaped
  slotStartTime : a'.slotStartTime = a.slotStartTime
  dropBeforeWindow : a'.dropBeforeWindow = a.dropBeforeWindow
  flows : ∃ rest, a.flows.Perm (taken ++ rest) ∧ a'.flows.Perm (made :: rest)
  entry : ∀ t id, a'.entry t id =
    if t = time ∧ id = f.flowId then if f.closeType = .forcedReport then some left else none
    else a.entry t id
  heartbeats : ∀ h ∈ a'.heartbeats,
    h ∈ a.heartbeats ∨ h = made ∧ f.closeType ≠ .forcedReport

section Reports

variable (ha : a.Shaped) (hle : a.slotStartTime ≤ time)
  {stashs : List (AList fun _ : BitVec 64 => TaggedFlow)}
include ha hle

theorem absorbed {chains : Chains Nat HeartbeatAggrKey TaggedFlow} {aggred : Nat}
    {f left made : TaggedFlow} {stored : Option TaggedFlow}
    {sent taken found others inRing inSent inHeart : List TaggedFlow}
    (h : Written a.flowStashs stashs (time - a.slotStartTime) f.flowId stored taken inRing)
    (hstored : (if f.closeType = .forcedReport then some left else none) = stored)
    (hsent : sent = a.sent ++ inSent) (hchains : chains.WellFormed)
    (hbefore : a.heartbeatFlowStash.values.Perm (found ++ others))
    (hafter : chains.values.Perm (inHeart ++ others))
    (hmade : inRing ++ inSent ++ inHeart = [made])
    (hclosed : inHeart = [] ∨ f.closeType ≠ .forcedReport) :
    Absorbed a
      { a with
        flowStashs := stashs, heartbeatFlowStash := chains, heartbeatAggred := aggred
        sent := sent }
      time f (found ++ taken) left made where
  shaped := ⟨h.length.trans ha.slots, ha.slotCount, hchains⟩
  slotStartTime := rfl
  dropBeforeWindow := rfl
  entry := by
    rw [hstored]
    exact h.entry rfl hle
  heartbeats g hg := by
    rcases mem_append.mp (hafter.mem_iff.mp hg) with hnew | hold
    · refine .inr ⟨?_, hclosed.resolve_left (ne_nil_of_mem hnew)⟩
      exact mem_singleton.mp (hmade ▸ mem_append_right _ hnew)
    · exact .inl (hbefore.mem_iff.mpr (mem_append_right _ hold))
  flows := by
    obtain ⟨rest, hring, hring'⟩ := h.values
    refine ⟨a.sent ++ (rest ++ others), ?_, ?_⟩
    · apply perm_iff_count.mpr
      intro g
      have hslots := hring.count_eq g
      have hheart := hbefore.count_eq g
      simp only [flows, stashed, heartbeats, count_append] at hslots hheart ⊢
      omega
    · apply perm_iff_count.mpr
      intro g
      have hslots := hring'.count_eq g
      have hheart := hafter.count_eq g
      rw [← singleton_append, ← hmade]
      simp only [hsent, flows, stashed, heartbeats, count_append] at hslots hheart ⊢
      omega

variable {flowStash : AList fun _ : BitVec 64 => TaggedFlow}
  (hget : a.flowStashs[time - a.slotStartTime]? = some flowStash) (aggregate : Bool)
  (f : TaggedFlow)
include hget

theorem mergeStashed_spec {flow : TaggedFlow} (hflow : flowStash.lookup f.flowId = some flow) :
    ∃ a', a.mergeStashed aggregate time (time - a.slotStartTime) flowStash flow f = .ok a' ∧
      Absorbed a a' time f ((occupant aggregate a (some flow) f).toList ++ [flow])
        (merged flow f) (outcome (some flow) (occupant aggregate a (some flow) f) f) := by
  have hlt := (List.getElem?_eq_some_iff.mp hget).1
  have herase := written_erase hget hflow
  unfold mergeStashed occupant
  dsimp only
  rw [merged_closeType]
  by_cases hheartbeat : IsHeartbeat aggregate f.closeType
  · have hclosed : f.closeType ≠ .forcedReport := by
      rw [hheartbeat.2]
      exact nofun
    rw [if_pos hheartbeat, if_pos hheartbeat, store_ok _ hlt, ok_bind]
    refine ⟨_, rfl, ?_⟩
    unfold addHeartbeat
    dsimp only [joinedFlow]
    cases hfind : a.heartbeatFlowStash.find (merged flow f).getHeartbeatAggrKey with
    | some found =>
      exact absorbed ha hle herase (if_neg hclosed) (append_nil _).symm ha.heartbeats.setValue
        (values_detach ha.heartbeats hfind) (values_setValue ha.heartbeats hfind _) rfl
        (.inr hclosed)
    | none =>
      have hbefore := values_find ha.heartbeats (merged flow f).getHeartbeatAggrKey
      rw [hfind] at hbefore
      exact absorbed ha hle herase (if_neg hclosed) (append_nil _).symm
        (ha.heartbeats.insert _ _ _) hbefore (values_insert ha.heartbeats _ _ _) rfl (.inr hclosed)
  · rw [if_neg hheartbeat, if_neg hheartbeat]
    by_cases hclosed : f.closeType = .forcedReport
    · rw [if_neg (not_not_intro hclosed), store_ok _ hlt, ok_bind]
      have hinsert := written_insert hget f.flowId (merged flow f)
      rw [hflow] at hinsert
      exact ⟨_, rfl, absorbed ha hle hinsert (if_pos hclosed) (append_nil _).symm ha.heartbeats
        (.refl ([] ++ _)) (.refl ([] ++ _)) rfl (.inl rfl)⟩
    · rw [if_pos hclosed, store_ok _ hlt, ok_bind]
      exact ⟨_, rfl, absorbed ha hle herase (if_neg hclosed) rfl ha.heartbeats
        (.refl ([] ++ _)) (.refl ([] ++ _)) rfl (.inl rfl)⟩

theorem mergeNew_spec (hflow : flowStash.lookup f.flowId = none) :
    ∃ a', a.mergeNew aggregate time (time - a.slotStartTime) flowStash f = .ok a' ∧
      Absorbed a a' time f ((occupant aggregate a none f).toList ++ []) f
        (outcome none (occupant aggregate a none f) f) := by
  have hlt := (List.getElem?_eq_some_iff.mp hget).1
  have hnone := written_none hget hflow
  unfold mergeNew occupant
  by_cases hheartbeat : IsHeartbeat aggregate f.closeType
  · have hclosed : f.closeType ≠ .forcedReport := by
      rw [hheartbeat.2]
      exact nofun
    rw [if_pos hheartbeat, if_pos hheartbeat]
    exact ⟨_, rfl, absorbed ha hle hnone (if_neg hclosed) (append_nil _).symm
      (ha.heartbeats.insert _ _ _) (values_find ha.heartbeats _)
      (values_insert ha.heartbeats _ _ _) rfl (.inr hclosed)⟩
  · rw [if_neg hheartbeat, if_neg hheartbeat]
    by_cases hclosed : f.closeType = .forcedReport
    · rw [if_neg (not_not_intro hclosed), store_ok _ hlt, ok_bind]
      have hinsert := written_insert hget f.flowId f
      rw [hflow] at hinsert
      exact ⟨_, rfl, absorbed ha hle hinsert (if_pos hclosed) (append_nil _).symm ha.heartbeats
        (.refl ([] ++ _)) (.refl ([] ++ _)) rfl (.inl rfl)⟩
    · rw [if_pos hclosed]
      exact ⟨_, rfl, absorbed ha hle hnone (if_neg hclosed) rfl ha.heartbeats
        (.refl ([] ++ _)) (.refl ([] ++ _)) rfl (.inl rfl)⟩

end Reports

/-- **All that a report inside the window does**: the ring may turn, and then the report is
joined with what is stashed of its flow and, if it ends a health check, meets the one that
has its addresses. -/
theorem minuteMerge_spec (ha : a.Shaped) (aggregate : Bool) {f : TaggedFlow}
    (htime : f.startTimeInMinute = .ok time) (hle : a.slotStartTime ≤ time) :
    ∃ b, a.locate aggregate time = .ok (b, time - b.slotStartTime) ∧ Turned a b ∧
      b.slotStartTime ≤ time ∧ ∃ a', a.minuteMerge aggregate f = .ok a' ∧
      Absorbed b a' time f
        ((occupant aggregate b (b.entry time f.flowId) f).toList ++ (b.entry time f.flowId).toList)
        (joinedFlow (b.entry time f.flowId) f)
        (outcome (b.entry time f.flowId) (occupant aggregate b (b.entry time f.flowId) f) f) := by
  obtain ⟨b, hlocate, hturned, hinside, hslot⟩ := locate_spec ha aggregate hle
  have hlt : time - b.slotStartTime < b.flowStashs.length := by
    rw [hturned.shaped.slots]
    exact hslot
  have hget : b.flowStashs[time - b.slotStartTime]? =
      some (b.flowStashs.getD (time - b.slotStartTime) ∅) := by
    rw [getD_eq_getElem _ _ hlt, getElem?_eq_getElem hlt]
  refine ⟨b, hlocate, hturned, hinside, ?_⟩
  rw [entry_of_le hinside]
  unfold minuteMerge
  rw [htime, ok_bind, if_neg (not_lt.mpr hle), hlocate, ok_bind]
  dsimp only
  rw [index_ok hget, ok_bind]
  cases hflow : (b.flowStashs.getD (time - b.slotStartTime) ∅).lookup f.flowId with
  | some flow => exact mergeStashed_spec hturned.shaped hinside hget aggregate f hflow
  | none => exact mergeNew_spec hturned.shaped hinside hget aggregate f hflow

end FlowAggr

end ZeroTrace.Collector.Aggr
