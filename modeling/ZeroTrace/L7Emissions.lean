import ZeroTrace.L7SubQuadGenSteps

/-!
# The tags of meters that were handed on

A generator is recorded together with what was injected for each flow into each slot since
its meters were last handed on, and with every meter that was handed on.  A waiting meter
is the merge of what was injected with its tags.  It is handed on with these tags except
for its span of time, which it takes from the statistics that bring the flow; and an
empty meter that found nothing waiting is dropped, with the score of its direction.
-/

namespace ZeroTrace.Collector.L7

open RustExec Runs List L7.SubQuadGen AppMeter Tables Lru

/-- A meter that was injected, with its tags. -/
structure Injection where
  app : AppTags
  appMeter : AppMeter
  deriving DecidableEq

/-- What has come so far, with one more meter. -/
def mergeNext (acc : Option AppMeter) (m : AppMeter) : Option AppMeter :=
  match acc with
  | some acc => some (acc.sequentialMerge m)
  | none => some m

/-- The merge of the meters that were injected with given tags. -/
def gather (app : AppTags) (injected : List Injection) : Option AppMeter :=
  ((injected.filter fun j => j.app = app).map Injection.appMeter).foldl mergeNext none

theorem gather_concat (app : AppTags) (injected : List Injection) (j : Injection) :
    gather app (injected ++ [j]) =
      if j.app = app then mergeNext (gather app injected) j.appMeter else gather app injected := by
  unfold gather
  rw [filter_append, map_append, foldl_append]
  split_ifs with h
  · rw [filter_cons_of_pos (by simpa using h)]
    rfl
  · rw [filter_cons_of_neg (by simpa using h)]
    rfl

/-- A meter whose direction has at least a given score. -/
def AppMeter.raise (score : Nat) (m : AppMeter) : AppMeter :=
  { m with traffic := { m.traffic with directionScore := max score m.traffic.directionScore } }

theorem AppMeter.raise_zero (m : AppMeter) : m.raise 0 = m := by
  simp [raise]

theorem AppMeter.raise_raise (s s' : Nat) (m : AppMeter) :
    (m.raise s').raise s = m.raise (max s s') := by
  simp [raise, max_assoc]

theorem AppMeter.raise_eq_self_iff {s : Nat} {m : AppMeter} :
    m.raise s = m ↔ s ≤ m.traffic.directionScore := by
  constructor
  · intro h
    have hscore := congrArg (fun m : AppMeter => m.traffic.directionScore) h
    exact max_eq_right_iff.mp hscore
  · intro h
    rw [raise, max_eq_right h]

theorem AppMeter.sequentialMerge_raise (s : Nat) (m m' : AppMeter) :
    (m.raise s).sequentialMerge m' = (m.sequentialMerge m').raise s := by
  simp [raise, sequentialMerge, AppTraffic.sequentialMerge, max_assoc]

theorem AppMeter.sequentialMerge_of_isEmpty {m : AppMeter} (h : m.isEmpty = true) (m' : AppMeter) :
    m.sequentialMerge m' = m'.raise m.traffic.directionScore := by
  simp only [isEmpty, AppTraffic.isEmpty, Bool.and_eq_true, beq_iff_eq] at h
  obtain ⟨⟨⟨hrequest, hresponse⟩, hlatency⟩, hanomaly⟩ := h
  have hmax : (if 0 < m'.latency.rrtMax then m'.latency.rrtMax else 0) = m'.latency.rrtMax := by
    split <;> omega
  simp [sequentialMerge, AppTraffic.sequentialMerge, AppLatency.sequentialMerge,
    AppAnomaly.sequentialMerge, raise, hrequest, hresponse, hlatency, hanomaly, hmax]

theorem foldl_mergeNext_raise (s : Nat) (ms : List AppMeter) (m : AppMeter) :
    ms.foldl mergeNext (some (m.raise s)) =
      (ms.foldl mergeNext (some m)).map (raise s) := by
  induction ms generalizing m with
  | nil => rfl
  | cons m' ms ih =>
    rw [foldl_cons, foldl_cons, mergeNext, mergeNext, sequentialMerge_raise, ih]

variable {app : AppTags}

theorem gather_cons_empty {injected : List Injection} {m : AppMeter}
    (hm : gather app injected = some m) {j : Injection} (hj : j.appMeter.isEmpty = true)
    (happ : j.app = app) :
    gather app (j :: injected) = some (m.raise j.appMeter.traffic.directionScore) := by
  unfold gather at hm ⊢
  rw [filter_cons_of_pos (by simpa using happ), map_cons, foldl_cons]
  cases hrest : (injected.filter fun j => j.app = app).map Injection.appMeter with
  | nil =>
    rw [hrest] at hm
    cases hm
  | cons first rest =>
    rw [hrest, foldl_cons] at hm
    rw [foldl_cons, mergeNext, mergeNext, sequentialMerge_of_isEmpty hj,
      foldl_mergeNext_raise]
    exact congrArg (Option.map _) hm

/-- **Dropped meters.**  Empty meters that came before others are missed exactly if one of
the same tags has a higher score. -/
theorem gather_append_empty_iff {dropped kept : List Injection} {m : AppMeter}
    (hm : gather app kept = some m) (hempty : ∀ j ∈ dropped, j.appMeter.isEmpty = true) :
    gather app (dropped ++ kept) = some m ↔
      ∀ j ∈ dropped, j.app = app →
        j.appMeter.traffic.directionScore ≤ m.traffic.directionScore := by
  suffices hraise : ∃ s, gather app (dropped ++ kept) = some (m.raise s) ∧
      (s ≤ m.traffic.directionScore ↔ ∀ j ∈ dropped, j.app = app →
        j.appMeter.traffic.directionScore ≤ m.traffic.directionScore) by
    obtain ⟨s, hs, hle⟩ := hraise
    rw [hs, Option.some.injEq, raise_eq_self_iff, hle]
  induction dropped with
  | nil => exact ⟨0, by rw [raise_zero]; exact hm, by simp⟩
  | cons j dropped ih =>
    obtain ⟨hj, hempty⟩ := forall_mem_cons.mp hempty
    obtain ⟨s, hs, hle⟩ := ih hempty
    by_cases happ : j.app = app
    · refine ⟨max j.appMeter.traffic.directionScore s, ?_, ?_⟩
      · rw [cons_append, gather_cons_empty hs hj happ, raise_raise]
      · rw [Nat.max_le, hle, forall_mem_cons]
        simp [happ]
    · refine ⟨s, ?_, ?_⟩
      · rw [← hs, gather, gather, cons_append, filter_cons_of_neg (by simpa using happ)]
      · rw [hle, forall_mem_cons]
        simp [happ]

def waitingMeter : List AppMeterWithL7Protocol → AppTags → Option AppMeter
  | [], _ => none
  | m :: meters, app => if m.app = app then some m.appMeter else waitingMeter meters app

theorem waitingMeter_accumulate (meters : List AppMeterWithL7Protocol)
    (meter : AppMeterWithL7Protocol) (app : AppTags) :
    waitingMeter (accumulate meters meter) app =
      if meter.app = app then mergeNext (waitingMeter meters app) meter.appMeter
      else waitingMeter meters app := by
  induction meters with
  | nil => rfl
  | cons m meters ih =>
    by_cases hm : m.app = meter.app
    · by_cases happ : meter.app = app
      · simp [accumulate, waitingMeter, mergeNext, hm, happ]
      · simp [accumulate, waitingMeter, hm, happ]
    · rw [accumulate, if_neg hm, waitingMeter, waitingMeter, ih]
      by_cases happ : meter.app = app
      · have hne : m.app ≠ app := fun hc => hm (hc.trans happ.symm)
        simp only [if_neg hne]
      · simp only [if_neg happ]

variable {meters : List AppMeterWithL7Protocol}

theorem map_app_accumulate (meter : AppMeterWithL7Protocol) :
    (accumulate meters meter).map (·.app) =
      if meter.app ∈ meters.map (·.app) then meters.map (·.app)
      else meters.map (·.app) ++ [meter.app] := by
  induction meters with
  | nil => rfl
  | cons m meters ih =>
    by_cases hm : m.app = meter.app
    · simp [accumulate, hm]
    · rw [accumulate, if_neg hm, map_cons, ih]
      simp only [map_cons, mem_cons, Ne.symm hm, false_or]
      split_ifs <;> rfl

theorem nodup_accumulate (h : (meters.map (·.app)).Nodup) (meter : AppMeterWithL7Protocol) :
    ((accumulate meters meter).map (·.app)).Nodup := by
  rw [map_app_accumulate]
  split_ifs with hmem
  · exact h
  · exact nodup_append_comm.mpr (nodup_cons.mpr ⟨hmem, h⟩)

theorem waitingMeter_of_mem (h : (meters.map (·.app)).Nodup) {m : AppMeterWithL7Protocol}
    (hm : m ∈ meters) : waitingMeter meters m.app = some m.appMeter := by
  induction meters with
  | nil => cases hm
  | cons first meters ih =>
    rw [map_cons, nodup_cons] at h
    rw [waitingMeter]
    rcases mem_cons.mp hm with rfl | hm
    · exact if_pos rfl
    have hne : first.app ≠ m.app := by
      intro heq
      exact h.1 (heq ▸ mem_map_of_mem hm)
    rw [if_neg hne, ih h.2 hm]

/-- What was injected for a flow into a slot since its meters were last handed on: first
what came empty while nothing waited, then what waits. -/
structure Account where
  dropped : List Injection := []
  kept : List Injection := []

def Account.injected (a : Account) : List Injection := a.dropped ++ a.kept

/-- The meters that wait for a flow are the merges of what was injected and not dropped. -/
structure Agrees (waiting : Option (List AppMeterWithL7Protocol)) (a : Account) : Prop where
  dropped : ∀ j ∈ a.dropped, j.appMeter.isEmpty = true
  nothing : waiting = none → a.kept = []
  distinct : ∀ meters, waiting = some meters → (meters.map (·.app)).Nodup
  merged : ∀ meters, waiting = some meters →
    ∀ app, gather app a.kept = waitingMeter meters app

theorem agrees_none {a : Account} (hdropped : ∀ j ∈ a.dropped, j.appMeter.isEmpty = true)
    (hkept : a.kept = []) : Agrees none a :=
  ⟨hdropped, fun _ => hkept, nofun, nofun⟩

theorem agrees_some {a : Account} (hdropped : ∀ j ∈ a.dropped, j.appMeter.isEmpty = true)
    (hdistinct : (meters.map (·.app)).Nodup)
    (hmerged : ∀ app, gather app a.kept = waitingMeter meters app) : Agrees (some meters) a := by
  refine ⟨hdropped, nofun, ?_, ?_⟩
  · intro meters' h
    cases h
    exact hdistinct
  · intro meters' h
    cases h
    exact hmerged

section Arrivals

variable (waiting : Option (List AppMeterWithL7Protocol)) (flow : Option Flow)
  (meter : AppMeterWithL7Protocol)

/-- The meters that an arrival takes from those that wait. -/
def taken : List AppMeterWithL7Protocol :=
  match flow, waiting with
  | none, _ => []
  | some _, some meters => notEmpty (accumulate meters meter)
  | some _, none => notEmpty [meter]

def waitingAfter : Option (List AppMeterWithL7Protocol) :=
  match waiting with
  | some meters => some (if flow.isSome then [] else accumulate meters meter)
  | none => if meter.appMeter.isEmpty ∨ flow.isSome then none else some [meter]

def accountAfter (a : Account) : Account :=
  if waiting = none ∧ meter.appMeter.isEmpty then
    { a with dropped := a.dropped ++ [⟨meter.app, meter.appMeter⟩] }
  else if flow.isSome then {}
  else { a with kept := a.kept ++ [⟨meter.app, meter.appMeter⟩] }

variable {waiting flow meter} {a : Account}

theorem Agrees.accumulate (h : Agrees (some meters) a) (meter : AppMeterWithL7Protocol)
    (app : AppTags) :
    gather app (a.kept ++ [⟨meter.app, meter.appMeter⟩]) =
      waitingMeter (L7.accumulate meters meter) app := by
  rw [gather_concat, waitingMeter_accumulate, h.merged meters rfl]

theorem Agrees.after (h : Agrees waiting a) :
    Agrees (waitingAfter waiting flow meter) (accountAfter waiting flow meter a) := by
  cases waiting with
  | some meters =>
    cases flow with
    | some flow => exact agrees_some nofun nodup_nil fun _ => rfl
    | none =>
      exact agrees_some h.dropped (nodup_accumulate (h.distinct meters rfl) meter)
        (h.accumulate meter)
  | none =>
    have hkept := h.nothing rfl
    by_cases hempty : meter.appMeter.isEmpty = true
    · have hwaiting : waitingAfter none flow meter = none := if_pos (.inl hempty)
      rw [hwaiting, accountAfter, if_pos ⟨rfl, hempty⟩]
      exact agrees_none
        (forall_mem_append.mpr ⟨h.dropped, forall_mem_singleton.mpr hempty⟩) hkept
    rw [accountAfter, if_neg (fun hc => hempty hc.2)]
    cases flow with
    | some flow =>
      have hwaiting : waitingAfter none (some flow) meter = none := if_pos (.inr rfl)
      rw [hwaiting]
      exact agrees_none nofun rfl
    | none =>
      have hwaiting : waitingAfter none none meter = some [meter] :=
        if_neg (fun hc => hc.elim hempty nofun)
      rw [hwaiting]
      refine agrees_some h.dropped (nodup_singleton _) fun app => ?_
      have hgather : gather app (a.kept ++ [⟨meter.app, meter.appMeter⟩]) =
          waitingMeter [meter] app := by
        rw [hkept, gather_concat]
        rfl
      exact hgather

theorem Agrees.taken (h : Agrees waiting a) {m : AppMeterWithL7Protocol}
    (hm : m ∈ taken waiting flow meter) :
    gather m.app (a.kept ++ [⟨meter.app, meter.appMeter⟩]) = some m.appMeter := by
  unfold L7.taken notEmpty at hm
  cases flow with
  | none => cases hm
  | some flow =>
    cases waiting with
    | some meters =>
      have hmem := mem_of_mem_filter hm
      rw [h.accumulate meter]
      exact waitingMeter_of_mem (nodup_accumulate (h.distinct meters rfl) meter) hmem
    | none =>
      have hmem := mem_singleton.mp (mem_of_mem_filter hm)
      rw [hmem, h.nothing rfl, nil_append]
      simp [gather, mergeNext]

end Arrivals

section

variable [Crate]

/-- A meter as it is handed on.  One that finds nothing waiting has the time of its own
statistics. -/
def handed (waiting : Option (List AppMeterWithL7Protocol)) (l7Stats : L7Stats) (flow : Flow)
    (possibleHost : Option PossibleHost) (timeSpan : BitVec 32) (m : AppMeterWithL7Protocol) :
    AppMeterWithFlow AppMeter :=
  let item := m.withFlow flow.mini (checkActive possibleHost flow.mini).1 timeSpan
  if waiting.isNone then { item with timeInSecond := l7Stats.timeInSecond } else item

/-- What an arrival hands on: the meters it takes, and what becomes of them. -/
def emitted (waiting : Option (List AppMeterWithL7Protocol)) (l7Stats : L7Stats)
    (possibleHost : Option PossibleHost) (meter : AppMeterWithL7Protocol) :
    List (AppMeterWithL7Protocol × AppMeterWithFlow AppMeter) :=
  match l7Stats.flow with
  | none => []
  | some flow =>
    (taken waiting (some flow) meter).map fun m =>
      (m, handed waiting l7Stats flow possibleHost meter.app.timeSpan m)

variable {waiting : Option (List AppMeterWithL7Protocol)} {l7Stats : L7Stats}
  {meter m : AppMeterWithL7Protocol} {item : AppMeterWithFlow AppMeter}

theorem mem_emitted {possibleHost : Option PossibleHost}
    (h : (m, item) ∈ emitted waiting l7Stats possibleHost meter) :
    m ∈ taken waiting l7Stats.flow meter ∧
      item.app = { m.app with timeSpan := meter.app.timeSpan } ∧ item.appMeter = m.appMeter := by
  unfold emitted at h
  cases hflow : l7Stats.flow with
  | none =>
    rw [hflow] at h
    cases h
  | some flow =>
    rw [hflow] at h
    obtain ⟨m', hm', heq⟩ := mem_map.mp h
    cases heq
    refine ⟨hm', ?_⟩
    unfold handed
    split <;> exact ⟨rfl, rfl⟩

theorem exists_emitted (possibleHost : Option PossibleHost)
    (h : m ∈ taken waiting l7Stats.flow meter) :
    ∃ item, (m, item) ∈ emitted waiting l7Stats possibleHost meter := by
  unfold emitted
  cases hflow : l7Stats.flow with
  | none =>
    rw [hflow] at h
    cases h
  | some flow =>
    rw [hflow] at h
    exact ⟨_, mem_map_of_mem h⟩

/-- A slot has other meters waiting for one flow, and `meters` were handed on. -/
structure Injected (g g' : SubQuadGen) (slot : Nat) (flowId : BitVec 64)
    (waiting : Option (List AppMeterWithL7Protocol))
    (meters : List (AppMeterWithFlow AppMeter)) : Prop where
  windowStart : g'.windowStart = g.windowStart
  slotInterval : g'.slotInterval = g.slotInterval
  shaped : g.Shaped → g'.Shaped
  lookup : ∀ i id, (g'.stashAt i).l7Stats.lookup id =
    if i = slot ∧ id = flowId then waiting else (g.stashAt i).l7Stats.lookup id
  handedOn : g'.handedOn.Perm (g.handedOn ++ meters)

omit [Crate] in
theorem SubQuadGen.Stored.injected {g g' : SubQuadGen} {slot : Nat}
    {l7Stats : AList fun _ : BitVec 64 => List AppMeterWithL7Protocol}
    {meters : List (AppMeterWithFlow AppMeter)} (h : Stored g g' slot l7Stats meters)
    {flowId : BitVec 64}
    (hlookup : ∀ id, l7Stats.lookup id =
      if id = flowId then waiting else (g.stashAt slot).l7Stats.lookup id) :
    Injected g g' slot flowId waiting meters := by
  refine ⟨h.windowStart, h.slotInterval, fun hg => ⟨?_, ?_⟩, fun i id => ?_, h.handedOn⟩
  · rw [h.stashs, h.numberOfSlots, hg.slots]
  · rw [h.slotInterval]
    exact hg.interval
  · rw [h.l7Stats]
    by_cases hi : i = slot
    · rw [if_pos hi, hlookup, hi]
      simp only [true_and]
    · rw [if_neg hi, if_neg (fun hc => hi hc.1)]

section Injection

variable {g : SubQuadGen} {slot : Nat} (hget : g.stashs[slot]? = some (g.stashAt slot))
include hget

theorem injectWaiting_spec (meter : AppMeterWithL7Protocol) (possibleHost : Option PossibleHost) :
    ∃ g' hosts, g.injectWaiting slot (g.stashAt slot) l7Stats meters meter possibleHost =
        .ok (g', hosts) ∧
      Injected g g' slot l7Stats.flowId (waitingAfter (some meters) l7Stats.flow meter)
        ((emitted (some meters) l7Stats possibleHost meter).map Prod.snd) := by
  unfold injectWaiting emitted
  cases l7Stats.flow with
  | some flow =>
    obtain ⟨g', hok, hstored⟩ := handOn_spec hget
      (show ({ g.stashAt slot with
        l7Stats := (g.stashAt slot).l7Stats.insert l7Stats.flowId [] } : QuadrupleStash).meters =
          (g.stashAt slot).meters from rfl) flow.closeType
      ((notEmpty (accumulate meters meter)).map fun m =>
        m.withFlow flow.mini (checkActive possibleHost flow.mini).1 meter.app.timeSpan)
    refine ⟨g', (checkActive possibleHost flow.mini).2, ?_, ?_⟩
    · dsimp only
      rw [hok]
      rfl
    · rw [map_map]
      exact hstored.injected fun id => lookup_insert _ _ id _
  | none =>
    obtain ⟨g', hok, hstored⟩ := keep_spec hget l7Stats.flowId (accumulate meters meter)
    refine ⟨g', possibleHost, ?_, hstored.injected fun id => lookup_insert _ _ id _⟩
    dsimp only
    rw [hok]
    rfl

theorem injectAlone_spec (hnone : (g.stashAt slot).l7Stats.lookup l7Stats.flowId = none)
    (meter : AppMeterWithL7Protocol) (possibleHost : Option PossibleHost) :
    ∃ g' hosts, g.injectAlone slot (g.stashAt slot) l7Stats meter possibleHost =
        .ok (g', hosts) ∧
      Injected g g' slot l7Stats.flowId (waitingAfter none l7Stats.flow meter)
        ((emitted none l7Stats possibleHost meter).map Prod.snd) := by
  have hsame : ∀ id, (g.stashAt slot).l7Stats.lookup id =
      if id = l7Stats.flowId then none else (g.stashAt slot).l7Stats.lookup id := by
    intro id
    split_ifs with hid
    · rw [hid, hnone]
    · rfl
  unfold injectAlone emitted
  by_cases hempty : meter.appMeter.isEmpty = true
  · have hwaiting : waitingAfter none l7Stats.flow meter = none := if_pos (.inl hempty)
    have htaken : ∀ flow, taken none (some flow) meter = [] := by
      intro flow
      simp [taken, notEmpty, hempty]
    rw [if_pos hempty, hwaiting]
    refine ⟨g, possibleHost, rfl, rfl, rfl, id, fun i id => ?_, ?_⟩
    · split_ifs with hi
      · rw [hi.1, hi.2, hnone]
      · rfl
    · cases l7Stats.flow with
      | none => simp
      | some flow => simp [htaken]
  rw [if_neg hempty]
  cases l7Stats.flow with
  | some flow =>
    obtain ⟨g', hok, hstored⟩ := handOn_spec hget rfl flow.closeType
      [{ meter.withFlow flow.mini (checkActive possibleHost flow.mini).1 meter.app.timeSpan with
          timeInSecond := l7Stats.timeInSecond }]
    have hwaiting : waitingAfter none (some flow) meter = none := if_pos (.inr rfl)
    have htaken : taken none (some flow) meter = [meter] := by simp [taken, notEmpty, hempty]
    refine ⟨g', (checkActive possibleHost flow.mini).2, ?_, ?_⟩
    · dsimp only
      rw [hok]
      rfl
    · rw [hwaiting]
      dsimp only
      rw [htaken]
      exact hstored.injected hsame
  | none =>
    have hwaiting : waitingAfter none none meter = some [meter] :=
      if_neg (fun hc => hc.elim hempty nofun)
    obtain ⟨g', hok, hstored⟩ := keep_spec hget l7Stats.flowId [meter]
    refine ⟨g', possibleHost, ?_, ?_⟩
    · rw [hok]
      rfl
    · rw [hwaiting]
      exact hstored.injected fun id => lookup_insert _ _ id _

end Injection

/-- **An arrival inside the window**, by what waits in its slot. -/
theorem injectAppMeter_spec {g : SubQuadGen} {time slot : Nat} {timeSpan : BitVec 32}
    (hinside : ¬ time < g.windowStart) (hslot : g.slotFor time = .ok slot)
    (hlt : slot < g.stashs.length) (hspan : g.timeSpanFor l7Stats time = .ok timeSpan)
    (appMeter : AppMeter) (endpointHash : BitVec 32) (possibleHost : Option PossibleHost) :
    let meter := .ofStats l7Stats appMeter endpointHash time timeSpan
    let waiting := (g.stashAt slot).l7Stats.lookup l7Stats.flowId
    ∃ g' hosts, g.injectAppMeter l7Stats appMeter endpointHash time possibleHost =
        .ok (g', hosts) ∧
      Injected g g' slot l7Stats.flowId (waitingAfter waiting l7Stats.flow meter)
        ((emitted waiting l7Stats possibleHost meter).map Prod.snd) := by
  have hget : g.stashs[slot]? = some (g.stashAt slot) := by
    rw [stashAt, getD_eq_getElem _ _ hlt, getElem?_eq_getElem hlt]
  unfold injectAppMeter
  rw [if_neg hinside, hslot, ok_bind, hspan, ok_bind, index_ok hget, ok_bind]
  cases hwaiting : (g.stashAt slot).l7Stats.lookup l7Stats.flowId with
  | some meters => exact injectWaiting_spec hget _ possibleHost
  | none => exact injectAlone_spec hget hwaiting _ possibleHost

/-- A meter that was handed on: the meter that waited for its flow, what became of it, and
what was injected for the flow into its slot since the last time. -/
structure Emission where
  flowId : BitVec 64
  source : AppMeterWithL7Protocol
  item : AppMeterWithFlow AppMeter
  injected : List Injection

/-- It has the tags of what it was made from, and is the merge of all that was injected
with these tags. -/
structure Emission.Exact (e : Emission) : Prop where
  tags : e.item.app = e.source.app
  merged : gather e.item.app e.injected = some e.item.appMeter

/-- A generator together with its accounts, by the start of a slot and the flow, and all
that it handed on. -/
structure Recorded where
  gen : SubQuadGen
  account : Nat × BitVec 64 → Account
  emissions : List Emission

/-- What a generator is asked for. -/
inductive Call where
  | moveWindow (timeInSecond : Nat)
  | injectAppMeter (l7Stats : L7Stats) (appMeter : AppMeter) (endpointHash : BitVec 32)
      (timeInSecond : Nat) (possibleHost : Option PossibleHost)

namespace Recorded

/-- A generator that was just made. -/
def start (gen : SubQuadGen) : Recorded := ⟨gen, fun _ => {}, []⟩

def accountAt (s : Recorded) (slot : Nat) (flowId : BitVec 64) : Account :=
  s.account (s.gen.windowStart + s.gen.slotInterval * slot, flowId)

def waitingAt (s : Recorded) (slot : Nat) (flowId : BitVec 64) :
    Option (List AppMeterWithL7Protocol) :=
  (s.gen.stashAt slot).l7Stats.lookup flowId

/-- An arrival is written down. -/
def arrive (s : Recorded) (gen : SubQuadGen) (slot : Nat) (l7Stats : L7Stats)
    (meter : AppMeterWithL7Protocol) (possibleHost : Option PossibleHost) : Recorded where
  gen := gen
  account :=
    Function.update s.account
      (s.gen.windowStart + s.gen.slotInterval * slot, l7Stats.flowId)
      (accountAfter (s.waitingAt slot l7Stats.flowId) l7Stats.flow meter
        (s.accountAt slot l7Stats.flowId))
  emissions :=
    s.emissions ++
      (emitted (s.waitingAt slot l7Stats.flowId) l7Stats possibleHost meter).map fun e =>
        { flowId := l7Stats.flowId
          source := e.1
          item := e.2
          injected := (s.accountAt slot l7Stats.flowId).injected ++
            [⟨meter.app, meter.appMeter⟩] }

/-- One call. -/
def step (s : Recorded) : Call → Exec Recorded
  | .moveWindow time => s.gen.moveWindow time >>= fun (_, gen) => .ok { s with gen := gen }
  | .injectAppMeter l7Stats appMeter endpointHash time possibleHost =>
    s.gen.injectAppMeter l7Stats appMeter endpointHash time possibleHost >>= fun (gen, _) =>
      if time < s.gen.windowStart then .ok { s with gen := gen }
      else
        s.gen.slotFor time >>= fun slot =>
          s.gen.timeSpanFor l7Stats time >>= fun timeSpan =>
            .ok (s.arrive gen slot l7Stats
              (.ofStats l7Stats appMeter endpointHash time timeSpan) possibleHost)

/-- All that was handed on was written down, and is exact. -/
structure Exact (s : Recorded) : Prop where
  handedOn : s.gen.handedOn.Perm (s.emissions.map Emission.item)
  exact : ∀ e ∈ s.emissions, e.Exact

/-- A call that spoils nothing.  A request does not come from before the beginning of
time; and each meter that is handed on has the span of time of the statistics that bring
the flow, and a score that is not below that of an empty meter that was dropped. -/
def Clear (s : Recorded) : Call → Prop
  | .moveWindow _ => True
  | .injectAppMeter l7Stats appMeter endpointHash time _ =>
    s.gen.windowStart ≤ time →
      0 < s.gen.numberOfSlots ∧ l7Stats.timeSpan.toNat ≤ time ∧
        ∀ slot timeSpan, s.gen.slotFor time = .ok slot →
          s.gen.timeSpanFor l7Stats time = .ok timeSpan →
          ∀ m ∈ taken (s.waitingAt slot l7Stats.flowId) l7Stats.flow
              (.ofStats l7Stats appMeter endpointHash time timeSpan),
            m.app.timeSpan = timeSpan ∧
              ∀ j ∈ (s.accountAt slot l7Stats.flowId).dropped, j.app = m.app →
                j.appMeter.traffic.directionScore ≤ m.appMeter.traffic.directionScore

/-- What holds all along a run that spoils nothing. -/
structure Sound (s : Recorded) : Prop where
  shaped : s.gen.Shaped
  agrees : ∀ slot flowId, Agrees (s.waitingAt slot flowId) (s.accountAt slot flowId)
  exact : s.Exact

/-- A meter is handed on as it should be exactly if its span of time is that of the
arrival and no dropped meter had a higher score. -/
theorem emission_exact_iff {a : Account} (h : Agrees waiting a) {possibleHost : Option PossibleHost}
    (flowId : BitVec 64) (hmem : (m, item) ∈ emitted waiting l7Stats possibleHost meter) :
    Emission.Exact ⟨flowId, m, item, a.injected ++ [⟨meter.app, meter.appMeter⟩]⟩ ↔
      m.app.timeSpan = meter.app.timeSpan ∧
        ∀ j ∈ a.dropped, j.app = m.app →
          j.appMeter.traffic.directionScore ≤ m.appMeter.traffic.directionScore := by
  obtain ⟨htaken, happ, hmeter⟩ := mem_emitted hmem
  have hdropped := gather_append_empty_iff (h.taken htaken) h.dropped
  rw [← append_assoc] at hdropped
  have htags : item.app = m.app ↔ m.app.timeSpan = meter.app.timeSpan := by
    rw [happ]
    constructor
    · intro heq
      exact (congrArg AppTags.timeSpan heq).symm
    · intro heq
      rw [← heq]
  rw [← htags, ← hdropped, ← hmeter]
  constructor
  · intro hexact
    have heq : item.app = m.app := hexact.tags
    exact ⟨heq, heq ▸ hexact.merged⟩
  · intro hclear
    exact ⟨hclear.1, hclear.1 ▸ hclear.2⟩

omit [Crate] in
theorem sound_new {interval : Nat} (hinterval : 0 < interval) {windowStart slots delay : Nat} :
    Sound (start (.new windowStart interval slots delay)) where
  shaped := ⟨length_replicate, hinterval⟩
  agrees slot flowId := by
    have hstash : (new windowStart interval slots delay).stashAt slot = .new :=
      getElem?_getD_replicate_default_eq _ _ _
    have hwaiting : (start (.new windowStart interval slots delay)).waitingAt slot flowId = none :=
      congrArg (fun stash => stash.l7Stats.lookup flowId) hstash
    rw [hwaiting]
    exact agrees_none (fun _ hj => by cases hj) rfl
  exact := by
    refine ⟨?_, fun _ he => by cases he⟩
    change ([] ++ [] ++ (List.replicate slots QuadrupleStash.new).flatMap
      QuadrupleStash.meters).Perm []
    rw [flatMap_replicate_new]
    exact .refl _

omit [Crate] in
theorem sound_start (kind : MetricsType) (windowStart delay : Nat) :
    Sound (start (.ofMetricsType windowStart delay kind)) := by
  cases kind with
  | second => exact sound_new one_pos
  | minute => exact sound_new (by decide)

omit [Crate] in
theorem Sound.shifted {s : Recorded} (h : s.Sound) {gen : SubQuadGen} {shift : Nat}
    (hshift : s.gen.Shifted gen shift) : Sound { s with gen := gen } where
  shaped := hshift.shaped h.shaped
  agrees slot flowId := by
    have hwaiting : waitingAt { s with gen := gen } slot flowId =
        s.waitingAt (slot + shift) flowId :=
      congrArg (fun stash => stash.l7Stats.lookup flowId) (hshift.stashAt slot)
    have haccount : accountAt { s with gen := gen } slot flowId =
        s.accountAt (slot + shift) flowId := by
      have hplace : gen.windowStart + gen.slotInterval * slot =
          s.gen.windowStart + s.gen.slotInterval * (slot + shift) := by
        rw [hshift.windowStart, hshift.slotInterval, mul_add]
        omega
      exact congrArg (fun place => s.account (place, flowId)) hplace
    rw [hwaiting, haccount]
    exact h.agrees (slot + shift) flowId
  exact := ⟨hshift.handedOn.trans h.exact.handedOn, h.exact.exact⟩

section Arriving

variable {s : Recorded} {gen : SubQuadGen} {slot : Nat} {possibleHost : Option PossibleHost}
  (h : s.Sound)
  (hin : Injected s.gen gen slot l7Stats.flowId
    (waitingAfter (s.waitingAt slot l7Stats.flowId) l7Stats.flow meter)
    ((emitted (s.waitingAt slot l7Stats.flowId) l7Stats possibleHost meter).map Prod.snd))

include h hin

theorem Sound.agrees_arrive (i : Nat) (id : BitVec 64) :
    Agrees ((s.arrive gen slot l7Stats meter possibleHost).waitingAt i id)
      ((s.arrive gen slot l7Stats meter possibleHost).accountAt i id) := by
  have hwaiting : (s.arrive gen slot l7Stats meter possibleHost).waitingAt i id =
      if i = slot ∧ id = l7Stats.flowId then
        waitingAfter (s.waitingAt slot l7Stats.flowId) l7Stats.flow meter
      else s.waitingAt i id := hin.lookup i id
  have haccount : (s.arrive gen slot l7Stats meter possibleHost).accountAt i id =
      if i = slot ∧ id = l7Stats.flowId then
        accountAfter (s.waitingAt slot l7Stats.flowId) l7Stats.flow meter
          (s.accountAt slot l7Stats.flowId)
      else s.accountAt i id := by
    unfold accountAt arrive
    dsimp only
    rw [hin.windowStart, hin.slotInterval, Function.update_apply]
    have hplace : (s.gen.windowStart + s.gen.slotInterval * i, id) =
        (s.gen.windowStart + s.gen.slotInterval * slot, l7Stats.flowId) ↔
          i = slot ∧ id = l7Stats.flowId := by
      rw [Prod.mk.injEq, Nat.add_left_cancel_iff, Nat.mul_left_cancel_iff h.shaped.interval]
    simp only [hplace]
    rfl
  rw [hwaiting, haccount]
  split_ifs
  · exact (h.agrees slot l7Stats.flowId).after
  · exact h.agrees i id

theorem Sound.exact_arrive_iff :
    (s.arrive gen slot l7Stats meter possibleHost).Exact ↔
      ∀ m ∈ taken (s.waitingAt slot l7Stats.flowId) l7Stats.flow meter,
        m.app.timeSpan = meter.app.timeSpan ∧
          ∀ j ∈ (s.accountAt slot l7Stats.flowId).dropped, j.app = m.app →
            j.appMeter.traffic.directionScore ≤ m.appMeter.traffic.directionScore := by
  have hagrees := h.agrees slot l7Stats.flowId
  constructor
  · intro hexact m hm
    obtain ⟨item, hmem⟩ := exists_emitted possibleHost hm
    exact (emission_exact_iff hagrees l7Stats.flowId hmem).mp
      (hexact.exact _ (mem_append_right _ (mem_map_of_mem hmem)))
  intro hclear
  refine ⟨?_, fun e he => ?_⟩
  · unfold arrive
    rw [map_append, map_map]
    exact hin.handedOn.trans (h.exact.handedOn.append_right _)
  · rcases mem_append.mp he with hold | hnew
    · exact h.exact.exact e hold
    · obtain ⟨⟨m, item⟩, hmem, rfl⟩ := mem_map.mp hnew
      exact (emission_exact_iff hagrees l7Stats.flowId hmem).mpr (hclear m (mem_emitted hmem).1)

end Arriving

theorem step_moveWindow {s : Recorded} (h : s.Sound) (time : Nat) :
    ∃ s', s.step (.moveWindow time) = .ok s' ∧ s'.Sound := by
  obtain ⟨inside, gen, shift, hok, hshift⟩ := moveWindow_spec h.shaped time
  exact ⟨{ s with gen := gen }, by rw [step, hok]; rfl, h.shifted hshift⟩

theorem step_before {s : Recorded} (h : s.Sound) {time : Nat} (hbefore : time < s.gen.windowStart)
    (appMeter : AppMeter) (endpointHash : BitVec 32) (possibleHost : Option PossibleHost) :
    ∃ s', s.step (.injectAppMeter l7Stats appMeter endpointHash time possibleHost) = .ok s' ∧
      s'.Sound := by
  have hshift : s.gen.Shifted
      { s.gen with dropBeforeWindow := s.gen.dropBeforeWindow + 1 } 0 :=
    ⟨rfl, rfl, rfl, rfl, fun _ => rfl, .refl _⟩
  refine ⟨_, ?_, h.shifted hshift⟩
  rw [step, injectAppMeter, if_pos hbefore, ok_bind]
  exact if_pos hbefore

section Inside

variable {s : Recorded} {time : Nat} (hinside : ¬ time < s.gen.windowStart)
  (appMeter : AppMeter) (endpointHash : BitVec 32) (possibleHost : Option PossibleHost)
include hinside

theorem step_inside (h : s.Sound) (hslots : 0 < s.gen.numberOfSlots)
    (htime : l7Stats.timeSpan.toNat ≤ time) :
    ∃ slot timeSpan gen, s.gen.slotFor time = .ok slot ∧
      s.gen.timeSpanFor l7Stats time = .ok timeSpan ∧
      s.step (.injectAppMeter l7Stats appMeter endpointHash time possibleHost) =
        .ok (s.arrive gen slot l7Stats
          (.ofStats l7Stats appMeter endpointHash time timeSpan) possibleHost) ∧
      Injected s.gen gen slot l7Stats.flowId
        (waitingAfter (s.waitingAt slot l7Stats.flowId) l7Stats.flow
          (.ofStats l7Stats appMeter endpointHash time timeSpan))
        ((emitted (s.waitingAt slot l7Stats.flowId) l7Stats possibleHost
          (.ofStats l7Stats appMeter endpointHash time timeSpan)).map Prod.snd) := by
  have hpos : 0 < s.gen.stashs.length := by
    rw [h.shaped.slots]
    exact hslots
  obtain ⟨slot, hslot, hlt⟩ := slotFor_ok hpos time
  obtain ⟨timeSpan, hspan⟩ := timeSpanFor_ok (g := s.gen) htime
  obtain ⟨gen, hosts, hok, hin⟩ :=
    injectAppMeter_spec hinside hslot hlt hspan appMeter endpointHash possibleHost
  refine ⟨slot, timeSpan, gen, hslot, hspan, ?_, hin⟩
  rw [step, hok, ok_bind]
  dsimp only
  rw [if_neg hinside, hslot, ok_bind, hspan, ok_bind]

theorem step_fails (h : s.Sound)
    (hbad : ¬ (0 < s.gen.numberOfSlots ∧ l7Stats.timeSpan.toNat ≤ time)) (s' : Recorded) :
    s.step (.injectAppMeter l7Stats appMeter endpointHash time possibleHost) ≠ .ok s' := by
  have hfails : s.gen.injectAppMeter l7Stats appMeter endpointHash time possibleHost =
      .error .overflow := by
    rw [injectAppMeter, if_neg hinside]
    by_cases hslots : 0 < s.gen.stashs.length
    · obtain ⟨slot, hslot, -⟩ := slotFor_ok hslots time
      have htime : ¬ l7Stats.timeSpan.toNat ≤ time := by
        intro hc
        rw [h.shaped.slots] at hslots
        exact hbad ⟨hslots, hc⟩
      rw [hslot, ok_bind, timeSpanFor_fails htime, error_bind]
    · have hslot : s.gen.slotFor time = .error .overflow := by
        rw [slotFor, checkedSub, if_neg (by omega)]
        rfl
      rw [hslot, error_bind]
  rw [step, hfails, error_bind]
  intro hok
  cases hok

end Inside

/-- **The tags of what is handed on.**  Along a run of a generator, every meter that is
handed on has the tags of the statistics it was made from and is the merge of all that was
injected with these tags for its flow into its slot since the last time, exactly if every
arrival is clear. -/
theorem emissions_exact_iff (kind : MetricsType) (windowStart delay : Nat) (calls : List Call) :
    StatesHold step Exact (start (.ofMetricsType windowStart delay kind)) calls ↔
      StepsObey step Clear (start (.ofMetricsType windowStart delay kind)) calls := by
  apply statesHold_iff (fun _ h => h.exact) _ _ (sound_start kind windowStart delay)
  · intro s call hsound hclear
    cases call with
    | moveWindow time => exact step_moveWindow hsound time
    | injectAppMeter l7Stats appMeter endpointHash time possibleHost =>
      by_cases hinside : time < s.gen.windowStart
      · exact step_before hsound hinside appMeter endpointHash possibleHost
      obtain ⟨hslots, htime, hall⟩ := hclear (Nat.le_of_not_lt hinside)
      obtain ⟨slot, timeSpan, gen, hslot, hspan, hok, hin⟩ := step_inside hinside appMeter
        endpointHash possibleHost hsound hslots htime
      exact ⟨_, hok, hin.shaped hsound.shaped, hsound.agrees_arrive hin,
        (hsound.exact_arrive_iff hin).mpr (hall slot timeSpan hslot hspan)⟩
  · intro s call hsound hclear s' hok hexact
    cases call with
    | moveWindow time => exact hclear trivial
    | injectAppMeter l7Stats appMeter endpointHash time possibleHost =>
      simp only [Clear, Classical.not_imp] at hclear
      obtain ⟨hstart, hbad⟩ := hclear
      have hinside : ¬ time < s.gen.windowStart := not_lt.mpr hstart
      by_cases hpossible : 0 < s.gen.numberOfSlots ∧ l7Stats.timeSpan.toNat ≤ time
      · obtain ⟨slot, timeSpan, gen, hslot, hspan, hstep, hin⟩ := step_inside hinside appMeter
          endpointHash possibleHost hsound hpossible.1 hpossible.2
        rw [hstep] at hok
        cases hok
        refine hbad ⟨hpossible.1, hpossible.2, ?_⟩
        intro slot' timeSpan' hslot' hspan'
        rw [hslot] at hslot'
        rw [hspan] at hspan'
        cases hslot'
        cases hspan'
        exact (hsound.exact_arrive_iff hin).mp hexact
      · exact step_fails hinside appMeter endpointHash possibleHost hsound hpossible s' hok

end Recorded

end

namespace Recorded

def reportedFlow : Flow where
  flowKey :=
    { tapType := .cloud, tapPort := {}, macSrc := {}, macDst := {}
      ipSrc := .v4 (.replicate 4 10), ipDst := .v4 (.replicate 4 11)
      portSrc := 40000, portDst := 80, proto := .tcp }
  ethType := .ipv4
  closeType := .forcedReport

/-- One request of the flow at second 105, by the span until its response. -/
def requestAfter (timeSpan : BitVec 32) (flow : Option Flow) : Call :=
  .injectAppMeter
    { flow := flow, flowId := 1, l7Protocol := .http1, timeInSecond := 105, timeSpan := timeSpan }
    { traffic := { request := 1 } } 0 105 none

/-- A response within the second waits for its flow.  The statistics that bring it are of a
request three seconds before, and both meters are handed on with a span of three
seconds. -/
theorem waiting_meter_loses_span :
    ∃ s, run step (start (.ofMetricsType 100 10 .second))
        [requestAfter 0 none, requestAfter 3 (some reportedFlow)] = .ok s ∧
      s.gen.handedOn.map (fun m => (m.app.timeSpan, m.appMeter.traffic.request)) =
        [(3, 1), (3, 1)] ∧
      s.emissions.map (fun e => e.source.app.timeSpan) = [0, 3] ∧ ¬ s.Exact := by
  refine ⟨_, rfl, rfl, rfl, ?_⟩
  intro hexact
  have htags := (hexact.exact _ mem_cons_self).tags
  exact absurd (congrArg AppTags.timeSpan htags) (by decide)

end Recorded

end ZeroTrace.Collector.L7
