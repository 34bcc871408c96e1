import ZeroTrace.PerfStatsOutcome

/-!
# Requests and responses over the life of a flow

What a flow reports is the sum of the statistics returned for its logs and of
those collected from the cache when it ends.  Every response is counted once.
A request is not: the first request of a session is counted when it comes, and
again when it is still cached at the end of the flow; a request that took the
place of another cached log is counted when it leaves the cache, and not at
all when it leaves together with its response.  The two errors are counted
exactly by the requests that found nothing cached and by those that got their
response, so the counts are right exactly when there are as many of the one as
of the other.
-/

namespace ZeroTrace.Perf

open Lru Lru.Crate LruCache L7PerfStats LogCache Runs

/-- A quantity that adds up when statistics are merged. -/
structure Additive (φ : L7PerfStats → Nat) : Prop where
  zero : φ {} = 0
  merge : ∀ a b, φ (a.sequentialMerge b) = φ a + φ b

theorem additive_requestCount : Additive requestCount :=
  ⟨rfl, fun _ _ => rfl⟩

theorem additive_responseCount : Additive responseCount :=
  ⟨rfl, fun _ _ => rfl⟩

def flowWeight (φ : L7PerfStats → Nat) (flow : Nat) (key : LogCacheKey) (log : LogCache) : Nat :=
  if key.flowId = flow then φ (.ofLog log) else 0

/-- What was collected at the end of a flow, both directions together. -/
def collected (φ : L7PerfStats → Nat) : Option (L7PerfStats × L7PerfStats) → Nat
  | some (forward, backward) => φ forward + φ backward
  | none => 0

namespace RrtCache

variable [Crate] {φ : L7PerfStats → Nat} {keys : List LogCacheKey}

theorem collectKeys_sum (hφ : Additive φ) {flow : Nat} (hkeys : ∀ key ∈ keys, key.flowId = flow)
    (logs : LruCache LogCacheKey LogCache) (forward backward : L7PerfStats) :
    φ (collectKeys keys logs forward backward).1.1 +
        φ (collectKeys keys logs forward backward).1.2 +
        weigh (flowWeight φ flow) (collectKeys keys logs forward backward).2 =
      φ forward + φ backward + weigh (flowWeight φ flow) logs := by
  induction keys generalizing logs forward backward with
  | nil => rfl
  | cons key keys ih =>
    obtain ⟨hflow, hrest⟩ := List.forall_mem_cons.mp hkeys
    have hweight := (sets_remove logs key).weight (flowWeight φ flow)
    unfold collectKeys LruCache.pop
    cases hpeek : logs.peek key with
    | none =>
      rw [hpeek] at hweight
      have := ih hrest (logs.remove key) forward backward
      dsimp only
      omega
    | some log =>
      rw [hpeek] at hweight
      simp only [weighAt, flowWeight, hflow, if_true] at hweight
      dsimp only
      split
      · have := ih hrest (logs.remove key) forward (backward.sequentialMerge (.ofLog log))
        rw [hφ.merge] at this
        omega
      · have := ih hrest (logs.remove key) (forward.sequentialMerge (.ofLog log)) backward
        rw [hφ.merge] at this
        omega

theorem collectKeys_snd (logs : LruCache LogCacheKey LogCache) (forward backward : L7PerfStats) :
    (collectKeys keys logs forward backward).2 = keys.foldl LruCache.remove logs := by
  induction keys generalizing logs forward backward with
  | nil => rfl
  | cons key keys ih =>
    unfold collectKeys LruCache.pop
    cases logs.peek key with
    | none => exact ih ..
    | some log =>
      dsimp only
      split <;> exact ih ..

theorem collected_eq (hφ : Additive φ) {r : RrtCache} (hi : Indexed r) (flow : Nat) :
    collected φ (r.collectFlowPerfStats flow).1 = weigh (flowWeight φ flow) r.logs := by
  unfold collectFlowPerfStats LruCache.pop
  cases hkeys : r.flows.peek flow with
  | none =>
    symm
    apply weigh_eq_zero
    intro key log hlog
    apply if_neg
    intro hflow
    obtain ⟨keys, hkeys', -⟩ := (hi flow key).mpr ⟨hflow, by simp [hlog]⟩
    rw [hkeys] at hkeys'
    cases hkeys'
  | some keys =>
    have hlist : ∀ j, j ∈ keys.keys ↔ j.flowId = flow ∧ (r.logs.peek j).isSome := by
      intro j
      rw [mem_keys_iff, ← hi flow j]
      simp [Lists, hkeys]
    have hsum := collectKeys_sum hφ (fun key hkey => ((hlist key).mp hkey).1) r.logs {} {}
    have hleft : weigh (flowWeight φ flow) (collectKeys keys.keys r.logs {} {}).2 = 0 := by
      apply weigh_eq_zero
      intro key log hlog
      apply if_neg
      intro hflow
      rw [collectKeys_snd, peek_foldl_remove] at hlog
      by_cases hmem : key ∈ keys.keys
      · simp [hmem] at hlog
      · rw [if_neg hmem] at hlog
        exact hmem ((hlist key).mpr ⟨hflow, by simp [hlog]⟩)
    rw [hleft, hφ.zero, Nat.add_zero, Nat.zero_add] at hsum
    dsimp only
    split
    next hdefault =>
      obtain ⟨hforward, hbackward⟩ := hdefault
      rw [hforward, hbackward, hφ.zero] at hsum
      exact hsum
    next => exact hsum

end RrtCache

namespace L7PerfCache

/-- A log that the counts are about: a request or a response of a session that
is not on the blacklist and merged at most once. -/
structure Countable (input : L7Log × ParseParam) : Prop extends Plain input where
  listed : input.1.logCache.onBlacklist = false
  paired : input.1.logCache.msgType = .request ∨ input.1.logCache.msgType = .response

/-- What was returned for the logs of a flow in a call. -/
def returned [Crate] (φ : L7PerfStats → Nat) (flow : Nat) (c : L7PerfCache)
    (input : L7Log × ParseParam) : Nat :=
  if input.2.flowId = flow then
    match c.perfStats input.1 input.2 with
    | .ok (some stats, _) => φ stats
    | _ => 0
  else 0

/-- The log is of this type and flow. -/
def isOf [Crate] (msgType : LogMessageType) (flow : Nat) (_ : L7PerfCache)
    (input : L7Log × ParseParam) : Nat :=
  if input.2.flowId = flow ∧ input.1.logCache.msgType = msgType then 1 else 0

/-- The log is a request of the flow that finds nothing cached. -/
def freshRequest [Crate] (flow : Nat) (c : L7PerfCache) (input : L7Log × ParseParam) : Nat :=
  if input.2.flowId = flow ∧ input.1.logCache.msgType = .request ∧ c.prevOf input = none then 1
  else 0

/-- The log is a response of the flow that finds its earlier request cached. -/
def answeredRequest [Crate] (flow : Nat) (c : L7PerfCache) (input : L7Log × ParseParam) : Nat :=
  if input.2.flowId = flow ∧
      (c.prevOf input).any fun prev => prev.isRequestOf (currentLog input.1 input.2) then 1
  else 0

end L7PerfCache

def amount (φ : L7PerfStats → Nat) : Option L7PerfStats → Nat
  | some stats => φ stats
  | none => 0

/-- What an optional cached log counts for. -/
def stock (φ : L7PerfStats → Nat) : Option LogCache → Nat
  | some log => φ (.ofLog log)
  | none => 0

variable (stats : L7PerfStats) (rrt : Nat)

@[simp] theorem requestCount_updateRrt :
    (stats.updateRrt rrt).requestCount = stats.requestCount := rfl

@[simp] theorem responseCount_updateRrt :
    (stats.updateRrt rrt).responseCount = stats.responseCount := rfl

/-- A cached request or response that counts and is merged at most once. -/
structure LogCache.Clean (log : LogCache) : Prop where
  single : log.multiMergeInfo = none
  listed : log.onBlacklist = false
  paired : log.msgType = .request ∨ log.msgType = .response

namespace LogCache.Clean

variable {log : LogCache}

theorem requestCount (h : log.Clean) :
    (ofLog log).requestCount = if log.msgType = .request then 1 else 0 := by
  simp [ofLog, h.listed, h.single]

theorem responseCount (h : log.Clean) :
    (ofLog log).responseCount = if log.msgType = .response then 1 else 0 := by
  simp [ofLog, h.listed, h.single]

theorem stats_eq (h : log.Clean) : log.stats = some (.ofLog log) := by
  simp [stats, h.listed]

end LogCache.Clean

section Outcome

variable {prev cur : LogCache} (hcur : cur.Clean) (entry : TimeoutCacheEntry) (rrtTimeout : Nat)
  (index : Bool)

include hcur

theorem judgeResponse_spec (hprev : prev.Clean) :
    ∃ rrt, (judgeResponse prev cur entry false rrtTimeout index).stats =
        some ((ofLog cur).updateRrt rrt) ∧
      (judgeResponse prev cur entry false rrtTimeout index).disposal = .drop := by
  unfold judgeResponse
  by_cases hlong : cur.time - prev.time > rrtTimeout
  · refine ⟨0, ?_⟩
    simp [hprev.listed, hcur.listed, hlong, updateRrt, mergePerf]
  · refine ⟨cur.time - prev.time, ?_⟩
    simp [hprev.listed, hcur.listed, hlong]

theorem judgeRequest_spec (hprev : prev.Clean) :
    ∃ rrt, (judgeRequest prev cur entry false rrtTimeout index).stats =
        some (((ofLog cur).sequentialMerge (.ofLog prev)).updateRrt rrt) ∧
      (judgeRequest prev cur entry false rrtTimeout index).disposal = .drop := by
  refine ⟨prev.time - cur.time, ?_⟩
  simp [judgeRequest, hprev.listed, hcur.listed]

theorem outcome_cases (hprev : prev.Clean) :
    ∃ stats, (outcome (some prev) cur entry rrtTimeout index).stats = some stats ∧
      ((prev.isRequestOf cur ∧ (∃ rrt, stats = (ofLog cur).updateRrt rrt) ∧
          (outcome (some prev) cur entry rrtTimeout index).cached = none) ∨
        (prev.isResponseOf cur ∧
          (∃ rrt, stats = ((ofLog cur).sequentialMerge (.ofLog prev)).updateRrt rrt) ∧
          (outcome (some prev) cur entry rrtTimeout index).cached = none) ∨
        (¬ prev.isRequestOf cur ∧ stats = .ofLog cur ∧
          (outcome (some prev) cur entry rrtTimeout index).cached = some prev) ∨
        (¬ prev.isRequestOf cur ∧ stats = .ofLog prev ∧
          (outcome (some prev) cur entry rrtTimeout index).cached = some cur)) := by
  set entry' := unwait prev entry index with hentry'
  by_cases hreq : prev.isRequestOf cur = true
  · obtain ⟨rrt, hstats, hdrop⟩ := judgeResponse_spec hcur entry' rrtTimeout index hprev
    have hjudge : judgeOnce prev cur entry' rrtTimeout index =
        judgeResponse prev cur entry' false rrtTimeout index := if_pos hreq
    refine ⟨_, ?_, .inl ⟨hreq, ⟨rrt, rfl⟩, ?_⟩⟩ <;>
      simp [outcome, ← hentry', hjudge, Verdict.outcome, hstats, hdrop]
  by_cases hresp : prev.isResponseOf cur = true
  · obtain ⟨rrt, hstats, hdrop⟩ := judgeRequest_spec hcur entry' rrtTimeout index hprev
    have hjudge : judgeOnce prev cur entry' rrtTimeout index =
        judgeRequest prev cur entry' false rrtTimeout index := by
      simp [judgeOnce, hreq, hresp]
    refine ⟨_, ?_, .inr (.inl ⟨hresp, ⟨rrt, rfl⟩, ?_⟩)⟩ <;>
      simp [outcome, ← hentry', hjudge, Verdict.outcome, hstats, hdrop]
  · have hjudge : judgeOnce prev cur entry' rrtTimeout index =
        judgeSingle prev cur entry' index := by
      simp [judgeOnce, hreq, hresp]
    by_cases hlate : prev.time > cur.time
    · refine ⟨.ofLog cur, ?_, .inr (.inr (.inl ⟨hreq, rfl, ?_⟩))⟩ <;>
        simp [outcome, ← hentry', hjudge, Verdict.outcome, judgeSingle, hlate, hcur.stats_eq]
    · refine ⟨.ofLog prev, ?_, .inr (.inr (.inr ⟨hreq, rfl, ?_⟩))⟩ <;>
        simp [outcome, ← hentry', hjudge, Verdict.outcome, judgeSingle, hlate, hprev.stats_eq]

theorem outcome_responses {prev : Option LogCache} (hprev : ∀ p, prev = some p → p.Clean) :
    amount responseCount (outcome prev cur entry rrtTimeout index).stats +
        stock responseCount (outcome prev cur entry rrtTimeout index).cached =
      stock responseCount prev + if cur.msgType = .response then 1 else 0 := by
  cases prev with
  | none =>
    rcases hcur.paired with hc | hc
    · simp [outcome, amount, stock, isCountedRequest, hcur.responseCount, hcur.listed, hc]
    · simp [outcome, amount, stock, isCountedRequest, hcur.responseCount, hc]
  | some p =>
    have hp := hprev p rfl
    obtain ⟨stats, hstats, hcases⟩ := outcome_cases hcur entry rrtTimeout index hp
    rw [hstats]
    rcases hcases with ⟨hreq, ⟨rrt, rfl⟩, hcached⟩ | ⟨-, ⟨rrt, rfl⟩, hcached⟩ |
      ⟨-, rfl, hcached⟩ | ⟨-, rfl, hcached⟩
    all_goals rw [hcached]
    · have hq : p.msgType = .request := by
        simp [isRequestOf] at hreq
        exact hreq.1.1
      simp [amount, stock, hp.responseCount, hcur.responseCount, hq]
    · simp [amount, stock, sequentialMerge, hp.responseCount, hcur.responseCount, Nat.add_comm]
    · simp [amount, stock, hp.responseCount, hcur.responseCount, Nat.add_comm]
    · simp [amount, stock, hp.responseCount, hcur.responseCount]

/-- Requests: a first request is counted twice, now and from the cache, and a
request that leaves with its response was not counted by then. -/
theorem outcome_requests {prev : Option LogCache} (hprev : ∀ p, prev = some p → p.Clean) :
    amount requestCount (outcome prev cur entry rrtTimeout index).stats +
        stock requestCount (outcome prev cur entry rrtTimeout index).cached +
        (if prev.any fun p => p.isRequestOf cur then 1 else 0) =
      stock requestCount prev + (if cur.msgType = .request then 1 else 0) +
        if cur.msgType = .request ∧ prev = none then 1 else 0 := by
  cases prev with
  | none =>
    rcases hcur.paired with hc | hc
    · simp [outcome, amount, stock, isCountedRequest, hcur.requestCount, hcur.listed, hc]
    · simp [outcome, amount, stock, isCountedRequest, hcur.requestCount, hc]
  | some p =>
    have hp := hprev p rfl
    obtain ⟨stats, hstats, hcases⟩ := outcome_cases hcur entry rrtTimeout index hp
    rw [hstats]
    rcases hcases with ⟨hreq, ⟨rrt, rfl⟩, hcached⟩ | ⟨hresp, ⟨rrt, rfl⟩, hcached⟩ |
      ⟨hno, rfl, hcached⟩ | ⟨hno, rfl, hcached⟩
    all_goals rw [hcached]
    · have hpair := hreq
      simp only [isRequestOf, Bool.and_eq_true, decide_eq_true_eq] at hpair
      simp [amount, stock, hp.requestCount, hcur.requestCount, hpair, hreq]
    · have hpair := hresp
      simp only [isResponseOf, Bool.and_eq_true, decide_eq_true_eq] at hpair
      simp [amount, stock, sequentialMerge, isRequestOf, hp.requestCount,
        hcur.requestCount, hpair]
    · simp [amount, stock, hp.requestCount, hcur.requestCount, hno, Nat.add_comm]
    · simp [amount, stock, hp.requestCount, hcur.requestCount, hno]

end Outcome

namespace L7PerfCache

variable [Crate] {c : L7PerfCache} {input : L7Log × ParseParam} (φ : L7PerfStats → Nat)

theorem returned_of_follows {c' : L7PerfCache} (flow : Nat)
    (h : c.perfStats input.1 input.2 = .ok ((c.outcomeOf input).stats, c')) :
    returned φ flow c input =
      if input.2.flowId = flow then amount φ (c.outcomeOf input).stats else 0 := by
  unfold returned
  rw [h]
  cases (c.outcomeOf input).stats <;> rfl

omit [Crate] in
theorem weighAt_flowWeight (flow : Nat) (log : Option LogCache) :
    weighAt (flowWeight φ flow) (key input) log =
      if input.2.flowId = flow then stock φ log else 0 := by
  have hflow : (key input).flowId = input.2.flowId := LogCacheKey.flowId_new _ _ _
  cases log with
  | none => simp [weighAt, stock]
  | some log => simp [weighAt, stock, flowWeight, hflow]

/-- The caches of a flow life: indexed, with requests and responses only. -/
structure Recorded (c : L7PerfCache) : Prop where
  indexed : c.rrtCache.Indexed
  clean : ∀ key log, c.rrtCache.logs.peek key = some log → log.Clean

theorem recorded_new (cap : Nat) : Recorded (new cap) := by
  refine ⟨?_, ?_⟩
  · intro flow key
    simp [RrtCache.Lists, new]
  · intro key log h
    simp [new] at h

omit [Crate] in
theorem Countable.clean (h : Countable input) : (currentLog input.1 input.2).Clean :=
  ⟨h.single, h.listed, h.paired⟩

/-- **One log.**  The balance of requests and responses that a log leaves. -/
theorem step_counts (hc : Recorded c) (hin : Countable input) (hroom : NoEviction c input)
    (flow : Nat) :
    ∃ c', c.step input = .ok c' ∧ Recorded c' ∧
      (weigh (flowWeight requestCount flow) c'.rrtCache.logs +
          (returned requestCount flow c input + answeredRequest flow c input) =
        weigh (flowWeight requestCount flow) c.rrtCache.logs +
          (isOf .request flow c input + freshRequest flow c input)) ∧
      (weigh (flowWeight responseCount flow) c'.rrtCache.logs +
          returned responseCount flow c input =
        weigh (flowWeight responseCount flow) c.rrtCache.logs + isOf .response flow c input) := by
  have hprev : ∀ p, c.prevOf input = some p → p.Clean := fun p hp => hc.clean _ p hp
  obtain ⟨c', hcall, hfollows⟩ := perfStats_follows hin.toPlain hroom
    (fun p hp => (hprev p hp).single)
  refine ⟨c', by rw [step, hcall]; rfl,
    ⟨hfollows.indexed hc.indexed, hfollows.forall_logs hin.clean hc.clean⟩, ?_⟩
  have hrequests := hfollows.logs.weight (flowWeight requestCount flow)
  have hresponses := hfollows.logs.weight (flowWeight responseCount flow)
  rw [weighAt_flowWeight, weighAt_flowWeight] at hrequests hresponses
  rw [returned_of_follows _ flow hcall, returned_of_follows _ flow hcall]
  have hasked := outcome_requests hin.clean (c.entryOf input.2.flowId)
    input.2.rrtTimeout input.1.isReversed hprev
  have hanswered := outcome_responses hin.clean (c.entryOf input.2.flowId)
    input.2.rrtTimeout input.1.isReversed hprev
  have htype : (currentLog input.1 input.2).msgType = input.1.logCache.msgType := rfl
  rw [htype] at hasked hanswered
  unfold isOf freshRequest answeredRequest
  unfold outcomeOf at hrequests hresponses ⊢
  by_cases hflow : input.2.flowId = flow
  · simp only [hflow, if_true, true_and] at hrequests hresponses hasked hanswered ⊢
    unfold prevOf at hrequests hresponses hasked hanswered ⊢
    omega
  · simp only [hflow, if_false, false_and] at hrequests hresponses ⊢
    omega

/-- The reports of a flow add up to its logs of a type: what was returned for
them and what is collected when the flow ends. -/
def Conserved (φ : L7PerfStats → Nat) (msgType : LogMessageType) (flow : Nat)
    (start finish : L7PerfCache) (inputs : List (L7Log × ParseParam)) : Prop :=
  Runs.total step (returned φ flow) start inputs +
      collected φ (finish.rrtCache.collectFlowPerfStats flow).1 =
    Runs.total step (isOf msgType flow) start inputs

/-- **Requests and responses of a flow.**  While nothing is evicted, no log
panics, and both counts are conserved over the life of a flow if and only if as
many of its requests found nothing cached as got their response from it. -/
theorem perf_counts_conserved_iff (cap flow : Nat) (inputs : List (L7Log × ParseParam))
    (hinputs : ∀ input ∈ inputs, Countable input)
    (hroom : Runs.StepsObey step NoEviction (new cap) inputs) :
    ∃ c, Runs.run step (new cap) inputs = .ok c ∧
      (Conserved requestCount .request flow (new cap) c inputs ∧
          Conserved responseCount .response flow (new cap) c inputs ↔
        Runs.total step (freshRequest flow) (new cap) inputs =
          Runs.total step (answeredRequest flow) (new cap) inputs) := by
  have hobey := hroom.and_forall hinputs
  obtain ⟨c, hrun, hc, hrequests⟩ := run_balance
    (J := Recorded) (C := fun c input => Countable input ∧ NoEviction c input)
    (F := fun c => weigh (flowWeight requestCount flow) c.rrtCache.logs)
    (fun c input hc hin => by
      obtain ⟨c', hstep, hc', hreq, -⟩ := step_counts hc hin.1 hin.2 flow
      exact ⟨c', hstep, hc', hreq⟩) (recorded_new cap) hobey
  obtain ⟨c₁, hrun₁, -, hresponses⟩ := run_balance
    (J := Recorded) (C := fun c input => Countable input ∧ NoEviction c input)
    (F := fun c => weigh (flowWeight responseCount flow) c.rrtCache.logs)
    (fun c input hc hin => by
      obtain ⟨c', hstep, hc', -, hresp⟩ := step_counts hc hin.1 hin.2 flow
      exact ⟨c', hstep, hc', hresp⟩) (recorded_new cap) hobey
  rw [hrun] at hrun₁
  cases hrun₁
  rw [total_add, total_add] at hrequests
  have hempty : ∀ φ, weigh (flowWeight φ flow) (new cap).rrtCache.logs = 0 :=
    fun _ => weigh_new _ cap
  simp only [hempty] at hrequests hresponses
  refine ⟨c, hrun, ?_⟩
  unfold Conserved
  rw [RrtCache.collected_eq additive_requestCount hc.indexed,
    RrtCache.collected_eq additive_responseCount hc.indexed]
  constructor
  · intro h
    omega
  intro h
  constructor
  · omega
  · omega

end L7PerfCache

namespace L7PerfCache

/-- A log of session 5 of flow 1. -/
def sampleLog (msgType : LogMessageType) (time : Nat) : L7Log × ParseParam :=
  ({ logCache := { msgType := msgType }, sessionId := some 5 }, { flowId := 1, time := time })

/-- A request that gets its response is counted once, and so is the response. -/
theorem perf_counts_conserved_pair :
    ∃ c, Runs.run step (new 8) [sampleLog .request 10, sampleLog .response 30] = .ok c ∧
      Conserved requestCount .request 1 (new 8) c [sampleLog .request 10, sampleLog .response 30] ∧
      Conserved responseCount .response 1 (new 8) c
        [sampleLog .request 10, sampleLog .response 30] := by
  have hcountable : ∀ input ∈ [sampleLog .request 10, sampleLog .response 30], Countable input := by
    intro input hinput
    simp only [List.mem_cons, List.not_mem_nil, or_false] at hinput
    rcases hinput with rfl | rfl
    · exact ⟨⟨⟨by decide, rfl, rfl, rfl⟩, by decide⟩, rfl, .inl rfl⟩
    · exact ⟨⟨⟨by decide, rfl, rfl, rfl⟩, by decide⟩, rfl, .inr rfl⟩
  have hroom : Runs.StepsObey step NoEviction (new 8)
      [sampleLog .request 10, sampleLog .response 30] := by
    apply (stepsObey_cons rfl _).mpr
    refine ⟨by decide, ?_⟩
    apply (stepsObey_cons rfl _).mpr
    exact ⟨by decide, trivial⟩
  obtain ⟨c, hrun, hiff⟩ := perf_counts_conserved_iff 8 1 _ hcountable hroom
  exact ⟨c, hrun, hiff.mpr (by decide)⟩

/-- A flow of a single request: the request is counted when it comes and once
more when the flow ends. -/
theorem perf_counts_request_twice :
    ∃ c, Runs.run step (new 8) [sampleLog .request 10] = .ok c ∧
      Runs.total step (isOf .request 1) (new 8) [sampleLog .request 10] = 1 ∧
      Runs.total step (returned requestCount 1) (new 8) [sampleLog .request 10] = 1 ∧
      collected requestCount (c.rrtCache.collectFlowPerfStats 1).1 = 1 ∧
      ¬ Conserved requestCount .request 1 (new 8) c [sampleLog .request 10] := by
  refine ⟨_, rfl, by decide, by decide, by decide, ?_⟩
  unfold Conserved
  decide

end L7PerfCache

end ZeroTrace.Perf
