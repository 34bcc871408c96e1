import ZeroTrace.PerfStatsOutcome

/-!
# Timeouts by flow and direction

For every flow and direction the timeout cache counts the requests that wait
for their response and those that did not get it in time.  Every request that
counts is in one of three places: it waits, it has timed out, or it was
settled, by its response in time or by a response that is on the blacklist.

The counts of a direction are changed by the direction of the log that comes
in.  A key does not always hold the direction: without a session number, and
outside eBPF, it is the flow alone.  A cached request may then meet a log of
the other direction, and the wrong count is changed.  The counts stay exact
precisely on the runs in which this does not happen, or happens without
effect.
-/

namespace ZeroTrace.Perf

open RustExec Lru Lru.Crate LruCache LogCache

namespace TimeoutCacheEntry

variable (e : TimeoutCacheEntry) (index d : Bool)

@[simp] theorem incCache_inCache :
    (e.incCache index).inCache d = e.inCache d + if d = index then 1 else 0 := by
  by_cases h : d = index
  · subst h
    simp [incCache]
  · simp [incCache, h]

@[simp] theorem decCache_inCache :
    (e.decCache index).inCache d = e.inCache d - if d = index then 1 else 0 := by
  by_cases h : d = index
  · subst h
    simp [decCache]
  · simp [decCache, h]

@[simp] theorem incTimeout_timeout :
    (e.incTimeout index).timeout d = e.timeout d + if d = index then 1 else 0 := by
  by_cases h : d = index
  · subst h
    simp [incTimeout]
  · simp [incTimeout, h]

@[simp] theorem incTimeout_inCache : (e.incTimeout index).inCache d = e.inCache d := rfl

@[simp] theorem incCache_timeout : (e.incCache index).timeout d = e.timeout d := rfl

@[simp] theorem decCache_timeout : (e.decCache index).timeout d = e.timeout d := rfl

end TimeoutCacheEntry

/-- The log is a request of direction `d` that waits for its response. -/
def waits (d : Bool) (log : LogCache) : Nat :=
  if log.isCountedRequest = true ∧ log.reversed = d then 1 else 0

def waitsAt (d : Bool) : Option LogCache → Nat
  | some log => waits d log
  | none => 0

/-- A request of direction `d` is settled by this log: paired in time, or with
a response that is on the blacklist. -/
def settles (d : Bool) (prev : Option LogCache) (cur : LogCache) (rrtTimeout : Nat) : Nat :=
  match prev with
  | none => 0
  | some prev =>
    if prev.isRequestOf cur then
      if cur.onBlacklist ∨ cur.time - prev.time ≤ rrtTimeout then waits d prev else 0
    else if prev.isResponseOf cur then
      if prev.onBlacklist ∨ prev.time - cur.time ≤ rrtTimeout then waits d cur else 0
    else 0

/-- The log changes the counts of the direction that the cached request was
counted in, or changes them and changes them back. -/
def Straight (prev : Option LogCache) (cur : LogCache) (entry : TimeoutCacheEntry)
    (index : Bool) : Prop :=
  ∀ p, prev = some p → p.isCountedRequest = true →
    p.reversed = index ∨ (p.time > cur.time ∧ 0 < entry.inCache index)

variable {prev : Option LogCache} {p cur : LogCache} {entry : TimeoutCacheEntry} {index : Bool}

theorem isRequestOf_iff :
    p.isRequestOf cur = true ↔
      p.msgType = .request ∧ cur.msgType = .response ∧ p.time < cur.time := by
  simp [isRequestOf, and_assoc]

theorem isResponseOf_iff :
    p.isResponseOf cur = true ↔
      p.msgType = .response ∧ cur.msgType = .request ∧ p.time > cur.time := by
  simp [isResponseOf, and_assoc]

theorem isCountedRequest_iff :
    p.isCountedRequest = true ↔ p.onBlacklist = false ∧ p.msgType = .request := by
  simp [isCountedRequest]

/-- One if the condition holds. -/
abbrev one (c : Prop) [Decidable c] : Nat := if c then 1 else 0

section Steps

variable (p cur : LogCache) (entry : TimeoutCacheEntry) (rrtTimeout : Nat) (index d : Bool)

theorem unwait_inCache :
    (unwait p entry index).inCache d =
      entry.inCache d - one (p.isCountedRequest = true ∧ d = index) := by
  by_cases hp : p.isCountedRequest = true <;> simp [unwait, hp]

theorem unwait_timeout : (unwait p entry index).timeout d = entry.timeout d := by
  by_cases hp : p.isCountedRequest = true <;> simp [unwait, hp]

theorem judgeResponse_counts (hmerged : p.isMerged = false) :
    let v := judgeResponse p cur entry false rrtTimeout index
    v.disposal = .drop ∧ v.entry.inCache d = entry.inCache d ∧
      v.entry.timeout d = entry.timeout d +
        one ((p.onBlacklist = false ∧ cur.onBlacklist = false ∧
          rrtTimeout < cur.time - p.time) ∧ d = index) := by
  unfold judgeResponse
  cases hp : p.onBlacklist with
  | true => simp
  | false =>
    cases hc : cur.onBlacklist with
    | true => simp
    | false => by_cases hlate : rrtTimeout < cur.time - p.time <;> simp [hlate, hmerged]

theorem judgeRequest_counts (hmerged : p.isMerged = false) :
    let v := judgeRequest p cur entry false rrtTimeout index
    v.disposal = .drop ∧ v.entry.inCache d = entry.inCache d ∧
      v.entry.timeout d = entry.timeout d +
        one ((p.onBlacklist = false ∧ cur.onBlacklist = false ∧
          rrtTimeout < p.time - cur.time) ∧ d = index) := by
  unfold judgeRequest
  cases hc : cur.onBlacklist with
  | true => simp
  | false =>
    cases hp : p.onBlacklist with
    | true => simp
    | false => by_cases hlate : rrtTimeout < p.time - cur.time <;> simp [hlate, hmerged]

theorem judgeSingle_counts : let v := judgeSingle p cur entry index
    v.disposal = (if p.time > cur.time then .keep else .replace) ∧
      v.entry.inCache d = entry.inCache d +
        one ((if p.time > cur.time then p else cur).isCountedRequest = true ∧ d = index) ∧
      v.entry.timeout d = entry.timeout d +
        one ((if p.time > cur.time then cur else p).isCountedRequest = true ∧ d = index) := by
  unfold judgeSingle
  by_cases htime : p.time > cur.time <;> by_cases hp : p.isCountedRequest = true <;>
    by_cases hc : cur.isCountedRequest = true <;> simp [htime, hp, hc]

end Steps

/-- The counts and the cached log that a log leaves which meets another. -/
inductive Change (p cur : LogCache) (entry : TimeoutCacheEntry) (rrtTimeout : Nat)
    (index : Bool) (o : Outcome) : Prop where
  | answered (h : p.isRequestOf cur = true) (hcached : o.cached = none)
      (hin : ∀ d, o.entry.inCache d =
        entry.inCache d - one (p.isCountedRequest = true ∧ d = index))
      (hout : ∀ d, o.entry.timeout d = entry.timeout d +
        one ((p.onBlacklist = false ∧ cur.onBlacklist = false ∧
          rrtTimeout < cur.time - p.time) ∧ d = index))
  | asked (h : p.isResponseOf cur = true) (hcached : o.cached = none)
      (hin : ∀ d, o.entry.inCache d = entry.inCache d)
      (hout : ∀ d, o.entry.timeout d = entry.timeout d +
        one ((p.onBlacklist = false ∧ cur.onBlacklist = false ∧
          rrtTimeout < p.time - cur.time) ∧ d = index))
  | kept (hreq : p.isRequestOf cur = false) (hresp : p.isResponseOf cur = false)
      (htime : p.time > cur.time) (hcached : o.cached = some p)
      (hin : ∀ d, o.entry.inCache d =
        entry.inCache d - one (p.isCountedRequest = true ∧ d = index) +
          one (p.isCountedRequest = true ∧ d = index))
      (hout : ∀ d, o.entry.timeout d =
        entry.timeout d + one (cur.isCountedRequest = true ∧ d = index))
  | replaced (hreq : p.isRequestOf cur = false) (hresp : p.isResponseOf cur = false)
      (htime : ¬ p.time > cur.time) (hcached : o.cached = some cur)
      (hin : ∀ d, o.entry.inCache d =
        entry.inCache d - one (p.isCountedRequest = true ∧ d = index) +
          one (cur.isCountedRequest = true ∧ d = index))
      (hout : ∀ d, o.entry.timeout d =
        entry.timeout d + one (p.isCountedRequest = true ∧ d = index))

theorem Verdict.outcome_drop {v : Verdict} (h : v.disposal = .drop) (p cur : LogCache) :
    (v.outcome p cur).cached = none := by
  simp [Verdict.outcome, h]

theorem outcome_change (p cur : LogCache) (entry : TimeoutCacheEntry) (rrtTimeout : Nat)
    (index : Bool) (hsingle : p.multiMergeInfo = none) :
    Change p cur entry rrtTimeout index (outcome (some p) cur entry rrtTimeout index) := by
  have hmerged : p.isMerged = false := by simp [isMerged, hsingle]
  set e := unwait p entry index with he
  have hin : ∀ d, e.inCache d = entry.inCache d - one (p.isCountedRequest = true ∧ d = index) :=
    unwait_inCache p entry index
  have hout : ∀ d, e.timeout d = entry.timeout d := unwait_timeout p entry index
  cases hreq : p.isRequestOf cur with
  | true =>
    have hjudge : judgeOnce p cur e rrtTimeout index =
        judgeResponse p cur e false rrtTimeout index := if_pos hreq
    have hcounts := fun d => judgeResponse_counts p cur e rrtTimeout index d hmerged
    simp only [hin, hout] at hcounts
    rw [outcome, ← he, hjudge]
    exact .answered hreq (Verdict.outcome_drop (hcounts index).1 p cur)
      (fun d => (hcounts d).2.1) fun d => (hcounts d).2.2
  | false =>
    cases hresp : p.isResponseOf cur with
    | true =>
      have hjudge : judgeOnce p cur e rrtTimeout index =
          judgeRequest p cur e false rrtTimeout index := by
        simp [judgeOnce, hreq, hresp]
      have hnot : ¬ p.isCountedRequest = true := by
        have := (isResponseOf_iff.mp hresp).1
        simp [isCountedRequest, this]
      have hcounts := fun d => judgeRequest_counts p cur e rrtTimeout index d hmerged
      simp only [hin, hout, hnot] at hcounts
      rw [outcome, ← he, hjudge]
      exact .asked hresp (Verdict.outcome_drop (hcounts index).1 p cur)
        (fun d => (hcounts d).2.1) fun d => (hcounts d).2.2
    | false =>
      have hjudge : judgeOnce p cur e rrtTimeout index = judgeSingle p cur e index := by
        simp [judgeOnce, hreq, hresp]
      have hcounts := fun d => judgeSingle_counts p cur e index d
      simp only [hin, hout] at hcounts
      rw [outcome, ← he, hjudge]
      by_cases htime : p.time > cur.time
      · simp only [htime, if_true] at hcounts
        exact .kept hreq hresp htime (by simp [Verdict.outcome, (hcounts index).1])
          (fun d => (hcounts d).2.1) fun d => (hcounts d).2.2
      · simp only [htime, if_false] at hcounts
        exact .replaced hreq hresp htime (by simp [Verdict.outcome, (hcounts index).1])
          (fun d => (hcounts d).2.1) fun d => (hcounts d).2.2

/-- The waiting count follows what is cached exactly when the log is straight. -/
theorem outcome_inCache_iff (rrtTimeout : Nat) (hcur : cur.reversed = index)
    (hentry : ∀ d, waitsAt d prev ≤ entry.inCache d)
    (hsingle : ∀ p, prev = some p → p.multiMergeInfo = none) :
    (∀ d, (outcome prev cur entry rrtTimeout index).entry.inCache d + waitsAt d prev =
        entry.inCache d + waitsAt d (outcome prev cur entry rrtTimeout index).cached) ↔
      Straight prev cur entry index := by
  cases prev with
  | none =>
    have hstraight : Straight none cur entry index := by
      intro p hp
      cases hp
    have hbalance : ∀ d, (outcome none cur entry rrtTimeout index).entry.inCache d +
        waitsAt d none = entry.inCache d +
          waitsAt d (outcome none cur entry rrtTimeout index).cached := by
      intro d
      by_cases hc : cur.isCountedRequest = true <;>
        simp [outcome, waitsAt, waits, hc, hcur, eq_comm]
    exact ⟨fun _ => hstraight, fun _ => hbalance⟩
  | some p =>
    have hchange := outcome_change p cur entry rrtTimeout index (hsingle p rfl)
    have hstraight : Straight (some p) cur entry index ↔
        (p.isCountedRequest = true →
          p.reversed = index ∨ (p.time > cur.time ∧ 0 < entry.inCache index)) := by
      simp [Straight]
    rw [hstraight]
    by_cases hp : p.isCountedRequest = true
    · have hwaits := hentry p.reversed
      simp only [waitsAt, waits, hp, true_and, if_true] at hwaits
      cases hchange with
      | answered h hcached hin hout =>
        have htime := (isRequestOf_iff.mp h).2.2
        simp only [hcached, hin, waitsAt, waits, hp, true_and]
        grind
      | asked h hcached hin hout =>
        have hresp := (isResponseOf_iff.mp h).1
        have hreq := (isCountedRequest_iff.mp hp).2
        rw [hreq] at hresp
        cases hresp
      | kept hreq hresp htime hcached hin hout =>
        grind
      | replaced hreq hresp htime hcached hin hout =>
        simp only [hcached, hin, waitsAt, waits, hp, true_and, hcur]
        grind
    · cases hchange with
      | answered h hcached hin hout | asked h hcached hin hout
      | kept hreq hresp htime hcached hin hout => simp [hcached, hin, waitsAt, waits, hp]
      | replaced hreq hresp htime hcached hin hout =>
        simp only [hcached, hin, waitsAt, waits, hp, hcur]
        grind

/-- A straight log counts every request in one place: it waits, it has timed
out, or it is settled. -/
theorem outcome_places (rrtTimeout : Nat) (hcur : cur.reversed = index)
    (hentry : ∀ d, waitsAt d prev ≤ entry.inCache d)
    (hsingle : ∀ p, prev = some p → p.multiMergeInfo = none)
    (hstraight : Straight prev cur entry index) (d : Bool) :
    (outcome prev cur entry rrtTimeout index).entry.timeout d +
        (outcome prev cur entry rrtTimeout index).entry.inCache d +
        settles d prev cur rrtTimeout =
      entry.timeout d + entry.inCache d + waits d cur := by
  cases prev with
  | none =>
    by_cases hc : cur.isCountedRequest = true
    · simp only [outcome, settles, waits, hc, hcur, if_true]
      grind [TimeoutCacheEntry.incCache_inCache, TimeoutCacheEntry.incCache_timeout]
    · simp [outcome, settles, waits, hc]
  | some p =>
    have hwaits := hentry d
    have hp := hstraight p rfl
    cases outcome_change p cur entry rrtTimeout index (hsingle p rfl) with
    | answered h hcached hin hout =>
      obtain ⟨hreq, hresp, htime⟩ := isRequestOf_iff.mp h
      have hnot : ¬ cur.isCountedRequest = true := by simp [isCountedRequest, hresp]
      have hcount : p.isCountedRequest = true ↔ p.onBlacklist = false := by
        simp [isCountedRequest, hreq]
      simp only [waitsAt, waits] at hwaits
      simp only [hin, hout, settles, h, if_true, waits, hnot]
      grind
    | asked h hcached hin hout =>
      obtain ⟨hresp, hreq, htime⟩ := isResponseOf_iff.mp h
      have hnot : p.isRequestOf cur = false := by simp [isRequestOf, hresp]
      simp only [hin, hout, settles, h, hnot, if_true, waits, hcur, isCountedRequest_iff]
      grind
    | kept hreq hresp htime hcached hin hout | replaced hreq hresp htime hcached hin hout =>
      simp only [waitsAt, waits] at hwaits
      simp only [hin, hout, settles, hreq, hresp, waits, hcur]
      grind

namespace L7PerfCache

/-- The requests of a flow and a direction that wait in the cache. -/
def waiting [Crate] (c : L7PerfCache) (flow : Nat) (d : Bool) : Nat :=
  weigh (fun key log => if key.flowId = flow then waits d log else 0) c.rrtCache.logs

/-- The caches, with the requests of each flow and direction that came so far
and those of them that were settled. -/
structure Tracked [Crate] where
  cache : L7PerfCache
  seen : Nat → Bool → Nat
  settled : Nat → Bool → Nat

namespace Tracked

variable [Crate] {c c' : L7PerfCache}

/-- Empty caches, before any request. -/
def new (cap : Nat) : Tracked :=
  { cache := L7PerfCache.new cap, seen := fun _ _ => 0, settled := fun _ _ => 0 }

/-- One call of `perf_stats`. -/
def step (t : Tracked) (input : L7Log × ParseParam) : Exec Tracked :=
  t.cache.step input >>= fun cache =>
    .ok
      { cache := cache
        seen := fun flow d => t.seen flow d +
          if input.2.flowId = flow then waits d (currentLog input.1 input.2) else 0
        settled := fun flow d => t.settled flow d +
          if input.2.flowId = flow then
            settles d (t.cache.prevOf input) (currentLog input.1 input.2) input.2.rrtTimeout
          else 0 }

/-- Every request that came waits, has timed out or was settled, and those that
wait are the cached ones. -/
def Exact (t : Tracked) : Prop :=
  ∀ flow d, (t.cache.entryOf flow).timeout d + (t.cache.entryOf flow).inCache d +
      t.settled flow d = t.seen flow d ∧
    (t.cache.entryOf flow).inCache d = t.cache.waiting flow d

/-- Nothing is evicted by the call. -/
def Kept (t : Tracked) (input : L7Log × ParseParam) : Prop :=
  input.1.logCache.msgType = .session ∨ NoEviction t.cache input

/-- The call is about a whole session or changes the counts of the direction
that the cached request was counted in. -/
def Straight (t : Tracked) (input : L7Log × ParseParam) : Prop :=
  input.1.logCache.msgType = .session ∨
    Perf.Straight (t.cache.prevOf input) (currentLog input.1 input.2)
      (t.cache.entryOf input.2.flowId) input.1.isReversed

/-- The counts are exact, and only logs that are merged at most once are cached. -/
structure Regular (t : Tracked) : Prop where
  exact : Exact t
  single : ∀ key log, t.cache.rrtCache.logs.peek key = some log → log.multiMergeInfo = none

variable {t : Tracked} {input : L7Log × ParseParam}

theorem step_session (ha : Aggregated input) (hs : input.1.logCache.msgType = .session) :
    t.step input = .ok t := by
  have hcall : t.cache.step input = .ok t.cache := by
    have htype : (currentLog input.1 input.2).msgType = .session := hs
    simp [L7PerfCache.step, perfStats, ha.timed, ha.once, ha.aggregated, htype]
  have hwaits : ∀ d, waits d (currentLog input.1 input.2) = 0 := by
    intro d
    simp [waits, isCountedRequest, currentLog, hs]
  have hsettles : ∀ d, settles d (t.cache.prevOf input) (currentLog input.1 input.2)
      input.2.rrtTimeout = 0 := by
    intro d
    cases t.cache.prevOf input with
    | none => rfl
    | some p => simp [settles, isRequestOf, isResponseOf, currentLog, hs]
  simp [step, hcall, hwaits, hsettles]

theorem waiting_of_follows (h : Follows c c' input) (flow : Nat) (d : Bool) :
    c'.waiting flow d + (if input.2.flowId = flow then waitsAt d (c.prevOf input) else 0) =
      c.waiting flow d +
        if input.2.flowId = flow then waitsAt d (c.outcomeOf input).cached else 0 := by
  have hflow : (key input).flowId = input.2.flowId := LogCacheKey.flowId_new _ _ _
  have hweigh : ∀ log : Option LogCache,
      weighAt (fun key log => if key.flowId = flow then waits d log else 0) (key input) log =
        if input.2.flowId = flow then waitsAt d log else 0 := by
    intro log
    cases log with
    | none => simp [weighAt, waitsAt]
    | some log => simp [weighAt, waitsAt, hflow]
  have hsum := h.logs.weight fun key log => if key.flowId = flow then waits d log else 0
  rw [hweigh, hweigh] at hsum
  exact hsum

theorem waitsAt_le_waiting (c : L7PerfCache) (input : L7Log × ParseParam) (d : Bool) :
    waitsAt d (c.prevOf input) ≤ c.waiting input.2.flowId d := by
  have hflow : (key input).flowId = input.2.flowId := LogCacheKey.flowId_new _ _ _
  have hsum := (sets_remove c.rrtCache.logs (key input)).weight
    fun key log => if key.flowId = input.2.flowId then waits d log else 0
  unfold waiting prevOf
  cases hprev : c.rrtCache.logs.peek (key input) with
  | none => exact Nat.zero_le _
  | some p =>
    simp only [hprev, weighAt, hflow, if_true] at hsum
    simp only [waitsAt]
    omega

theorem entryOf_of_follows (h : Follows c c' input) (flow : Nat) :
    c'.entryOf flow =
      if input.2.flowId = flow then (c.outcomeOf input).entry else c.entryOf flow := by
  unfold entryOf
  by_cases hflow : input.2.flowId = flow
  · subst hflow
    simp [h.counts.self]
  · rw [h.counts.other flow fun hf => hflow hf.symm, if_neg hflow]

theorem Regular.waitsAt_le (ht : Regular t) (input : L7Log × ParseParam) (d : Bool) :
    waitsAt d (t.cache.prevOf input) ≤ (t.cache.entryOf input.2.flowId).inCache d := by
  rw [(ht.exact input.2.flowId d).2]
  exact waitsAt_le_waiting t.cache input d

theorem step_follows (ht : Regular t) (ha : Aggregated input)
    (hs : input.1.logCache.msgType ≠ .session) (hk : Kept t input) :
    ∃ t', t.step input = .ok t' ∧ Follows t.cache t'.cache input ∧
      (∀ flow d, t'.seen flow d = t.seen flow d +
        if input.2.flowId = flow then waits d (currentLog input.1 input.2) else 0) ∧
      (∀ flow d, t'.settled flow d = t.settled flow d +
        if input.2.flowId = flow then
          settles d (t.cache.prevOf input) (currentLog input.1 input.2) input.2.rrtTimeout
        else 0) := by
  have hroom : NoEviction t.cache input := hk.resolve_left hs
  obtain ⟨c', hcall, hfollows⟩ := perfStats_follows ⟨ha, hs⟩ hroom fun p hp => ht.single _ p hp
  have hstep : t.cache.step input = .ok c' := by
    rw [L7PerfCache.step, hcall]
    rfl
  refine ⟨_, by rw [step, hstep, ok_bind], hfollows, ?_, ?_⟩
  all_goals
    intro flow d
    rfl

/-- **One log.**  A straight call keeps the counts exact. -/
theorem step_regular (ht : Regular t) (ha : Aggregated input) (hk : Kept t input)
    (hstraight : t.Straight input) : ∃ t', t.step input = .ok t' ∧ Regular t' := by
  by_cases hs : input.1.logCache.msgType = .session
  · exact ⟨t, step_session ha hs, ht⟩
  obtain ⟨t', hstep, hfollows, hseen, hsettled⟩ := step_follows ht ha hs hk
  have hprev : ∀ p, t.cache.prevOf input = some p → p.multiMergeInfo = none :=
    fun p hp => ht.single _ p hp
  have hentry := ht.waitsAt_le input
  have hline := hstraight.resolve_left hs
  have hreversed : (currentLog input.1 input.2).reversed = input.1.isReversed := rfl
  refine ⟨t', hstep, ?_, hfollows.forall_logs ha.single ht.single⟩
  intro flow d
  have hexact := ht.exact flow d
  have hwaiting := waiting_of_follows hfollows flow d
  rw [entryOf_of_follows hfollows, hseen, hsettled]
  by_cases hflow : input.2.flowId = flow
  · subst hflow
    have hplaces := outcome_places input.2.rrtTimeout hreversed hentry hprev hline d
    have hin := (outcome_inCache_iff input.2.rrtTimeout hreversed hentry hprev).mpr hline d
    simp only [if_true] at hwaiting ⊢
    unfold outcomeOf at hwaiting ⊢
    omega
  · simp only [hflow, if_false] at hwaiting ⊢
    omega

theorem step_not_exact (ht : Regular t) (ha : Aggregated input) (hk : Kept t input)
    (hstraight : ¬ t.Straight input) {t' : Tracked} (hstep : t.step input = .ok t') :
    ¬ Exact t' := by
  intro hexact
  apply hstraight
  by_cases hs : input.1.logCache.msgType = .session
  · exact .inl hs
  obtain ⟨t₁, hstep₁, hfollows, -, -⟩ := step_follows ht ha hs hk
  rw [hstep] at hstep₁
  cases hstep₁
  have hentry := ht.waitsAt_le input
  apply Or.inr
  have hreversed : (currentLog input.1 input.2).reversed = input.1.isReversed := rfl
  apply (outcome_inCache_iff input.2.rrtTimeout hreversed hentry fun p hp => ht.single _ p hp).mp
  intro d
  have hwaiting := waiting_of_follows hfollows input.2.flowId d
  have hbefore := (ht.exact input.2.flowId d).2
  have hafter := (hexact input.2.flowId d).2
  rw [entryOf_of_follows hfollows] at hafter
  simp only [if_true] at hwaiting hafter
  unfold outcomeOf at hwaiting hafter
  omega

theorem regular_new (cap : Nat) : Regular (new cap) := by
  refine ⟨?_, ?_⟩
  · intro flow d
    have hentry : (new cap).cache.entryOf flow = {} := by
      rw [entryOf, new, L7PerfCache.new, peek_new]
      rfl
    rw [hentry]
    exact ⟨rfl, (weigh_new _ cap).symm⟩
  · intro key log h
    simp [new, L7PerfCache.new] at h

/-- **Timeouts of every flow and direction.**  While nothing is evicted, the
counts are exact after each call if and only if every call is straight. -/
theorem perf_timeouts_exact_iff (cap : Nat) (inputs : List (L7Log × ParseParam))
    (hinputs : ∀ input ∈ inputs, Aggregated input)
    (hkept : Runs.StepsObey step Kept (new cap) inputs) :
    Runs.StatesHold step Exact (new cap) inputs ↔ Runs.StepsObey step Straight (new cap) inputs :=
  Runs.statesHold_iff_of_stepsObey (J := Regular) (fun _ ht => ht.exact)
    (fun _ _ ht hin hstraight => step_regular ht hin.1 hin.2 hstraight)
    (fun _ _ ht hin hstraight _ hstep => step_not_exact ht hin.1 hin.2 hstraight hstep)
    (regular_new cap) (hkept.and_forall hinputs)

end Tracked

namespace Tracked

/-- A log of flow 1 without a session number. -/
def plainLog (msgType : LogMessageType) (isReversed : Bool) (time : Nat) : L7Log × ParseParam :=
  ({ logCache := { msgType := msgType }, isReversed := isReversed }, { flowId := 1, time := time })

/-- A request and its response of one direction. -/
theorem perf_timeouts_exact_pair :
    Runs.StatesHold step Exact (new 8)
      [plainLog .request false 10, plainLog .response false 30] := by
  have haggregated : ∀ input ∈ [plainLog .request false 10, plainLog .response false 30],
      Aggregated input := by
    intro input hinput
    simp only [List.mem_cons, List.not_mem_nil, or_false] at hinput
    rcases hinput with rfl | rfl <;> exact ⟨by decide, rfl, rfl, rfl⟩
  have hkept : Runs.StepsObey step Kept (new 8)
      [plainLog .request false 10, plainLog .response false 30] := by
    apply (Runs.stepsObey_cons rfl _).mpr
    refine ⟨.inr (by decide), ?_⟩
    apply (Runs.stepsObey_cons rfl _).mpr
    exact ⟨.inr (by decide), trivial⟩
  apply (perf_timeouts_exact_iff 8 _ haggregated hkept).mpr
  apply (Runs.stepsObey_cons rfl _).mpr
  refine ⟨.inr ?_, ?_⟩
  · intro p hp
    cases hp
  apply (Runs.stepsObey_cons rfl _).mpr
  refine ⟨.inr ?_, trivial⟩
  intro p hp _
  cases hp
  exact .inl rfl

/-- A request that is answered by a log of the other direction: it is settled
and no longer cached, and it is still counted as waiting. -/
theorem perf_timeouts_other_direction :
    ∃ t, Runs.run step (new 8) [plainLog .request false 10, plainLog .response true 30] =
        .ok t ∧
      (t.cache.entryOf 1).inCache false = 1 ∧ t.cache.waiting 1 false = 0 ∧
      t.seen 1 false = 1 ∧ t.settled 1 false = 1 ∧ ¬ Exact t := by
  refine ⟨_, rfl, rfl, rfl, rfl, rfl, ?_⟩
  intro hexact
  exact absurd (hexact 1 false).2 (by decide)

end Tracked

end L7PerfCache

end ZeroTrace.Perf
