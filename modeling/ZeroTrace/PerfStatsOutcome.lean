import ZeroTrace.PerfStats

/-!
# What one log does to the caches

For a log that is merged at most once, `perf_stats` comes down to a function
of three things: the log, the one cached under its key, and the counts of its
flow.  `outcome` is this function: it says what is returned, what the counts
become, and what is cached afterwards.  As long as nothing is evicted, a call
changes the caches at the key and the flow of its log and nowhere else, and
the index of keys by flow stays in step with the logs.
-/

namespace ZeroTrace.Perf

open RustExec Lru Lru.Crate LruCache RrtCache

/-- Statistics, counts and the cached log after a log. -/
structure Outcome where
  stats : Option L7PerfStats
  entry : TimeoutCacheEntry
  cached : Option LogCache

/-- The decision about a log that is merged at most once. -/
def judgeOnce (prev cur : LogCache) (entry : TimeoutCacheEntry) (rrtTimeout : Nat)
    (index : Bool) : Verdict :=
  if prev.isRequestOf cur then judgeResponse prev cur entry false rrtTimeout index
  else if prev.isResponseOf cur then judgeRequest prev cur entry false rrtTimeout index
  else judgeSingle prev cur entry index

theorem judge_once (prev cur : LogCache) (entry : TimeoutCacheEntry) (rrtTimeout : Nat)
    (index : Bool) :
    judge prev cur entry false false rrtTimeout index =
      .ok (judgeOnce prev cur entry rrtTimeout index) := by
  unfold judge judgeOnce
  split
  · rfl
  · split
    · rfl
    · rfl

def Verdict.outcome (verdict : Verdict) (prev cur : LogCache) : Outcome where
  stats := if verdict.disposal = .replace then prev.stats else verdict.stats
  entry := verdict.entry
  cached :=
    match verdict.disposal with
    | .keep => some prev
    | .drop => none
    | .replace => some cur

/-- The counts once a cached request no longer waits. -/
def unwait (prev : LogCache) (entry : TimeoutCacheEntry) (index : Bool) : TimeoutCacheEntry :=
  if prev.isCountedRequest then entry.decCache index else entry

/-- What a log leads to that is merged at most once. -/
def outcome (prev : Option LogCache) (cur : LogCache) (entry : TimeoutCacheEntry)
    (rrtTimeout : Nat) (index : Bool) : Outcome :=
  match prev with
  | none =>
    { stats := if cur.isCountedRequest then some (.ofLog cur) else none
      entry := if cur.isCountedRequest then entry.incCache index else entry
      cached := some cur }
  | some prev =>
    (judgeOnce prev cur (unwait prev entry index) rrtTimeout index).outcome prev cur

theorem outcome_cached {prev : Option LogCache} {cur log : LogCache} {entry : TimeoutCacheEntry}
    {rrtTimeout : Nat} {index : Bool}
    (h : (outcome prev cur entry rrtTimeout index).cached = some log) :
    log = cur ∨ prev = some log := by
  cases prev with
  | none =>
    simp only [outcome, Option.some.injEq] at h
    exact .inl h.symm
  | some p =>
    simp only [outcome, Verdict.outcome] at h
    split at h
    · exact .inr h
    · cases h
    · exact .inl (Option.some.inj h).symm

variable [Crate]

namespace RrtCache

def Lists (r : RrtCache) (flow : Nat) (key : LogCacheKey) : Prop :=
  ∃ keys, r.flows.peek flow = some keys ∧ (keys.peek key).isSome

/-- The index of keys by flow is in step with the logs. -/
def Indexed (r : RrtCache) : Prop :=
  ∀ flow key, r.Lists flow key ↔ key.flowId = flow ∧ (r.logs.peek key).isSome

theorem getMut_fst (r : RrtCache) (key : LogCacheKey) : (r.getMut key).1 = r.logs.peek key :=
  get_fst r.logs key

theorem Indexed.of_sets {r r' : RrtCache} {key : LogCacheKey} {log : LogCache}
    (h : Indexed r) (hflows : r'.flows = r.flows) (hold : (r.logs.peek key).isSome)
    (hsets : Sets r.logs r'.logs key (some log)) : Indexed r' := by
  intro flow j
  have hlists : r'.Lists flow j ↔ r.Lists flow j := by
    unfold Lists
    rw [hflows]
  rw [hlists, h flow j]
  by_cases hj : j = key
  · subst hj
    simp [hsets.self, hold]
  · rw [hsets.other j hj]

section Put

variable {r : RrtCache} {key : LogCacheKey} {log : LogCache}

def pushedKeys (r : RrtCache) (key : LogCacheKey) : LruCache LogCacheKey Unit :=
  (r.keysOf key.flowId).place key ()

variable (h : r.Room key)

include h

theorem put_eq :
    r.put key log =
      (r.logs.peek key,
        { logs := r.logs.place key log
          flows := (r.flows.getOrInsert key.flowId (.new maxRrtCachePerFlow)).2.place key.flowId
            (r.pushedKeys key)
          cacheLen := (r.logs.place key log).len }) := by
  have hkeys : (r.flows.getOrInsert key.flowId (.new maxRrtCachePerFlow)).1 =
      r.keysOf key.flowId := getOrInsert_fst _ _ _
  have hold := push_fst h.2.2 ()
  unfold put
  simp only [hkeys, hold]
  cases hpeek : (r.keysOf key.flowId).peek key with
  | some u => simp [LruCache.put, LruCache.push, pushedKeys]
  | none => rfl

theorem put_fst : (r.put key log).1 = r.logs.peek key := by
  rw [put_eq h]

theorem put_flows (log : LogCache) :
    Sets r.flows (r.put key log).2.flows key.flowId (some (r.pushedKeys key)) := by
  have hinsert := sets_getOrInsert h.2.1 (LruCache.new maxRrtCachePerFlow)
  rw [put_eq h]
  exact hinsert.trans (sets_place hinsert.room (r.pushedKeys key))

theorem sets_put (log : LogCache) : Sets r.logs (r.put key log).2.logs key (some log) := by
  rw [put_eq h]
  exact sets_place h.1 log

theorem lists_put (flow : Nat) (j : LogCacheKey) :
    (r.put key log).2.Lists flow j ↔ (flow = key.flowId ∧ j = key) ∨ r.Lists flow j := by
  have hflows := put_flows h log
  by_cases hf : flow = key.flowId
  · subst hf
    have hpeek : ((r.pushedKeys key).peek j).isSome ↔ j = key ∨ r.Lists key.flowId j := by
      unfold pushedKeys
      by_cases hj : j = key
      · subst hj
        simp [peek_place_self h.2.2]
      · rw [peek_place_ne h.2.2 hj]
        unfold Lists keysOf
        cases r.flows.peek key.flowId <;> simp [hj]
    unfold Lists at hpeek ⊢
    rw [hflows.self]
    simpa using hpeek
  · unfold Lists
    rw [hflows.other flow hf]
    simp [hf]

theorem Indexed.put (hi : Indexed r) : Indexed (r.put key log).2 := by
  intro flow j
  have hsets := sets_put h log
  rw [lists_put h, hi flow j]
  by_cases hj : j = key
  · subst hj
    rw [hsets.self]
    constructor
    · intro hlists
      rcases hlists with ⟨hflow, -⟩ | ⟨hflow, -⟩
      · exact ⟨hflow.symm, rfl⟩
      · exact ⟨hflow, rfl⟩
    · intro hflow
      exact .inl ⟨hflow.1.symm, rfl⟩
  · rw [hsets.other j hj]
    simp [hj]

end Put

section Pop

variable {r : RrtCache} {key : LogCacheKey}

theorem sets_pop (r : RrtCache) (key : LogCacheKey) : Sets r.logs (r.pop key).2.logs key none :=
  sets_remove r.logs key

def poppedKeys (r : RrtCache) (key : LogCacheKey) : Option (LruCache LogCacheKey Unit) :=
  (r.flows.peek key.flowId).bind fun keys =>
    if (keys.remove key).len = 0 then none else some (keys.remove key)

theorem pop_flows (r : RrtCache) (key : LogCacheKey) :
    Sets r.flows (r.pop key).2.flows key.flowId (r.poppedKeys key) := by
  have hself := sets_get r.flows key.flowId
  unfold poppedKeys pop
  cases hkeys : r.flows.peek key.flowId with
  | none =>
    have hget : r.flows.get key.flowId = (none, r.flows) := by simp [LruCache.get, hkeys]
    rw [hget, hkeys] at hself
    rw [hget]
    exact hself
  | some keys =>
    have hget : r.flows.get key.flowId = (some keys, r.flows.place key.flowId keys) := by
      simp [LruCache.get, hkeys]
    rw [hget, hkeys] at hself
    rw [hget]
    dsimp only [LruCache.pop, Option.bind]
    split
    · exact hself.trans (sets_remove _ _)
    · exact hself.trans (sets_place hself.room _)

theorem lists_pop (r : RrtCache) (key : LogCacheKey) (flow : Nat) (j : LogCacheKey) :
    (r.pop key).2.Lists flow j ↔ r.Lists flow j ∧ ¬ (flow = key.flowId ∧ j = key) := by
  have hflows := pop_flows r key
  by_cases hf : flow = key.flowId
  · subst hf
    unfold Lists
    rw [hflows.self, poppedKeys]
    cases hkeys : r.flows.peek key.flowId with
    | none => simp
    | some keys =>
      have hpeek : ((keys.remove key).peek j).isSome ↔ (keys.peek j).isSome ∧ j ≠ key := by
        by_cases hj : j = key
        · subst hj
          simp
        · simp [peek_remove_ne hj, hj]
      by_cases hempty : (keys.remove key).len = 0
      · rw [peek_of_len_eq_zero hempty] at hpeek
        simpa [hempty] using hpeek
      · simpa [hempty] using hpeek
  · unfold Lists
    rw [hflows.other flow hf]
    simp [hf]

theorem Indexed.pop (hi : Indexed r) (key : LogCacheKey) : Indexed (r.pop key).2 := by
  intro flow j
  rw [lists_pop, hi flow j]
  by_cases hj : j = key
  · subst hj
    simp only [(sets_pop r j).self]
    constructor
    · intro h
      exact absurd ⟨h.1.1.symm, trivial⟩ h.2
    · intro h
      simp at h
  · simp [(sets_pop r key).other j hj, hj]

end Pop

end RrtCache

namespace L7PerfCache

/-- A log of a session that is merged at most once, at a time. -/
structure Aggregated (input : L7Log × ParseParam) : Prop where
  timed : input.2.time ≠ 0
  aggregated : input.1.needsSessionAggregation = true
  once : input.1.needMerge = false
  single : input.1.logCache.multiMergeInfo = none

/-- Such a log that is not a whole session by itself. -/
structure Plain (input : L7Log × ParseParam) : Prop extends Aggregated input where
  part : input.1.logCache.msgType ≠ .session

variable (c : L7PerfCache) (input : L7Log × ParseParam) {c₁ : L7PerfCache}

/-- The log that is cached under the key of a call. -/
def prevOf : Option LogCache :=
  c.rrtCache.logs.peek (key input)

/-- The counts of the flow of a call. -/
def entryOf (flowId : Nat) : TimeoutCacheEntry :=
  (c.timeoutCache.flows.peek flowId).getD {}

def outcomeOf : Outcome :=
  outcome (c.prevOf input) (currentLog input.1 input.2) (c.entryOf input.2.flowId)
    input.2.rrtTimeout input.1.isReversed

/-- A call changes the caches at its key and its flow, as its outcome says. -/
structure Follows (c c' : L7PerfCache) (input : L7Log × ParseParam) : Prop where
  logs : Sets c.rrtCache.logs c'.rrtCache.logs (key input) (c.outcomeOf input).cached
  counts : Sets c.timeoutCache.flows c'.timeoutCache.flows input.2.flowId
    (some (c.outcomeOf input).entry)
  indexed : c.rrtCache.Indexed → c'.rrtCache.Indexed

theorem Follows.forall_logs {c c' : L7PerfCache} {input : L7Log × ParseParam}
    {P : LogCache → Prop} (h : Follows c c' input) (hcur : P (currentLog input.1 input.2))
    (hc : ∀ key log, c.rrtCache.logs.peek key = some log → P log) (k : LogCacheKey)
    (log : LogCache) (hlog : c'.rrtCache.logs.peek k = some log) : P log := by
  by_cases hk : k = key input
  · subst hk
    rw [h.logs.self] at hlog
    rcases outcome_cached hlog with rfl | hp
    · exact hcur
    · exact hc _ log hp
  · rw [h.logs.other k hk] at hlog
    exact hc k log hlog

/-- The cached log is one that is merged at most once. -/
def PrevSingle : Prop :=
  ∀ prev, c.prevOf input = some prev → prev.multiMergeInfo = none

section Call

variable {c input}

theorem perfStats_eq_aggregate (hp : Plain input) :
    c.perfStats input.1 input.2 = c.aggregate input.1 input.2 (currentLog input.1 input.2) := by
  have hpart : (currentLog input.1 input.2).msgType ≠ .session := hp.part
  simp [perfStats, hp.timed, hp.once, hp.aggregated, hpart]

theorem aggregate_eq (c : L7PerfCache) (input : L7Log × ParseParam) (cur : LogCache) :
    c.aggregate input.1 input.2 cur =
      let c₁ : L7PerfCache :=
        { rrtCache := (c.rrtCache.getMut (key input)).2
          timeoutCache := (c.timeoutCache.getOrInsertMut input.2.flowId).2 }
      match c.prevOf input with
      | none =>
        .ok (c₁.firstLog (key input) cur (c.entryOf input.2.flowId) input.1.isReversed
          input.2.flowId)
      | some prev =>
        notice prev cur (c.entryOf input.2.flowId) input.1.isReversed >>= fun noticed =>
          judge noticed.prev cur noticed.entry noticed.keepPrev input.1.needMerge
            input.2.rrtTimeout input.1.isReversed >>= fun verdict =>
              c₁.dispose (key input) noticed.prev cur verdict input.2.flowId := by
  have hprev : (c.rrtCache.getMut (key input)).1 = c.prevOf input :=
    getMut_fst c.rrtCache (key input)
  have hentry : (c.timeoutCache.getOrInsertMut input.2.flowId).1 = c.entryOf input.2.flowId :=
    getOrInsert_fst _ _ _
  rw [← hprev, ← hentry]
  rfl

/-- The caches after the lookups: the same values in another order of use. -/
structure Looked (c c₁ : L7PerfCache) (input : L7Log × ParseParam) : Prop where
  logs : Sets c.rrtCache.logs c₁.rrtCache.logs (key input) (c.prevOf input)
  counts : Sets c.timeoutCache.flows c₁.timeoutCache.flows input.2.flowId
    (some (c.entryOf input.2.flowId))
  indexed : c.rrtCache.Indexed → c₁.rrtCache.Indexed
  room : c₁.rrtCache.Room (key input)

theorem looked (hroom : NoEviction c input) :
    Looked c
      { rrtCache := (c.rrtCache.getMut (key input)).2
        timeoutCache := (c.timeoutCache.getOrInsertMut input.2.flowId).2 } input := by
  obtain ⟨hcounts, hlogs, hflows, hkeys⟩ := hroom
  have hget := sets_get c.rrtCache.logs (key input)
  refine ⟨hget, sets_getOrInsert hcounts {}, ?_, hlogs.get, hflows, hkeys⟩
  intro hi
  cases hprev : c.rrtCache.logs.peek (key input) with
  | some prev =>
    rw [hprev] at hget
    exact hi.of_sets rfl (by simp [hprev]) hget
  | none =>
    have hsame : (c.rrtCache.getMut (key input)).2 = c.rrtCache := by
      simp [getMut, LruCache.get, hprev]
    rw [hsame]
    exact hi

theorem firstLog_follows (h : Looked c c₁ input) (hnone : c.prevOf input = none) :
    ∃ c', c₁.firstLog (key input) (currentLog input.1 input.2) (c.entryOf input.2.flowId)
        input.1.isReversed input.2.flowId = ((c.outcomeOf input).stats, c') ∧
      Follows c c' input := by
  have hout : c.outcomeOf input =
      outcome none (currentLog input.1 input.2) (c.entryOf input.2.flowId)
        input.2.rrtTimeout input.1.isReversed := by
    rw [outcomeOf, hnone]
  refine ⟨_, by rw [hout]; rfl, ?_, ?_, ?_⟩
  · rw [hout]
    exact h.logs.trans (sets_put h.room _)
  · rw [hout]
    exact h.counts.trans (sets_place h.counts.room _)
  · intro hi
    exact (h.indexed hi).put h.room

theorem dispose_follows (h : Looked c c₁ input) {prev : LogCache}
    (hprev : c.prevOf input = some prev) (verdict : Verdict)
    (hout : c.outcomeOf input = verdict.outcome prev (currentLog input.1 input.2)) :
    ∃ c', c₁.dispose (key input) prev (currentLog input.1 input.2) verdict input.2.flowId =
        .ok ((c.outcomeOf input).stats, c') ∧ Follows c c' input := by
  obtain ⟨stats, entry, disposal⟩ := verdict
  have hlogs := h.logs
  rw [hprev] at hlogs
  set r := c₁.rrtCache.write (key input) prev with hr
  set t := c₁.timeoutCache.write input.2.flowId entry with ht
  have hplace : Sets c₁.rrtCache.logs r.logs (key input) (some prev) := sets_place hlogs.room prev
  have hwrite : Sets c.rrtCache.logs r.logs (key input) (some prev) := hlogs.trans hplace
  have hcounts : Sets c.timeoutCache.flows t.flows input.2.flowId
      (some (c.outcomeOf input).entry) := by
    rw [hout]
    exact h.counts.trans (sets_place h.counts.room _)
  have hindexed : c.rrtCache.Indexed → r.Indexed := by
    intro hi
    have hold : (c₁.rrtCache.logs.peek (key input)).isSome := by
      rw [hlogs.self]
      rfl
    exact (h.indexed hi).of_sets rfl hold hplace
  have hroom : r.Room (key input) := ⟨hwrite.room, h.room.2⟩
  cases disposal with
  | keep =>
    refine ⟨{ rrtCache := r, timeoutCache := t }, by rw [hout]; rfl, ?_, hcounts, hindexed⟩
    rw [hout]
    exact hwrite
  | drop =>
    refine ⟨{ rrtCache := (r.pop (key input)).2, timeoutCache := t }, by rw [hout]; rfl, ?_,
      hcounts, fun hi => (hindexed hi).pop (key input)⟩
    rw [hout]
    exact hwrite.trans (sets_pop r (key input))
  | replace =>
    have hold : (r.put (key input) (currentLog input.1 input.2)).1 = some prev := by
      rw [put_fst hroom, hwrite.self]
    refine ⟨{ rrtCache := (r.put (key input) (currentLog input.1 input.2)).2
              timeoutCache := t }, ?_, ?_, hcounts, fun hi => (hindexed hi).put hroom⟩
    · rw [hout]
      simp only [dispose, ← hr, ← ht, hold, unwrap_some, ok_bind, Verdict.outcome, if_true]
    · rw [hout]
      exact hwrite.trans (sets_put hroom _)

/-- **One log.**  A plain log never panics; it returns what its outcome says and
changes the caches at its key and its flow only. -/
theorem perfStats_follows (hp : Plain input) (hroom : NoEviction c input)
    (hsingle : PrevSingle c input) :
    ∃ c', c.perfStats input.1 input.2 = .ok ((c.outcomeOf input).stats, c') ∧
      Follows c c' input := by
  have hlooked := looked hroom
  rw [perfStats_eq_aggregate hp, aggregate_eq]
  cases hprev : c.prevOf input with
  | none =>
    obtain ⟨c', hfirst, hfollows⟩ := firstLog_follows hlooked hprev
    exact ⟨c', congrArg Except.ok hfirst, hfollows⟩
  | some prev =>
    have hnotice : notice prev (currentLog input.1 input.2) (c.entryOf input.2.flowId)
        input.1.isReversed =
        .ok { prev := prev
              entry := unwait prev (c.entryOf input.2.flowId) input.1.isReversed
              keepPrev := false } := by
      simp only [notice, hsingle prev hprev, unwait]
    simp only [hnotice, ok_bind, hp.once, judge_once]
    apply dispose_follows hlooked hprev
    rw [outcomeOf, hprev]
    rfl

end Call

end L7PerfCache

end ZeroTrace.Perf
