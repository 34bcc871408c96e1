import ZeroTrace.PerfStatsCounts

/-!
# The index of the RRT cache

The RRT cache is two LRU caches of one capacity, the logs and an index that
lists the keys of every flow.  When a flow is removed, the logs that go are those
its index entry lists, so a log that is cached and not listed stays behind.

Both caches evict, and each by its own order: a lookup uses a log and leaves the
index as it is.  So the index may drop a flow whose logs are still wanted.  This is
the only way for a log to lose its index entry (`Listed.put_iff`): all other
operations keep every cached log listed, and a `put` keeps it unless the index
drops a flow with a log that the same `put` does not drop from the logs.
-/

namespace ZeroTrace.Perf.RrtCache

open RustExec Lru Lru.Crate LruCache Runs

section

variable [Crate]

def empty (cap : Nat) : RrtCache := { logs := .new cap, flows := .new cap }

variable (r : RrtCache)

def get (key : LogCacheKey) : Option LogCache × RrtCache := r.getMut key

def removeKeys (keys : List LogCacheKey) (logs : LruCache LogCacheKey LogCache) :
    LruCache LogCacheKey LogCache :=
  keys.foldl (fun logs key => (logs.pop key).2) logs

def removeFlow (flowId : Nat) : RrtCache :=
  match r.flows.pop flowId with
  | (some keys, flows) =>
    let logs := removeKeys keys.keys r.logs
    { logs := logs, flows := flows, cacheLen := logs.len }
  | (none, flows) => { r with flows := flows, cacheLen := r.logs.len }

/-- An operation on the cache; `getMut` comes with what is written through its
reference. -/
inductive Op where
  | get (key : LogCacheKey)
  | getMut (key : LogCacheKey) (change : LogCache → LogCache)
  | put (key : LogCacheKey) (value : LogCache)
  | pop (key : LogCacheKey)
  | collectFlowPerfStats (flowId : Nat)
  | removeFlow (flowId : Nat)

def apply : Op → RrtCache
  | .get key => (r.get key).2
  | .getMut key change =>
    match r.getMut key with
    | (some log, r) => r.write key (change log)
    | (none, r) => r
  | .put key value => (r.put key value).2
  | .pop key => (r.pop key).2
  | .collectFlowPerfStats flowId => (r.collectFlowPerfStats flowId).2
  | .removeFlow flowId => r.removeFlow flowId

def step (op : Op) : Exec RrtCache := .ok (r.apply op)

/-- What holds of the cache whatever is done to it: there is room for something,
and a flow lists keys of its own, at most sixteen. -/
structure Sound (r : RrtCache) : Prop where
  logsCap : 0 < r.logs.cap
  flowsCap : 0 < r.flows.cap
  keysCap : ∀ flow keys, r.flows.peek flow = some keys → keys.cap = maxRrtCachePerFlow
  own : ∀ flow key, r.Lists flow key → key.flowId = flow

def Listed : Prop :=
  ∀ key, (r.logs.peek key).isSome → r.Lists key.flowId key

def keysIn (flow : Nat) : List LogCacheKey :=
  r.logs.keys.filter fun key => key.flowId = flow

/-- Every log is listed, no flow has more than sixteen, and none is left of a flow
that is removed or collected. -/
structure Clean (r : RrtCache) : Prop where
  listed : r.Listed
  few : ∀ flow, (r.keysIn flow).length ≤ maxRrtCachePerFlow
  removed : ∀ flow, (r.removeFlow flow).keysIn flow = []
  collected : ∀ flow, (r.collectFlowPerfStats flow).2.keysIn flow = []

/-- What a step needs: a flow that a `put` drops from the index has no log but the
one that the same `put` drops from the logs. -/
def Drops : Op → Prop
  | .put key _ =>
    ∀ flow, r.flows.evicted key.flowId = some flow →
      ∀ k ∈ r.keysIn flow, r.logs.evicted key = some k
  | _ => True

/-! ## Removing a flow -/

/-- The flow and the logs it lists are gone, and nothing else. -/
structure Drained (r r' : RrtCache) (flow : Nat) : Prop where
  flows : r'.flows = r.flows.remove flow
  cap : r'.logs.cap = r.logs.cap
  gone : ∀ key, r.Lists flow key → r'.logs.peek key = none
  kept : ∀ key, ¬ r.Lists flow key → r'.logs.peek key = r.logs.peek key

variable {r} {r' : RrtCache} {flow : Nat} {key : LogCacheKey} {cap : Nat} {g : Nat}

theorem lists_iff_mem {keys : LruCache LogCacheKey Unit} (h : r.flows.peek flow = some keys) :
    r.Lists flow key ↔ key ∈ keys.keys := by
  simp [Lists, h, mem_keys_iff]

theorem drained_of_foldl {keys : LruCache LogCacheKey Unit} (h : r.flows.peek flow = some keys)
    (hflows : r'.flows = r.flows.remove flow)
    (hlogs : r'.logs = keys.keys.foldl LruCache.remove r.logs) : Drained r r' flow := by
  refine ⟨hflows, ?_, ?_, ?_⟩
  · rw [hlogs]
    exact keys.keys.foldlRecOn (motive := (LruCache.cap · = r.logs.cap)) _ rfl
      fun _ h _ _ => (cap_remove _ _).trans h
  · intro key hlists
    rw [hlogs, peek_foldl_remove, if_pos ((lists_iff_mem h).mp hlists)]
  · intro key hlists
    rw [hlogs, peek_foldl_remove, if_neg (mt (lists_iff_mem h).mpr hlists)]

theorem drained_of_absent (h : r.flows.peek flow = none)
    (hflows : r'.flows = r.flows.remove flow) (hlogs : r'.logs = r.logs) : Drained r r' flow := by
  refine ⟨hflows, by rw [hlogs], ?_, fun key _ => by rw [hlogs]⟩
  intro key hlists
  obtain ⟨keys, hkeys, -⟩ := hlists
  rw [h] at hkeys
  cases hkeys

theorem drained_removeFlow (r : RrtCache) (flow : Nat) : Drained r (r.removeFlow flow) flow := by
  unfold removeFlow LruCache.pop
  cases hkeys : r.flows.peek flow with
  | none => exact drained_of_absent hkeys rfl rfl
  | some keys => exact drained_of_foldl hkeys rfl rfl

theorem drained_collect (r : RrtCache) (flow : Nat) :
    Drained r (r.collectFlowPerfStats flow).2 flow := by
  unfold collectFlowPerfStats LruCache.pop
  cases hkeys : r.flows.peek flow with
  | none => exact drained_of_absent hkeys rfl rfl
  | some keys => exact drained_of_foldl hkeys rfl (collectKeys_snd ..)

section

variable (h : Drained r r' flow)

include h

theorem Drained.lists_ne (hg : g ≠ flow) : r'.Lists g key ↔ r.Lists g key := by
  rw [Lists, Lists, h.flows, peek_remove_ne hg]

theorem Drained.not_lists : ¬ r'.Lists flow key := by
  intro hlists
  obtain ⟨keys, hkeys, -⟩ := hlists
  rw [h.flows, peek_remove_self] at hkeys
  cases hkeys

theorem Drained.sound (hr : r.Sound) : r'.Sound := by
  refine ⟨h.cap ▸ hr.logsCap, ?_, ?_, ?_⟩
  · rw [h.flows, cap_remove]
    exact hr.flowsCap
  · intro g keys hkeys
    by_cases hg : g = flow
    · subst hg
      rw [h.flows, peek_remove_self] at hkeys
      cases hkeys
    · rw [h.flows, peek_remove_ne hg] at hkeys
      exact hr.keysCap g keys hkeys
  · intro g key hlists
    by_cases hg : g = flow
    · subst hg
      exact absurd hlists h.not_lists
    · exact hr.own g key ((h.lists_ne hg).mp hlists)

theorem Drained.peek_eq_none (hr : r.Listed) (hkey : key.flowId = flow) :
    r'.logs.peek key = none := by
  by_cases hlists : r.Lists flow key
  · exact h.gone key hlists
  · rw [h.kept key hlists]
    by_contra hsome
    exact hlists (hkey ▸ hr key (Option.isSome_iff_ne_none.mpr hsome))

theorem Drained.listed (hr : r.Listed) : r'.Listed := by
  intro key hsome
  by_cases hkey : key.flowId = flow
  · rw [h.peek_eq_none hr hkey] at hsome
    cases hsome
  rw [h.lists_ne hkey]
  by_cases hlists : r.Lists flow key
  · rw [h.gone key hlists] at hsome
    cases hsome
  · rw [h.kept key hlists] at hsome
    exact hr key hsome

omit h in
theorem mem_keysIn : key ∈ r.keysIn flow ↔ (r.logs.peek key).isSome ∧ key.flowId = flow := by
  simp [keysIn, mem_keys_iff]

theorem Drained.keysIn_eq_nil (hr : r.Listed) : r'.keysIn flow = [] := by
  apply List.eq_nil_iff_forall_not_mem.mpr
  intro key hkey
  obtain ⟨hsome, hflow⟩ := mem_keysIn.mp hkey
  rw [h.peek_eq_none hr hflow] at hsome
  cases hsome

end

/-! ## A log per index entry -/

theorem keysIn_length_le (hs : r.Sound) (hr : r.Listed) (flow : Nat) :
    (r.keysIn flow).length ≤ maxRrtCachePerFlow := by
  have hnodup : (r.keysIn flow).Nodup := r.logs.keys_nodup.filter _
  cases hkeys : r.flows.peek flow with
  | none =>
    have hnil : r.keysIn flow = [] := by
      apply List.eq_nil_iff_forall_not_mem.mpr
      intro key hkey
      obtain ⟨hsome, rfl⟩ := mem_keysIn.mp hkey
      obtain ⟨keys, hpeek, -⟩ := hr key hsome
      rw [hkeys] at hpeek
      cases hpeek
    rw [hnil]
    exact Nat.zero_le _
  | some keys =>
    have hsub : r.keysIn flow ⊆ keys.keys := by
      intro key hkey
      obtain ⟨hsome, rfl⟩ := mem_keysIn.mp hkey
      exact (lists_iff_mem hkeys).mp (hr key hsome)
    have hlen : keys.keys.length ≤ keys.cap := by
      have hbound := keys.bounded
      rwa [← List.length_map Sigma.fst] at hbound
    have hle := (List.subperm_of_subset hnodup hsub).length_le
    rw [hs.keysCap flow keys hkeys] at hlen
    exact Nat.le_trans hle hlen

theorem clean_of_listed (hs : r.Sound) (hr : r.Listed) : r.Clean where
  listed := hr
  few := keysIn_length_le hs hr
  removed flow := (drained_removeFlow r flow).keysIn_eq_nil hr
  collected flow := (drained_collect r flow).keysIn_eq_nil hr

/-! ## Putting a log -/

/-- The logs once the flow of the key has made room for it. -/
def trimmed (r : RrtCache) (key : LogCacheKey) : LruCache LogCacheKey LogCache :=
  match ((r.keysOf key.flowId).push key ()).1 with
  | some (old, _) => if key ≠ old then (r.logs.pop old).2 else r.logs
  | none => r.logs

theorem put_snd (r : RrtCache) (key : LogCacheKey) (log : LogCache) :
    (r.put key log).2 =
      { logs := (r.trimmed key).place key log
        flows := (r.flows.place key.flowId (r.keysOf key.flowId)).place key.flowId
          (r.pushedKeys key)
        cacheLen := ((r.trimmed key).place key log).len } := by
  have hkeys : (r.flows.getOrInsert key.flowId (.new maxRrtCachePerFlow)).1 =
      r.keysOf key.flowId := getOrInsert_fst _ _ _
  have hflows : (r.flows.getOrInsert key.flowId (.new maxRrtCachePerFlow)).2 =
      r.flows.place key.flowId (r.keysOf key.flowId) := by
    unfold getOrInsert keysOf
    cases r.flows.peek key.flowId <;> rfl
  unfold put
  simp only [hkeys, hflows]
  rfl

theorem Sound.keysOf_cap (hs : r.Sound) (flow : Nat) :
    (r.keysOf flow).cap = maxRrtCachePerFlow := by
  unfold keysOf
  cases hkeys : r.flows.peek flow with
  | some keys => exact hs.keysCap flow keys hkeys
  | none => exact cap_new _

theorem Sound.keysOf_cap_pos (hs : r.Sound) (flow : Nat) : 0 < (r.keysOf flow).cap := by
  rw [hs.keysOf_cap]
  decide

theorem lists_iff_keysOf : r.Lists flow key ↔ ((r.keysOf flow).peek key).isSome := by
  unfold Lists keysOf
  cases r.flows.peek flow <;> simp

theorem peek_trimmed (hs : r.Sound) (key j : LogCacheKey) :
    (r.trimmed key).peek j =
      if (r.keysOf key.flowId).evicted key = some j then none else r.logs.peek j := by
  unfold trimmed
  cases hpeek : (r.keysOf key.flowId).peek key with
  | some u =>
    have hroom := room_of_peek hpeek
    rw [push_fst hroom, hpeek, evicted_of_room hroom]
    simp
  | none =>
    have hpush := push_fst_of_peek_none (hs.keysOf_cap_pos key.flowId) hpeek ()
    cases hold : ((r.keysOf key.flowId).push key ()).1 with
    | none =>
      rw [hold] at hpush
      rw [← hpush]
      simp
    | some old =>
      rw [hold] at hpush
      rw [← hpush]
      -- the key that makes way is cached, so it is not the new one
      have hne : key ≠ old.1 := by
        intro heq
        have hmem : old.1 ∈ (r.keysOf key.flowId).keys := evicted_mem hpush.symm
        rw [mem_keys_iff, ← heq, hpeek] at hmem
        cases hmem
      by_cases hj : old.1 = j
      · subst hj
        simp [hne, LruCache.pop]
      · simp [hne, hj, LruCache.pop, peek_remove_ne (Ne.symm hj)]

theorem cap_trimmed (r : RrtCache) (key : LogCacheKey) : (r.trimmed key).cap = r.logs.cap := by
  unfold trimmed
  split
  · split
    · exact cap_remove _ _
    · rfl
  · rfl

theorem peek_put_flows (hs : r.Sound) (key : LogCacheKey) (log : LogCache) (g : Nat) :
    (r.put key log).2.flows.peek g =
      if g = key.flowId then some (r.pushedKeys key)
      else if r.flows.evicted key.flowId = some g then none else r.flows.peek g := by
  have hfirst := peek_place hs.flowsCap key.flowId (r.keysOf key.flowId)
  have hroom : (r.flows.place key.flowId (r.keysOf key.flowId)).Room key.flowId := by
    apply room_of_peek
    rw [hfirst, if_pos rfl]
  rw [put_snd]
  change ((r.flows.place key.flowId (r.keysOf key.flowId)).place key.flowId _).peek g = _
  rw [peek_place_of_room hroom, hfirst]
  split_ifs <;> rfl

theorem peek_put_logs (hs : r.Sound) (key : LogCacheKey) (log : LogCache) (j : LogCacheKey) :
    (r.put key log).2.logs.peek j =
      if j = key then some log
      else if (r.trimmed key).evicted key = some j then none else (r.trimmed key).peek j := by
  rw [put_snd]
  exact peek_place (by rw [cap_trimmed]; exact hs.logsCap) key log j

theorem pushedKeys_peek (hs : r.Sound) (key j : LogCacheKey) :
    (r.pushedKeys key).peek j =
      if j = key then some ()
      else if (r.keysOf key.flowId).evicted key = some j then none
      else (r.keysOf key.flowId).peek j :=
  peek_place (hs.keysOf_cap_pos key.flowId) key () j

theorem Sound.put (hs : r.Sound) (key : LogCacheKey) (log : LogCache) :
    (r.put key log).2.Sound := by
  refine ⟨?_, ?_, ?_, ?_⟩
  · rw [put_snd, cap_place, cap_trimmed]
    exact hs.logsCap
  · rw [put_snd, cap_place, cap_place]
    exact hs.flowsCap
  · intro g keys hkeys
    rw [peek_put_flows hs] at hkeys
    split at hkeys
    · cases hkeys
      exact (cap_place _ _ _).trans (hs.keysOf_cap key.flowId)
    · split at hkeys
      · cases hkeys
      · exact hs.keysCap g keys hkeys
  · intro g j hlists
    obtain ⟨keys, hkeys, hmem⟩ := hlists
    rw [peek_put_flows hs] at hkeys
    split at hkeys
    · rename_i hg
      cases hkeys
      rw [pushedKeys_peek hs] at hmem
      split at hmem
      · rename_i hj
        rw [hj, hg]
      split at hmem
      · cases hmem
      · rw [hg]
        exact hs.own key.flowId j (lists_iff_keysOf.mpr hmem)
    · split at hkeys
      · cases hkeys
      · exact hs.own g j ⟨keys, hkeys, hmem⟩

theorem trimmed_of_evicted (h : r.flows.evicted key.flowId = some g) :
    r.trimmed key = r.logs ∧ g ≠ key.flowId := by
  have hroom : ¬ r.flows.Room key.flowId := by
    intro hroom
    rw [evicted_of_room hroom] at h
    cases h
  have hnone := (full_of_not_room hroom).1
  have hkeys : r.keysOf key.flowId = .new maxRrtCachePerFlow := by
    rw [keysOf, hnone]
    rfl
  refine ⟨?_, ?_⟩
  · unfold trimmed
    rw [hkeys, push_fst (room_new (by decide) key), peek_new]
    rfl
  · intro heq
    have hmem := evicted_mem h
    rw [mem_keys_iff, heq, hnone] at hmem
    cases hmem

/-- **Exactly when a `put` keeps every log listed.** -/
theorem Listed.put_iff (hr : r.Listed) (hs : r.Sound) (key : LogCacheKey) (log : LogCache) :
    (r.put key log).2.Listed ↔ r.Drops (.put key log) := by
  constructor
  · intro hput g hevicted k hk
    obtain ⟨hsome, hkg⟩ := mem_keysIn.mp hk
    obtain ⟨htrim, hg⟩ := trimmed_of_evicted hevicted
    have hne : k ≠ key := by
      intro heq
      exact hg (heq ▸ hkg.symm)
    by_contra hkeep
    have hstays : (r.put key log).2.logs.peek k = r.logs.peek k := by
      rw [peek_put_logs hs, if_neg hne, htrim, if_neg hkeep]
    obtain ⟨keys, hkeys, -⟩ := hput k (hstays ▸ hsome)
    rw [peek_put_flows hs, hkg, if_neg hg, if_pos hevicted] at hkeys
    cases hkeys
  intro hdrops j hj
  rw [peek_put_logs hs] at hj
  by_cases hjk : j = key
  · subst hjk
    refine ⟨r.pushedKeys j, ?_, ?_⟩
    · rw [peek_put_flows hs, if_pos rfl]
    · rw [pushedKeys_peek hs, if_pos rfl]
      rfl
  rw [if_neg hjk] at hj
  have hstays : (r.trimmed key).evicted key ≠ some j := by
    intro heq
    rw [if_pos heq] at hj
    cases hj
  rw [if_neg hstays, peek_trimmed hs] at hj
  have hnotrim : (r.keysOf key.flowId).evicted key ≠ some j := by
    intro heq
    rw [if_pos heq] at hj
    cases hj
  rw [if_neg hnotrim] at hj
  have hlisted := hr j hj
  by_cases hflow : j.flowId = key.flowId
  · refine ⟨r.pushedKeys key, ?_, ?_⟩
    · rw [peek_put_flows hs, if_pos hflow]
    · rw [pushedKeys_peek hs, if_neg hjk, if_neg hnotrim, ← hflow]
      exact lists_iff_keysOf.mp hlisted
  obtain ⟨keys, hkeys, hmem⟩ := hlisted
  refine ⟨keys, ?_, hmem⟩
  rw [peek_put_flows hs, if_neg hflow, if_neg ?_]
  · exact hkeys
  intro hevicted
  obtain ⟨htrim, -⟩ := trimmed_of_evicted hevicted
  rw [htrim] at hstays
  exact hstays (hdrops j.flowId hevicted j (mem_keysIn.mpr ⟨hj, rfl⟩))

/-! ## All operations -/

theorem sound_of_same (hs : r.Sound) (hflows : r'.flows = r.flows)
    (hcap : r'.logs.cap = r.logs.cap) : r'.Sound := by
  refine ⟨hcap ▸ hs.logsCap, hflows ▸ hs.flowsCap, ?_, ?_⟩
  · rw [hflows]
    exact hs.keysCap
  · intro g j hlists
    rw [Lists, hflows] at hlists
    exact hs.own g j hlists

theorem listed_of_same (hr : r.Listed) (hflows : r'.flows = r.flows)
    (hlogs : ∀ j, (r'.logs.peek j).isSome → (r.logs.peek j).isSome) : r'.Listed := by
  intro j hj
  rw [Lists, hflows]
  exact hr j (hlogs j hj)

theorem getMut_flows (r : RrtCache) (key : LogCacheKey) : (r.getMut key).2.flows = r.flows := rfl

theorem getMut_cap (r : RrtCache) (key : LogCacheKey) : (r.getMut key).2.logs.cap = r.logs.cap := by
  change (r.logs.get key).2.cap = _
  unfold LruCache.get
  cases r.logs.peek key with
  | none => rfl
  | some log => exact cap_place _ _ _

theorem getMut_peek (r : RrtCache) (key j : LogCacheKey) :
    (r.getMut key).2.logs.peek j = r.logs.peek j :=
  peek_get r.logs key j

theorem apply_getMut (r : RrtCache) (key : LogCacheKey) (change : LogCache → LogCache) :
    (r.apply (.getMut key change)).flows = r.flows ∧
      (r.apply (.getMut key change)).logs.cap = r.logs.cap ∧
      ∀ j, ((r.apply (.getMut key change)).logs.peek j).isSome → (r.logs.peek j).isSome := by
  have hfst := getMut_fst r key
  have hcap := getMut_cap r key
  have hpeek := getMut_peek r key
  cases hget : r.getMut key with
  | mk found rest =>
    simp only [apply, hget]
    rw [hget] at hfst hcap hpeek
    have hflows : rest.flows = r.flows := by rw [← getMut_flows r key, hget]
    cases found with
    | none => exact ⟨hflows, hcap, fun j hj => hpeek j ▸ hj⟩
    | some log =>
      refine ⟨hflows, (cap_place _ _ _).trans hcap, ?_⟩
      have hroom : rest.logs.Room key := room_of_peek ((hpeek key).trans hfst.symm)
      intro j hj
      by_cases hjk : j = key
      · subst hjk
        rw [← hfst]
        rfl
      · change ((rest.logs.place key (change log)).peek j).isSome at hj
        rw [peek_place_ne hroom hjk] at hj
        exact hpeek j ▸ hj

theorem pop_cap (r : RrtCache) (key : LogCacheKey) : (r.pop key).2.flows.cap = r.flows.cap := by
  unfold pop LruCache.get
  cases r.flows.peek key.flowId with
  | none => rfl
  | some keys =>
    dsimp only
    split
    · exact (cap_remove _ _).trans (cap_place _ _ _)
    · exact (cap_place _ _ _).trans (cap_place _ _ _)

theorem Sound.pop (hs : r.Sound) (key : LogCacheKey) : (r.pop key).2.Sound := by
  have hflows := pop_flows r key
  refine ⟨hs.logsCap.trans_eq (cap_remove _ _).symm, (pop_cap r key).symm ▸ hs.flowsCap, ?_, ?_⟩
  · intro g keys hkeys
    by_cases hg : g = key.flowId
    · subst hg
      rw [hflows.self, poppedKeys] at hkeys
      obtain ⟨old, hold, hrest⟩ := Option.bind_eq_some_iff.mp hkeys
      split at hrest
      · cases hrest
      · cases hrest
        exact (cap_remove _ _).trans (hs.keysCap key.flowId old hold)
    · rw [hflows.other g hg] at hkeys
      exact hs.keysCap g keys hkeys
  · intro g j hlists
    exact hs.own g j ((lists_pop r key g j).mp hlists).1

theorem Listed.pop (hr : r.Listed) (key : LogCacheKey) : (r.pop key).2.Listed := by
  have hlogs := sets_pop r key
  intro j hj
  by_cases hjk : j = key
  · subst hjk
    rw [hlogs.self] at hj
    cases hj
  · rw [hlogs.other j hjk] at hj
    exact (lists_pop r key j.flowId j).mpr ⟨hr j hj, fun h => hjk h.2⟩

theorem Sound.apply (hs : r.Sound) (op : Op) : (r.apply op).Sound := by
  cases op with
  | get key => exact sound_of_same hs (getMut_flows r key) (getMut_cap r key)
  | getMut key change =>
    obtain ⟨hflows, hcap, -⟩ := apply_getMut r key change
    exact sound_of_same hs hflows hcap
  | put key value => exact hs.put key value
  | pop key => exact hs.pop key
  | collectFlowPerfStats flow => exact (drained_collect r flow).sound hs
  | removeFlow flow => exact (drained_removeFlow r flow).sound hs

theorem Listed.apply_iff (hr : r.Listed) (hs : r.Sound) (op : Op) :
    (r.apply op).Listed ↔ r.Drops op := by
  cases op with
  | get key =>
    exact iff_of_true (listed_of_same hr (getMut_flows r key)
      fun j hj => getMut_peek r key j ▸ hj) trivial
  | getMut key change =>
    obtain ⟨hflows, -, hlogs⟩ := apply_getMut r key change
    exact iff_of_true (listed_of_same hr hflows hlogs) trivial
  | put key value => exact hr.put_iff hs key value
  | pop key => exact iff_of_true (hr.pop key) trivial
  | collectFlowPerfStats flow => exact iff_of_true ((drained_collect r flow).listed hr) trivial
  | removeFlow flow => exact iff_of_true ((drained_removeFlow r flow).listed hr) trivial

theorem not_lists_empty (cap flow : Nat) (key : LogCacheKey) : ¬ (empty cap).Lists flow key := by
  intro hlists
  obtain ⟨keys, hkeys, -⟩ := hlists
  simp [empty] at hkeys

theorem sound_empty (hcap : 0 < cap) : (empty cap).Sound where
  logsCap := hcap.trans_eq (cap_new cap).symm
  flowsCap := hcap.trans_eq (cap_new cap).symm
  keysCap := by
    intro flow keys hkeys
    simp [empty] at hkeys
  own := fun flow key hlists => absurd hlists (not_lists_empty cap flow key)

theorem listed_empty (cap : Nat) : (empty cap).Listed := by
  intro key hsome
  simp [empty] at hsome

theorem sound_run (hcap : 0 < cap) {ops : List Op}
    (hrun : run step (empty cap) ops = .ok r) : r.Sound := by
  refine run_induction (Q := fun _ => True) ?_ (sound_empty hcap) (fun _ _ => trivial) hrun
  intro s op s' hs _ hstep
  cases hstep
  exact hs.apply op

/-- **No log of a removed flow.**  From an empty cache, every log is listed under its
flow, no flow has more than sixteen logs and none is left of a flow that is
removed, in every state of a run, if and only if no `put` drops a flow from the
index while one of its logs stays. -/
theorem run_clean_iff {cap : Nat} (hcap : 0 < cap) (ops : List Op) :
    StatesHold step Clean (empty cap) ops ↔ StepsObey step Drops (empty cap) ops := by
  refine statesHold_iff (J := fun r => r.Sound ∧ r.Listed) ?_ ?_ ?_
    ⟨sound_empty hcap, listed_empty cap⟩
  · intro r hr
    exact clean_of_listed hr.1 hr.2
  · intro r op hr hdrops
    exact ⟨_, rfl, hr.1.apply op, (hr.2.apply_iff hr.1 op).mpr hdrops⟩
  · intro r op hr hnot r' hstep hclean
    cases hstep
    exact hnot ((hr.2.apply_iff hr.1 op).mp hclean.listed)

theorem drops_of_evicted_eq_none {log : LogCache} (h : r.flows.evicted key.flowId = none) :
    r.Drops (.put key log) := by
  intro flow hflow
  rw [h] at hflow
  cases hflow

end

def keyOfFlow (flow : Nat) : LogCacheKey := .new { flowId := flow, time := 1 } (some 0) false

theorem run_clean_two_flows :
    StatesHold step Clean (empty 2)
      [.put (keyOfFlow 1) {}, .put (keyOfFlow 2) {}, .removeFlow 1] := by
  refine (run_clean_iff (by decide) _).mpr ?_
  rw [stepsObey_cons rfl, stepsObey_cons rfl, stepsObey_cons rfl]
  exact ⟨drops_of_evicted_eq_none (by decide +kernel),
    drops_of_evicted_eq_none (by decide +kernel), trivial, trivial⟩

/-- In a cache for two, the log of flow 1 is used again before a third flow comes.
The index then drops flow 1 and the logs drop that of flow 2: the log of flow 1 is
left without an index entry, and removing flow 1 does not remove it. -/
theorem put_leaves_log_of_dropped_flow :
    ∃ r, run step (empty 2)
        [.put (keyOfFlow 1) {}, .put (keyOfFlow 2) {}, .get (keyOfFlow 1),
          .put (keyOfFlow 3) {}] = .ok r ∧
      r.keysIn 1 = [keyOfFlow 1] ∧ r.flows.keys = [3, 2] ∧
      (r.removeFlow 1).keysIn 1 = [keyOfFlow 1] ∧
      (r.collectFlowPerfStats 1).2.keysIn 1 = [keyOfFlow 1] :=
  ⟨_, rfl, by decide +kernel, by decide +kernel, by decide +kernel, by decide +kernel⟩

end ZeroTrace.Perf.RrtCache
