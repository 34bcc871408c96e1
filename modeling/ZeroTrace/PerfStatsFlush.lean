import ZeroTrace.PerfStats

/-!
# Timeouts at the end of a flow

`flush_l7_perf_stats` emits two statistics of a flow, one for each direction, and
takes for each the timeouts of that direction out of the timeout cache.  While
the flow goes on, only what timed out since the last time is taken, and the
requests that still wait stay.  At the end of a flow the requests that wait have
timed out as well.

But the call for the first direction takes the whole entry of the flow out of
the cache, so the call for the second finds a fresh one: the timeouts of the
reversed direction are lost whenever there are any.
-/

namespace ZeroTrace.Perf

open RustExec Lru Lru.Crate LruCache TimeoutCache

namespace TimeoutCacheEntry

/-- `timeout[index] = 0`. -/
def clearTimeout (e : TimeoutCacheEntry) (index : Bool) : TimeoutCacheEntry :=
  { e with timeout := Function.update e.timeout index 0 }

/-- What a direction owes to its statistics: what timed out, and at the end of
the flow also what waits. -/
def due (e : TimeoutCacheEntry) (flowEnd index : Bool) : Nat :=
  if flowEnd then e.inCache index + e.timeout index else e.timeout index

end TimeoutCacheEntry

namespace TimeoutCache

def popTimeoutCount [Crate] (t : TimeoutCache) (flowId : Nat) (flowEnd isReversed : Bool) :
    Nat × TimeoutCache :=
  let (entry, t) := t.getOrInsertMut flowId
  if flowEnd then
    let flows := (t.flows.pop flowId).2
    (wrappingAdd 64 (entry.inCache isReversed) (entry.timeout isReversed),
      { flows := flows, cacheLen := flows.len })
  else (entry.timeout isReversed, t.write flowId (entry.clearTimeout isReversed))

end TimeoutCache

/-- `L7Stats`, with the fields that tell the two directions apart. -/
structure L7Stats where
  stats : L7PerfStats
  flowId : Nat
  isReversed : Bool := false
  deriving DecidableEq

namespace L7PerfCache

/-- `flush_l7_perf_stats`; `hasPerf` says whether the flow has statistics.  The
counts are cut to `u32`. -/
def flushL7PerfStats [Crate] (c : L7PerfCache) (collectStats hasPerf flowEnd : Bool)
    (flowId : Nat) : List L7Stats × L7PerfCache :=
  if collectStats && hasPerf then
    let (collected, rrtCache) :=
      if flowEnd then c.rrtCache.collectFlowPerfStats flowId else (none, c.rrtCache)
    let (forward, backward) := collected.getD ({}, {})
    let (first, timeoutCache) := c.timeoutCache.popTimeoutCount flowId flowEnd false
    let (second, timeoutCache) := timeoutCache.popTimeoutCount flowId flowEnd true
    ([{ stats := { forward with errTimeout := first % 2 ^ 32 }, flowId := flowId },
      { stats := { backward with errTimeout := second % 2 ^ 32 }
        flowId := flowId
        isReversed := true }],
      { rrtCache := rrtCache, timeoutCache := timeoutCache })
  else ([], c)

end L7PerfCache

namespace TimeoutCache

variable [Crate] {t : TimeoutCache} {flowId : Nat} {e : TimeoutCacheEntry} {isReversed : Bool}

section

variable (h : t.flows.peek flowId = some e)

include h

theorem getOrInsertMut_of_peek :
    (t.getOrInsertMut flowId).1 = e ∧ (t.getOrInsertMut flowId).2.flows.peek flowId = some e := by
  have hsets := sets_getOrInsert (room_of_peek h) ({} : TimeoutCacheEntry)
  refine ⟨?_, ?_⟩
  · change (t.flows.getOrInsert flowId {}).1 = e
    rw [getOrInsert_fst, h]
    rfl
  · change (t.flows.getOrInsert flowId {}).2.peek flowId = some e
    rw [hsets.self, h]
    rfl

theorem popTimeoutCount_of_peek (isReversed : Bool) :
    (t.popTimeoutCount flowId false isReversed).1 = e.timeout isReversed ∧
      (t.popTimeoutCount flowId false isReversed).2.flows.peek flowId =
        some (e.clearTimeout isReversed) := by
  obtain ⟨hentry, hpeek⟩ := getOrInsertMut_of_peek h
  refine ⟨?_, ?_⟩
  · change (t.getOrInsertMut flowId).1.timeout isReversed = _
    rw [hentry]
  change ((t.getOrInsertMut flowId).2.write flowId
    ((t.getOrInsertMut flowId).1.clearTimeout isReversed)).flows.peek flowId = _
  rw [hentry]
  exact peek_place_self (room_of_peek hpeek) _

/-- At the end of a flow the call takes what the direction owes, and the whole
entry with it. -/
theorem popTimeoutCount_end (isReversed : Bool) :
    (t.popTimeoutCount flowId true isReversed).1 =
        wrappingAdd 64 (e.inCache isReversed) (e.timeout isReversed) ∧
      (t.popTimeoutCount flowId true isReversed).2.flows.peek flowId = none := by
  obtain ⟨hentry, -⟩ := getOrInsertMut_of_peek h
  refine ⟨?_, peek_remove_self _ _⟩
  change wrappingAdd 64 ((t.getOrInsertMut flowId).1.inCache isReversed)
    ((t.getOrInsertMut flowId).1.timeout isReversed) = _
  rw [hentry]

end

theorem popTimeoutCount_absent (h : t.flows.peek flowId = none) (isReversed : Bool) :
    (t.popTimeoutCount flowId true isReversed).1 = 0 := by
  have hentry : (t.getOrInsertMut flowId).1 = {} := by
    change (t.flows.getOrInsert flowId {}).1 = {}
    rw [getOrInsert_fst, h]
    rfl
  change wrappingAdd 64 ((t.getOrInsertMut flowId).1.inCache isReversed)
    ((t.getOrInsertMut flowId).1.timeout isReversed) = 0
  rw [hentry]
  rfl

end TimeoutCache

namespace L7PerfCache

def emittedTimeouts (stats : List L7Stats) : List (Bool × Nat) :=
  stats.map fun s => (s.isReversed, s.stats.errTimeout)

variable [Crate] {c : L7PerfCache} {flowId : Nat} {e : TimeoutCacheEntry}

theorem emitted_false (h : c.timeoutCache.flows.peek flowId = some e) :
    emittedTimeouts (c.flushL7PerfStats true true false flowId).1 =
        [(false, e.timeout false % 2 ^ 32), (true, e.timeout true % 2 ^ 32)] ∧
      ∃ e', (c.flushL7PerfStats true true false flowId).2.timeoutCache.flows.peek flowId =
        some e' ∧ e'.inCache = e.inCache := by
  obtain ⟨hfirst, hpeek⟩ := popTimeoutCount_of_peek h false
  obtain ⟨hsecond, hpeek'⟩ := popTimeoutCount_of_peek hpeek true
  refine ⟨?_, _, hpeek', rfl⟩
  have htimeout : (e.clearTimeout false).timeout true = e.timeout true := rfl
  rw [htimeout] at hsecond
  rw [← hsecond, ← hfirst]
  rfl

theorem emitted_true (h : c.timeoutCache.flows.peek flowId = some e) :
    emittedTimeouts (c.flushL7PerfStats true true true flowId).1 =
      [(false, (e.inCache false + e.timeout false) % 2 ^ 32), (true, 0)] := by
  obtain ⟨hfirst, hpeek⟩ := popTimeoutCount_end h false
  have hsecond := popTimeoutCount_absent hpeek true
  have hemitted : emittedTimeouts (c.flushL7PerfStats true true true flowId).1 =
      [(false, (c.timeoutCache.popTimeoutCount flowId true false).1 % 2 ^ 32),
        (true, ((c.timeoutCache.popTimeoutCount flowId true false).2.popTimeoutCount flowId true
          true).1 % 2 ^ 32)] := rfl
  have hwrap : wrappingAdd 64 (e.inCache false) (e.timeout false) % 2 ^ 32 =
      (e.inCache false + e.timeout false) % 2 ^ 32 :=
    Nat.mod_mod_of_dvd _ (by decide)
  rw [hemitted, hfirst, hsecond, hwrap, Nat.zero_mod]

/-- **Timeouts of a flush.**  For a flow with an entry in the timeout cache, each
direction is given exactly what it owes, and a flush in the course of the flow
leaves the requests that wait, if and only if the counts fit into `u32` and, at
the end of the flow, the reversed direction owes nothing. -/
theorem flush_timeouts_exact_iff (h : c.timeoutCache.flows.peek flowId = some e)
    (flowEnd : Bool) :
    (emittedTimeouts (c.flushL7PerfStats true true flowEnd flowId).1 =
        [(false, e.due flowEnd false), (true, e.due flowEnd true)] ∧
      (flowEnd = false →
        ∃ e', (c.flushL7PerfStats true true flowEnd flowId).2.timeoutCache.flows.peek flowId =
          some e' ∧ e'.inCache = e.inCache)) ↔
      e.due flowEnd false < 2 ^ 32 ∧
        (if flowEnd then e.due flowEnd true = 0 else e.due flowEnd true < 2 ^ 32) := by
  have hmod : ∀ n : Nat, n % 2 ^ 32 = n ↔ n < 2 ^ 32 := by
    intro n
    constructor
    · intro heq
      rw [← heq]
      exact Nat.mod_lt _ (by decide)
    · exact Nat.mod_eq_of_lt
  cases flowEnd with
  | false =>
    obtain ⟨hemitted, hcache⟩ := emitted_false h
    rw [hemitted]
    simp only [TimeoutCacheEntry.due, List.cons.injEq, Prod.mk.injEq, true_and, and_true,
      Bool.false_eq_true, if_false, hmod]
    exact ⟨fun hx => hx.1, fun hx => ⟨hx, fun _ => hcache⟩⟩
  | true =>
    rw [emitted_true h]
    simp only [TimeoutCacheEntry.due, List.cons.injEq, Prod.mk.injEq, true_and, and_true,
      if_true, hmod, Bool.true_eq_false, false_implies]
    exact and_congr_right fun _ => eq_comm

end L7PerfCache

namespace L7PerfCache

/-- A cache in which one request of flow 7 waits, in the reversed direction or not. -/
def oneWaiting (isReversed : Bool) : L7PerfCache :=
  let c := L7PerfCache.new 1
  let (entry, timeoutCache) := c.timeoutCache.getOrInsertMut 7
  { c with timeoutCache := timeoutCache.write 7 (entry.incCache isReversed) }

theorem flush_timeouts_exact_forward :
    emittedTimeouts ((oneWaiting false).flushL7PerfStats true true true 7).1 =
      [(false, 1), (true, 0)] :=
  ((flush_timeouts_exact_iff (c := oneWaiting false) (e := ({} : TimeoutCacheEntry).incCache false)
    rfl true).mpr ⟨by decide, by decide⟩).1

/-- The request that waits in the reversed direction is due at the end of the
flow, and neither statistic has it. -/
theorem flush_end_loses_reversed :
    ∃ e, (oneWaiting true).timeoutCache.flows.peek 7 = some e ∧ e.due true true = 1 ∧
      emittedTimeouts ((oneWaiting true).flushL7PerfStats true true true 7).1 =
        [(false, 0), (true, 0)] :=
  ⟨_, rfl, by decide, by decide⟩

end L7PerfCache

end ZeroTrace.Perf
