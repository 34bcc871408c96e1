import ZeroTrace.SessionQueue
import ZeroTrace.ChronoValues

/-!
# What a call moves

Seen from outside, a call takes some logs out of the cache, puts some in and
hands some over.  `Moves` says this together with the counters that the call
leaves.  Every way through the queue gets its moves here, once: `Outcome`
collects them for a log that comes in, by the kind of its arrival.  Both
properties of the queue, that no log is lost and that the counters are exact,
read off these moves and never look at the code again.
-/

namespace ZeroTrace.Session.SessionQueue

open RustExec Chrono Chains List Function

variable {I : Type}

def logs (q : SessionQueue I) : List (MetaAppProto I) := values q.entries

def handed (q : SessionQueue I) : List (MetaAppProto I) := q.sent.map Prod.fst

variable (q : SessionQueue I) (log : MetaAppProto I) (status : Option L7ResponseStatus)

@[simp] theorem handed_send : (q.send log status).handed = q.handed ++ [log] := by
  simp [handed, send]

/-- What a failed merge leaves to be sent by itself. -/
def unmerged (merged : MergeOutcome (MetaAppProto I)) : List (MetaAppProto I) :=
  if merged.ok then [] else [merged.other]

theorem sendUnmerged_eq (merged : MergeOutcome (MetaAppProto I)) :
    q.sendUnmerged merged =
      { q with sent := q.sent ++ (unmerged merged).map fun log => (log, none) } := by
  cases hok : merged.ok with
  | true => simp [sendUnmerged, unmerged, hok]
  | false => simp [sendUnmerged, unmerged, hok, send]

/-- The cache loses `taken` and gets `added`; `out` is handed over and the
counters become `counter`. -/
structure Moves (q q' : SessionQueue I) (taken added out : List (MetaAppProto I))
    (counter : SessionAggrCounter) : Prop where
  wellFormed : WellFormed q'.entries
  stays : ∃ rest, q.logs.Perm (taken ++ rest) ∧ q'.logs.Perm (added ++ rest)
  handed : q'.handed = q.handed ++ out
  counter : q'.counter = counter
  received : q'.received = q.received
  ignored : q'.ignored = q.ignored

/-- How a log arrives: with which part of the code it ends up. -/
inductive Arrival (I : Type) where
  | uncounted
  | alone
  | late
  | meets (v : MetaAppProto I)
  | repeatedEnd
  | overLimit
  | first

theorem moves_send (hq : WellFormed q.entries) :
    Moves q (q.send log status) [] [] [log] q.counter :=
  ⟨hq, ⟨q.logs, .refl _, .refl _⟩, handed_send q log status, rfl, rfl, rfl⟩

section Cached

variable {q} {key : Nat} {time : Timestamp} {v : MetaAppProto I}

theorem removeEntry_of_find (hf : find key q.entries = some (time, v)) :
    q.removeEntry key = .ok (v, { q with entries := detach key q.entries }) := by
  simp [removeEntry, remove_of_find hf]

theorem removeEntry_setValue (hq : WellFormed q.entries) (hf : find key q.entries = some (time, v))
    (w : MetaAppProto I) {q' : SessionQueue I} (hq' : q'.entries = setValue key w q.entries) :
    q'.removeEntry key = .ok (w, { q' with entries := detach key q.entries }) := by
  have hfind : find key q'.entries = some (time, w) := by
    rw [hq']
    exact find_setValue hq hf w
  rw [removeEntry_of_find hfind, hq', detach_setValue]

variable (hq : WellFormed q.entries)
  (hf : Chains.find key q.entries = some (time, v)) (item : MetaAppProto I)

include hq hf

theorem moves_detach {q' : SessionQueue I} {out : List (MetaAppProto I)}
    {counter : SessionAggrCounter} (hentries : q'.entries = detach key q.entries)
    (hhanded : q'.handed = q.handed ++ out) (hcounter : q'.counter = counter)
    (hreceived : q'.received = q.received) (hignored : q'.ignored = q.ignored) :
    Moves q q' [v] [] out counter := by
  refine ⟨?_, ⟨values (detach key q.entries), ?_, ?_⟩, hhanded, hcounter,
    hreceived, hignored⟩
  · rw [hentries]
    exact hq.detach
  · exact values_detach hq hf
  · rw [logs, hentries]
    rfl

theorem moves_merged {result : Exec (SessionQueue I)} (merged : MergeOutcome (MetaAppProto I))
    (counter : SessionAggrCounter)
    (hresult : result = .ok { q with
      entries := detach key q.entries
      sent := q.sent ++ (unmerged merged).map (fun log => (log, none)) ++ [(merged.self, none)]
      counter }) :
    ∃ q', result = .ok q' ∧ Moves q q' [v] [] (unmerged merged ++ [merged.self]) counter := by
  refine ⟨_, hresult, moves_detach hq hf rfl ?_ rfl rfl rfl⟩
  simp [handed, comp_def]

variable [L7ProtocolInfoInterface I]

theorem mergeMany_end (hend : isSessionEnd (v.sessionMerge item).self.l7Info = true) :
    ∃ q', q.mergeMany key v item = .ok q' ∧
      Moves q q' [v] [] [(v.sessionMerge item).self]
        (q.counter.subCached.subResource (v.sessionMerge item).self.resourceLength) := by
  set w := (v.sessionMerge item).self with hw
  have hstep : q.mergeMany key v item =
      .ok (send { q with
        entries := detach key q.entries
        counter := q.counter.subCached.subResource w.resourceLength } w none) := by
    simp only [mergeMany, ← hw, if_pos hend]
    rw [removeEntry_setValue hq hf w rfl]
    rfl
  exact ⟨_, hstep, moves_detach hq hf rfl (handed_send _ w none) rfl rfl rfl⟩

theorem mergeMany_open (hend : isSessionEnd (v.sessionMerge item).self.l7Info = false) :
    ∃ q', q.mergeMany key v item = .ok q' ∧
      Moves q q' [v] [(v.sessionMerge item).self] [] q.counter := by
  set w := (v.sessionMerge item).self with hw
  have hstep : q.mergeMany key v item =
      .ok { q with entries := setValue key w q.entries } := by
    simp only [mergeMany, ← hw, hend, Bool.false_eq_true, if_false]
  exact ⟨_, hstep, hq.setValue,
    ⟨_, values_detach hq hf, values_setValue hq hf w⟩,
    (append_nil _).symm, rfl, rfl, rfl⟩

theorem mergeResponse_moves :
    ∃ q', q.mergeResponse key v item = .ok q' ∧
      Moves q q' [v] [] (unmerged (v.sessionMerge item) ++ [(v.sessionMerge item).self])
        { q.counter.subCached.subResource (v.sessionMerge item).self.resourceLength with
          merge := q.counter.merge + 1 } := by
  apply moves_merged hq hf
  simp only [mergeResponse, sendUnmerged_eq]
  rw [removeEntry_setValue hq hf (v.sessionMerge item).self rfl]
  rfl

theorem mergeRequest_moves :
    ∃ q', q.mergeRequest key v item = .ok q' ∧
      Moves q q' [v] [] (unmerged (item.sessionMerge v) ++ [(item.sessionMerge v).self])
        { (q.counter.subResource v.resourceLength).subCached with
          merge := q.counter.merge + 1 } := by
  apply moves_merged hq hf
  have hremove := removeEntry_of_find
    (q := { q with counter := q.counter.subResource v.resourceLength }) hf
  simp only [mergeRequest, hremove, ok_bind, sendUnmerged_eq]
  rfl

omit hf in
theorem keepLater_cached (timeoutTime : Timestamp)
    (hlater : v.baseInfo.startTime > item.baseInfo.startTime) :
    ∃ q', q.keepLater timeoutTime key v item = .ok q' ∧ Moves q q' [] [] [item] q.counter :=
  ⟨_, if_pos hlater, moves_send q item none hq⟩

theorem keepLater_item (timeoutTime : Timestamp)
    (hlater : ¬ v.baseInfo.startTime > item.baseInfo.startTime) :
    ∃ q', q.keepLater timeoutTime key v item = .ok q' ∧
      Moves q q' [v] [item] [v]
        { q.counter.subResource v.resourceLength with
          cachedRequestResource :=
            (q.counter.subResource v.resourceLength).cachedRequestResource +
              item.resourceLength } := by
  have hnone : find key (detach key q.entries) = none :=
    find_eq_none.mpr (notMem_detach key q.entries)
  have hstep : q.keepLater timeoutTime key v item =
      .ok { q with
        entries := push timeoutTime (key, item) (detach key q.entries)
        sent := q.sent ++ [(v, none)]
        counter := { q.counter.subResource v.resourceLength with
          cachedRequestResource :=
            (q.counter.subResource v.resourceLength).cachedRequestResource +
              item.resourceLength } } := by
    have hremove := removeEntry_of_find
      (q := { q with counter := q.counter.subResource v.resourceLength }) hf
    simp only [keepLater, if_neg hlater, hremove, ok_bind, insertEntry, send,
      insert_of_find_none hnone]
  refine ⟨_, hstep, hq.detach.push (notMem_detach key q.entries),
    ⟨_, values_detach hq hf, values_push _ _ _⟩, ?_, rfl, rfl, rfl⟩
  simp [handed]

end Cached

variable [L7ProtocolInfoInterface I]

/-- The arrival of a log, by the tests of the code in their order. -/
def arrival (q : SessionQueue I) (config : LogParserConfig) (item : MetaAppProto I) :
    Arrival I :=
  if config.l7LogIgnoreTapSides item.baseInfo.tapSide then .uncounted
  else if standsAlone item then .alone
  else if timeoutTime config item ≤ q.windowStart then .late
  else
    match Chains.find item.calcKey q.entries with
    | some (_, v) => .meets v
    | none =>
      let (reqEnd, respEnd) := L7ProtocolInfoInterface.isReqRespEnd item.l7Info
      if item.needProtocolMerge ∧ (reqEnd ∨ respEnd) then .repeatedEnd
      else if (Chains.entries q.entries).length ≥ q.maxEntries then .overLimit
      else .first

/-- The item is the response that the cached request waits for. -/
def Answers (item v : MetaAppProto I) : Prop :=
  item.isResponse ∧ v.isRequest ∧ item.baseInfo.startTime > v.baseInfo.startTime

/-- The counters after an insertion of a new session. -/
def addCached (c : SessionAggrCounter) (n : Nat) : SessionAggrCounter :=
  { c with
    cached := c.cached + 1
    cachedRequestResource := c.cachedRequestResource + n }

/-- The counters after a log has left the cache in full order. -/
def dropCached (c : SessionAggrCounter) (log : MetaAppProto I) : SessionAggrCounter :=
  c.subCached.subResource log.resourceLength

/-- What becomes of a counted log, by the kind of its arrival. -/
inductive Outcome (q : SessionQueue I) (item : MetaAppProto I) (q' : SessionQueue I) :
    Arrival I → Prop where
  | alone (h : Moves q q' [] [] [item.fillTimes] q.counter) : Outcome q item q' .alone
  | late
      (h : Moves q q' [] [] [item]
        { q.counter with sendBeforeWindow := q.counter.sendBeforeWindow + 1 }) :
      Outcome q item q' .late
  | ended (v : MetaAppProto I) (hmany : item.needProtocolMerge = true)
      (h : Moves q q' [v] [] [(v.sessionMerge item).self]
        (dropCached q.counter (v.sessionMerge item).self)) :
      Outcome q item q' (.meets v)
  | extended (v : MetaAppProto I) (hmany : item.needProtocolMerge = true)
      (h : Moves q q' [v] [(v.sessionMerge item).self] [] q.counter) :
      Outcome q item q' (.meets v)
  | answered (v : MetaAppProto I) (hone : item.needProtocolMerge = false) (ha : Answers item v)
      (h : Moves q q' [v] [] (unmerged (v.sessionMerge item) ++ [(v.sessionMerge item).self])
        { dropCached q.counter (v.sessionMerge item).self with
          merge := q.counter.merge + 1 }) :
      Outcome q item q' (.meets v)
  | asked (v : MetaAppProto I) (hone : item.needProtocolMerge = false) (ha : ¬ Answers item v)
      (h : Moves q q' [v] [] (unmerged (item.sessionMerge v) ++ [(item.sessionMerge v).self])
        { (q.counter.subResource v.resourceLength).subCached with
          merge := q.counter.merge + 1 }) :
      Outcome q item q' (.meets v)
  | earlier (v : MetaAppProto I) (hone : item.needProtocolMerge = false)
      (ha : ¬ Answers item v) (h : Moves q q' [] [] [item] q.counter) :
      Outcome q item q' (.meets v)
  | replaced (v : MetaAppProto I) (hone : item.needProtocolMerge = false)
      (ha : ¬ Answers item v)
      (h : Moves q q' [v] [item] [v]
        { q.counter.subResource v.resourceLength with
          cachedRequestResource :=
            (q.counter.subResource v.resourceLength).cachedRequestResource +
              item.resourceLength }) :
      Outcome q item q' (.meets v)
  | repeatedEnd (hwf : WellFormed q.entries)
      (h : q' = { q with ignored := q.ignored ++ item.origin }) :
      Outcome q item q' .repeatedEnd
  | evicted (v : MetaAppProto I)
      (h : Moves q q' [v] [] [v]
        { q.counter.subResource v.resourceLength with overLimit := q.counter.overLimit + 1 }) :
      Outcome q item q' .overLimit
  | empty (hnil : q.logs = [])
      (h : Moves q q' [] [] [] { q.counter with overLimit := q.counter.overLimit + 1 }) :
      Outcome q item q' .overLimit
  | first (h : Moves q q' [] [item] [] (addCached q.counter item.resourceLength)) :
      Outcome q item q' .first

variable {q} (hq : WellFormed q.entries)

include hq

theorem meetCached_outcome {key : Nat} {time : Timestamp} {v : MetaAppProto I}
    (hf : find key q.entries = some (time, v)) (timeoutTime : Timestamp) (item : MetaAppProto I) :
    ∃ q', q.meetCached timeoutTime key v item = .ok q' ∧ Outcome q item q' (.meets v) := by
  unfold meetCached
  cases hmany : item.needProtocolMerge with
  | true =>
    rw [if_pos rfl]
    cases hend : isSessionEnd (v.sessionMerge item).self.l7Info with
    | true =>
      obtain ⟨q', hstep, h⟩ := mergeMany_end hq hf item hend
      exact ⟨q', hstep, .ended v hmany h⟩
    | false =>
      obtain ⟨q', hstep, h⟩ := mergeMany_open hq hf item hend
      exact ⟨q', hstep, .extended v hmany h⟩
  | false =>
    rw [if_neg Bool.false_ne_true]
    split
    next ha =>
      obtain ⟨q', hstep, h⟩ := mergeResponse_moves hq hf item
      exact ⟨q', hstep, .answered v hmany ha h⟩
    rename_i ha
    split
    next =>
      obtain ⟨q', hstep, h⟩ := mergeRequest_moves hq hf item
      exact ⟨q', hstep, .asked v hmany ha h⟩
    next =>
      by_cases hlater : v.baseInfo.startTime > item.baseInfo.startTime
      · obtain ⟨q', hstep, h⟩ := keepLater_cached hq item timeoutTime hlater
        exact ⟨q', hstep, .earlier v hmany ha h⟩
      · obtain ⟨q', hstep, h⟩ := keepLater_item hq hf item timeoutTime hlater
        exact ⟨q', hstep, .replaced v hmany ha h⟩

theorem evict_outcome (item : MetaAppProto I) : Outcome q item q.evict .overLimit := by
  rcases removeOldest_cases hq with ⟨hnil, hold⟩ | ⟨k, t, v, hf, hold⟩
  · have hevict : q.evict =
        { q with counter := { q.counter with overLimit := q.counter.overLimit + 1 } } := by
      simp only [evict, hold]
    rw [hevict]
    exact .empty hnil ⟨hq, ⟨q.logs, .refl _, .refl _⟩, (append_nil _).symm, rfl, rfl, rfl⟩
  · have hevict : q.evict =
        send { q with
          entries := detach k q.entries
          counter := { q.counter.subResource v.resourceLength with
            overLimit := q.counter.overLimit + 1 } } v none := by
      simp only [evict, hold]
      rfl
    rw [hevict]
    exact .evicted v (moves_detach hq hf rfl (handed_send _ v none) rfl rfl rfl)

theorem insertEntry_outcome {key : Nat} (hf : find key q.entries = none)
    (timeoutTime : Timestamp) (item : MetaAppProto I) :
    Outcome q item
      (insertEntry { q with counter := addCached q.counter item.resourceLength }
        timeoutTime key item) .first := by
  apply Outcome.first
  rw [insertEntry, insert_of_find_none hf]
  exact ⟨hq.push (find_eq_none.mp hf), ⟨q.logs, .refl _, values_push _ _ _⟩,
    (append_nil _).symm, rfl, rfl, rfl⟩

/-- **What becomes of a log.**  A counted log never panics the queue, and its
outcome is the one of its arrival. -/
theorem aggregateReceived_outcome {config : LogParserConfig} (item : MetaAppProto I)
    (hcount : config.l7LogIgnoreTapSides item.baseInfo.tapSide = false) :
    ∃ q', q.aggregateReceived config item = .ok q' ∧ Outcome q item q' (q.arrival config item) := by
  unfold aggregateReceived arrival
  rw [hcount, if_neg Bool.false_ne_true]
  by_cases halone : standsAlone item = true
  · rw [if_pos halone, if_pos halone]
    exact ⟨_, rfl, .alone (moves_send q item.fillTimes none hq)⟩
  rw [if_neg halone, if_neg halone]
  by_cases hlate : timeoutTime config item ≤ q.windowStart
  · rw [if_pos hlate, if_pos hlate]
    exact ⟨_, rfl, .late ⟨hq, ⟨q.logs, .refl _, .refl _⟩, handed_send _ item none, rfl, rfl, rfl⟩⟩
  rw [if_neg hlate, if_neg hlate]
  cases hf : find item.calcKey q.entries with
  | some found => exact meetCached_outcome hq hf _ item
  | none =>
    refine ⟨_, rfl, ?_⟩
    unfold meetNone
    dsimp only
    split
    · exact .repeatedEnd hq rfl
    · split
      · exact evict_outcome hq item
      · exact insertEntry_outcome hq hf _ item

theorem closeSocket_moves (key : Nat) :
    (∃ p, Moves q (q.closeSocket key) [p] [] [p]
      { dropCached q.counter p with receive := q.counter.receive + 1 }) ∨
    Moves q (q.closeSocket key) [] [] [] { q.counter with receive := q.counter.receive + 1 } := by
  cases hf : find key q.entries with
  | some found =>
    obtain ⟨time, p⟩ := found
    refine .inl ⟨p, ?_⟩
    simp only [closeSocket, remove_of_find hf]
    exact moves_detach hq hf rfl (handed_send _ p none) rfl rfl rfl
  | none =>
    refine .inr ?_
    simp only [closeSocket, remove, hf]
    exact ⟨hq, ⟨q.logs, .refl _, .refl _⟩, (append_nil _).symm, rfl, rfl, rfl⟩

omit hq in
omit [L7ProtocolInfoInterface I] in
theorem flush_moves (q : SessionQueue I) :
    q.flush.entries = [] ∧
      Moves q q.flush q.logs [] q.logs
        { q.counter with cached := 0, cachedRequestResource := 0 } := by
  have hflush : q.flush =
      { q with
        entries := []
        sent := q.sent ++ q.logs.map fun item => (item, none)
        counter := { q.counter with cached := 0, cachedRequestResource := 0 } } := by
    simp only [flush, drain_all, logs]
  rw [hflush]
  refine ⟨rfl, wellFormed_nil, ⟨[], ?_, .refl _⟩, ?_, rfl, rfl, rfl⟩
  · rw [append_nil]
  · simp [handed, comp_def]

omit hq in
theorem foldl_sendTimeout (items : List (MetaAppProto I)) (counter : SessionAggrCounter)
    (sent : List (MetaAppProto I × Option L7ResponseStatus)) :
    items.foldl (fun s v => (sendTimeout s v).2.2) (counter, sent) =
      (items.foldl dropCached counter,
        sent ++ items.map fun item => (item, some L7ResponseStatus.timeout)) := by
  induction items generalizing counter sent with
  | nil => simp
  | cons item items ih =>
    rw [foldl_cons, foldl_cons, map_cons]
    simp only [sendTimeout] at ih ⊢
    rw [ih, append_assoc]
    rfl

theorem flushTill_moves (time : Timestamp) :
    Moves q (q.flushTill time) (expired time q.entries) []
      (expired time q.entries)
      ((expired time q.entries).foldl dropCached q.counter) := by
  have hflush : q.flushTill time =
      { q with
        entries := pending time q.entries
        counter := (expired time q.entries).foldl dropCached q.counter
        sent := q.sent ++ (expired time q.entries).map
          fun item => (item, some L7ResponseStatus.timeout)
        windowStart := time } := by
    have hdrop : ∀ s (v : MetaAppProto I), (sendTimeout s v).1 = none := fun _ _ => rfl
    simp only [flushTill, forwardTime_of_drop hdrop, foldl_sendTimeout]
  rw [hflush]
  refine ⟨hq.pending time, ⟨values (pending time q.entries), ?_, .refl _⟩, ?_,
    rfl, rfl, rfl⟩
  · rw [logs, values_expired_pending time]
  · simp [handed, comp_def]

end ZeroTrace.Session.SessionQueue
