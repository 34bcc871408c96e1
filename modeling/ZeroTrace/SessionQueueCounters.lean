import ZeroTrace.SessionQueueMoves

/-!
# The occupancy counters

`cached` is meant to be the number of waiting logs and
`cached_request_resource` the bytes that their request resources take.  Both
are kept up by hand.  They go wrong in two ways: an eviction takes a log out
without counting `cached` down, and a merge may change the length of the
cached log between the addition at its insertion and the subtraction at its
removal.  The counters are exact after every call of a run exactly when the
run makes no call of these kinds.
-/

namespace ZeroTrace.Session

open Chrono MetaAppProto

variable {I : Type} [L7ProtocolInfoInterface I]

def resources (logs : List (MetaAppProto I)) : Nat :=
  (logs.map MetaAppProto.resourceLength).sum

@[simp] theorem resources_nil : resources ([] : List (MetaAppProto I)) = 0 := rfl

@[simp] theorem resources_cons (log : MetaAppProto I) (logs : List (MetaAppProto I)) :
    resources (log :: logs) = log.resourceLength + resources logs := by
  simp [resources]

@[simp] theorem resources_append (xs ys : List (MetaAppProto I)) :
    resources (xs ++ ys) = resources xs + resources ys := by
  simp [resources]

theorem resources_perm {xs ys : List (MetaAppProto I)} (h : xs.Perm ys) :
    resources xs = resources ys :=
  (h.map _).sum_nat

variable {c : SessionAggrCounter} {n r : Nat}

namespace SessionAggrCounter

/-- The counters say `n` logs of `r` bytes, and no subtraction has wrapped. -/
structure Agrees (c : SessionAggrCounter) (n r : Nat) : Prop where
  cached : c.cached = n
  resource : c.cachedRequestResource = r
  wrapped : c.wrapped = false

theorem Agrees.subCached (h : c.Agrees (n + 1) r) : c.subCached.Agrees n r := by
  obtain ⟨hn, hr, hw⟩ := h
  refine ⟨?_, hr, ?_⟩
  · simp [SessionAggrCounter.subCached, fetchSub, hn]
  · simp [SessionAggrCounter.subCached, hn, hw]

theorem Agrees.subResource_iff {n r len : Nat} (h : c.Agrees n (r + len)) (m : Nat) :
    (c.subResource m).Agrees n r ↔ m = len := by
  obtain ⟨hn, hr, hw⟩ := h
  constructor
  · intro hafter
    have hres := hafter.resource
    have hnowrap := hafter.wrapped
    simp only [subResource, hr, hw, Bool.false_or, decide_eq_false_iff_not,
      not_lt] at hres hnowrap
    rw [fetchSub, if_pos hnowrap] at hres
    omega
  · intro hm
    subst hm
    refine ⟨hn, ?_, ?_⟩
    · simp [subResource, fetchSub, hr]
    · simp [subResource, hr, hw]

theorem Agrees.subResource {n r len : Nat} (h : c.Agrees n (r + len)) :
    (c.subResource len).Agrees n r :=
  (h.subResource_iff len).mpr rfl

theorem Agrees.congr {c d : SessionAggrCounter} (h : c.Agrees n r)
    (hcached : d.cached = c.cached) (hresource : d.cachedRequestResource = c.cachedRequestResource)
    (hwrapped : d.wrapped = c.wrapped) : d.Agrees n r :=
  ⟨hcached.trans h.cached, hresource.trans h.resource, hwrapped.trans h.wrapped⟩

end SessionAggrCounter

namespace SessionQueue

open SessionAggrCounter

def Exact (q : SessionQueue I) : Prop :=
  q.counter.Agrees q.logs.length (resources q.logs)

/-- The invariant: exact counters over a well-formed map. -/
structure Counted (q : SessionQueue I) : Prop where
  wellFormed : Chains.WellFormed q.entries
  exact : Exact q

/-- The length of the log that leaves the cache, or stays in it, is the one it
had before the merge. -/
def KeepsLength (item v : MetaAppProto I) : Prop :=
  (v.sessionMerge item).self.resourceLength = v.resourceLength

/-- The arrival leaves exact counters: nothing is evicted, and a merge into a
cached log keeps its length. -/
def CountedBy (q : SessionQueue I) (item : MetaAppProto I) : Arrival I → Prop
  | .overLimit => q.logs = []
  | .meets v => item.needProtocolMerge ∨ Answers item v → KeepsLength item v
  | _ => True

/-- The call leaves exact counters. -/
def KeepsCounters (q : SessionQueue I) : Call I → Prop
  | .aggregate config (.metaAppProto item) => CountedBy q item (q.arrival config item)
  | _ => True

variable {q q' : SessionQueue I}

/-- Before moves the counters agree with what is taken and what stays; after
them they are exact if they agree with what is added and what stays. -/
theorem Moves.exact_iff {taken added out : List (MetaAppProto I)} {counter : SessionAggrCounter}
    (hm : Moves q q' taken added out counter) (hq : Exact q) :
    ∃ n r, q.counter.Agrees (n + taken.length) (r + resources taken) ∧
      (Exact q' ↔ counter.Agrees (n + added.length) (r + resources added)) := by
  obtain ⟨rest, hbefore, hafter⟩ := hm.stays
  refine ⟨rest.length, resources rest, ?_, ?_⟩
  · rw [Exact, hbefore.length_eq, resources_perm hbefore] at hq
    simpa [Nat.add_comm] using hq
  · rw [Exact, hm.counter, hafter.length_eq, resources_perm hafter]
    simp [Nat.add_comm]

theorem countedBy_merge {item v : MetaAppProto I}
    (h : item.needProtocolMerge = true ∨ Answers item v) :
    CountedBy q item (.meets v) ↔ KeepsLength item v := by
  simp [CountedBy, h]

theorem countedBy_noMerge {item v : MetaAppProto I} (hone : item.needProtocolMerge = false)
    (ha : ¬ Answers item v) : CountedBy q item (.meets v) := by
  simp [CountedBy, hone, ha]

variable {item : MetaAppProto I}

/-- **One log.**  After its outcome the counters are exact if and only if the
arrival is one that keeps them. -/
theorem Outcome.exact_iff {a : Arrival I} (ho : Outcome q item q' a) (hq : Exact q) :
    Exact q' ↔ CountedBy q item a := by
  cases ho
  case repeatedEnd hwf hq' =>
    subst hq'
    exact iff_of_true hq trivial
  all_goals
    rename_i hm
    obtain ⟨n, r, hbefore, hexact⟩ := hm.exact_iff hq
  case alone =>
    exact iff_of_true (hexact.mpr hbefore) trivial
  case late =>
    exact iff_of_true (hexact.mpr (hbefore.congr rfl rfl rfl)) trivial
  case ended v hmany =>
    rw [countedBy_merge (.inl hmany), hexact]
    exact hbefore.subCached.subResource_iff _
  case extended v hmany =>
    rw [countedBy_merge (.inl hmany), hexact]
    have hres := hbefore.resource
    constructor
    · intro hafter
      have := hafter.resource
      simp only [resources_cons, resources_nil] at this hres
      unfold KeepsLength
      omega
    · intro hlen
      refine ⟨hbefore.cached, ?_, hbefore.wrapped⟩
      simp only [resources_cons, resources_nil] at hres ⊢
      unfold KeepsLength at hlen
      omega
  case answered v hone ha =>
    have hsub := hbefore.subCached.subResource_iff (v.sessionMerge item).self.resourceLength
    rw [countedBy_merge (.inr ha), hexact]
    constructor
    · intro h
      exact hsub.mp (h.congr rfl rfl rfl)
    · intro h
      exact (hsub.mpr h).congr rfl rfl rfl
  case asked v hone ha =>
    have hafter := hbefore.subResource.subCached
    exact iff_of_true (hexact.mpr (hafter.congr rfl rfl rfl)) (countedBy_noMerge hone ha)
  case earlier v hone ha =>
    exact iff_of_true (hexact.mpr hbefore) (countedBy_noMerge hone ha)
  case replaced v hone ha =>
    have hleft := hbefore.subResource
    refine iff_of_true (hexact.mpr ⟨hleft.cached, ?_, hleft.wrapped⟩) (countedBy_noMerge hone ha)
    have hresource : (q.counter.subResource v.resourceLength).cachedRequestResource = r :=
      hleft.resource
    simp only [hresource, resources_cons, resources_nil]
    rfl
  case evicted v =>
    -- `cached` still counts the log that has left
    have hstale : q.counter.cached = n + 1 := hbefore.cached
    apply iff_of_false
    · rw [hexact]
      intro hafter
      have hcached : q.counter.cached = n := hafter.cached
      omega
    · intro hnil
      have hzero : q.counter.cached = 0 := by
        rw [hq.cached, hnil]
        rfl
      omega
  case empty hnil =>
    exact iff_of_true (hexact.mpr (hbefore.congr rfl rfl rfl)) hnil
  case first =>
    refine iff_of_true (hexact.mpr ⟨?_, ?_, hbefore.wrapped⟩) trivial
    · have hcached : q.counter.cached = n := hbefore.cached
      simp [addCached, hcached]
    · have hresource : q.counter.cachedRequestResource = r := hbefore.resource
      simp [addCached, hresource]

theorem Outcome.wellFormed {a : Arrival I} (ho : Outcome q item q' a) :
    Chains.WellFormed q'.entries := by
  cases ho with
  | repeatedEnd hwf hq' =>
    subst hq'
    exact hwf
  | alone hm | late hm | ended v hmany hm | extended v hmany hm | answered v hone ha hm
  | asked v hone ha hm | earlier v hone ha hm | replaced v hone ha hm | evicted v hm
  | empty hnil hm | first hm => exact hm.wellFormed

theorem Agrees.foldl_dropCached (items : List (MetaAppProto I))
    (h : c.Agrees (n + items.length) (r + resources items)) :
    (items.foldl dropCached c).Agrees n r := by
  induction items generalizing c with
  | nil => exact h
  | cons item items ih =>
    apply ih
    have hsplit : c.Agrees (n + items.length + 1)
        (r + resources items + item.resourceLength) := by
      have hsum : r + resources (item :: items) =
          r + resources items + item.resourceLength := by
        rw [resources_cons]
        omega
      rwa [hsum] at h
    exact hsplit.subCached.subResource

theorem countedBy_stamp {a : Arrival I} :
    CountedBy q.countReceived (q.stamp item) a ↔ CountedBy q item a := by
  cases a with
  | meets v =>
    have hlen : KeepsLength (q.stamp item) v ↔ KeepsLength item v := by
      unfold KeepsLength resourceLength
      rw [sessionMerge_self_l7Info, sessionMerge_self_l7Info]
      rfl
    rw [CountedBy, CountedBy, hlen]
    rfl
  | _ => rfl

/-- **One call.**  From exact counters no call panics, and it leaves exact
counters if and only if it is one that keeps them. -/
theorem step_exact_iff (h : Counted q) (call : Call I) :
    ∃ q', q.step call = .ok q' ∧ Chains.WellFormed q'.entries ∧
      (Exact q' ↔ KeepsCounters q call) := by
  cases call with
  | aggregate config item =>
    cases item with
    | socketClosed key =>
      refine ⟨q.closeSocket key, rfl, ?_⟩
      rcases closeSocket_moves h.wellFormed key with ⟨p, hm⟩ | hm
      · obtain ⟨n, r, hbefore, hexact⟩ := hm.exact_iff h.exact
        have hafter := hbefore.subCached.subResource
        exact ⟨hm.wellFormed, iff_of_true (hexact.mpr (hafter.congr rfl rfl rfl)) trivial⟩
      · obtain ⟨n, r, hbefore, hexact⟩ := hm.exact_iff h.exact
        exact ⟨hm.wellFormed, iff_of_true (hexact.mpr (hbefore.congr rfl rfl rfl)) trivial⟩
    | metaAppProto item =>
      cases htap : config.l7LogIgnoreTapSides item.baseInfo.tapSide with
      | true =>
        refine ⟨q, by simp [step, aggregateSessionAndSend, htap], h.wellFormed, ?_⟩
        apply iff_of_true h.exact
        simp [KeepsCounters, CountedBy, arrival, htap]
      | false =>
        obtain ⟨q', hstep, ho⟩ :=
          aggregateReceived_outcome (q := q.countReceived) h.wellFormed (q.stamp item) htap
        have hcounted : Exact q.countReceived := h.exact.congr rfl rfl rfl
        refine ⟨q', ?_, ho.wellFormed, (ho.exact_iff hcounted).trans countedBy_stamp⟩
        simp [step, aggregateSessionAndSend, htap, hstep]
  | flushTill time =>
    have hm := flushTill_moves h.wellFormed time
    obtain ⟨n, r, hbefore, hexact⟩ := hm.exact_iff h.exact
    exact ⟨_, rfl, hm.wellFormed,
      iff_of_true (hexact.mpr (Agrees.foldl_dropCached _ hbefore)) trivial⟩
  | flush =>
    obtain ⟨hempty, hm⟩ := flush_moves q
    refine ⟨_, rfl, hm.wellFormed, iff_of_true ?_ trivial⟩
    have hnil : q.flush.logs = [] := by
      rw [logs, hempty]
      rfl
    rw [Exact, hm.counter, hnil]
    exact ⟨rfl, rfl, h.exact.wrapped⟩
  | resize maxEntries => exact ⟨_, rfl, h.wellFormed, iff_of_true h.exact trivial⟩

theorem counted_new (maxEntries : Nat) : Counted (new maxEntries : SessionQueue I) :=
  ⟨Chains.wellFormed_nil, rfl, rfl, rfl⟩

/-- **Occupancy.**  After every call of a run, `cached` is the number of waiting
logs and `cached_request_resource` their bytes, and no subtraction has wrapped,
if and only if no call of the run evicts a log from the full map and no merge
into a cached log changes its length. -/
theorem session_queue_counters_iff (maxEntries : Nat) (calls : List (Call I)) :
    Runs.StatesHold step Exact (new maxEntries) calls ↔
      Runs.StepsObey step KeepsCounters (new maxEntries) calls := by
  apply Runs.statesHold_iff (J := Counted)
  · intro q hq
    exact hq.exact
  · intro q call hq hkeeps
    obtain ⟨q', hstep, hwf, hexact⟩ := step_exact_iff hq call
    exact ⟨q', hstep, hwf, hexact.mpr hkeeps⟩
  · intro q call hq hno q' hok
    obtain ⟨q₁, hstep, -, hexact⟩ := step_exact_iff hq call
    rw [hstep] at hok
    cases hok
    exact fun h => hno (hexact.mp h)
  · exact counted_new maxEntries

/-- A DNS request and its response with one address.  The merge adds the 13
bytes of the answer to the cached log, so 24 bytes are subtracted where 11 had
been added, and the counter of an empty queue wraps. -/
theorem session_queue_resource_wraps :
    ∃ q, Runs.run step (new 65536)
        [.aggregate .default (.metaAppProto (dnsLog 1 0 .request [])),
          .aggregate .default
            (.metaAppProto (dnsLog 1 1000 .response [(1, "93.184.216.34", 60)]))] = .ok q ∧
      q.logs.length = 0 ∧ q.counter.cached = 0 ∧
      q.counter.cachedRequestResource = 2 ^ 64 - 13 ∧ q.counter.wrapped = true ∧
      ¬ Exact q := by
  refine ⟨_, rfl, by decide, by decide, by decide, by decide, ?_⟩
  intro hexact
  exact absurd hexact.wrapped (by decide)

end SessionQueue

end ZeroTrace.Session
