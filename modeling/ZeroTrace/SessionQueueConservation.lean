import ZeroTrace.SessionQueueMoves

/-!
# No log is lost and none is sent twice

Every counted log has a stamp, and merges pass stamps on, so where a log went
is a question of how often its stamp occurs.  The ledger of the queue says
that each received stamp is found among the logs handed over, those waiting,
those of repeated ends, or those lost.  A call that loses a log is one of two
kinds: a log that finds the map full is dropped, and a log that may be merged
many times is dropped when its merge fails.  A run that ends in a flush hands
over every log once exactly when it makes no such call.
-/

namespace ZeroTrace.Session

open RustExec Chrono List

variable {I : Type} (i : Nat) {v item : MetaAppProto I}

namespace MetaAppProto

/-- How often a stamp occurs in some logs. -/
def times (i : Nat) (logs : List (MetaAppProto I)) : Nat :=
  (logs.flatMap MetaAppProto.origin).count i

@[simp] theorem times_nil : times i ([] : List (MetaAppProto I)) = 0 := rfl

@[simp] theorem times_cons (log : MetaAppProto I) (logs : List (MetaAppProto I)) :
    times i (log :: logs) = log.origin.count i + times i logs := by
  simp [times]

@[simp] theorem times_append (xs ys : List (MetaAppProto I)) :
    times i (xs ++ ys) = times i xs + times i ys := by
  simp [times]

theorem times_perm {xs ys : List (MetaAppProto I)} (h : xs.Perm ys) : times i xs = times i ys :=
  (h.flatMap_right _).count_eq i

variable [L7ProtocolInfoInterface I]

theorem times_sessionMerge (v item : MetaAppProto I) :
    (v.sessionMerge item).self.origin.count i +
        times i (SessionQueue.unmerged (v.sessionMerge item)) =
      v.origin.count i + item.origin.count i := by
  unfold sessionMerge SessionQueue.unmerged
  dsimp only
  split <;> simp

end MetaAppProto

namespace SessionQueue

open MetaAppProto

/-- Where the received stamps are.  `owed` is what the log in hand stands for
and `lost` what no one has any more. -/
structure Ledger (q : SessionQueue I) (owed lost : List Nat) : Prop where
  wellFormed : Chains.WellFormed q.entries
  balance : ∀ i, q.received.count i =
    times i q.handed + times i q.logs + q.ignored.count i + owed.count i + lost.count i
  stamped : ∀ i ∈ q.received, i < q.counter.receive
  nodup : q.received.Nodup

theorem ledger_new (maxEntries : Nat) : Ledger (new maxEntries : SessionQueue I) [] [] :=
  ⟨Chains.wellFormed_nil, fun _ => rfl, by simp [new], by simp [new]⟩

variable {q : SessionQueue I} {lost : List Nat}

theorem Ledger.countReceived (h : Ledger q [] lost) (item : MetaAppProto I) :
    Ledger q.countReceived (q.stamp item).origin lost := by
  refine ⟨h.wellFormed, ?_, ?_, ?_⟩
  · intro i
    have hb := h.balance i
    simp only [SessionQueue.countReceived, stamp, count_append, count_nil] at hb ⊢
    simp only [handed, logs] at hb ⊢
    omega
  · intro i hi
    simp only [SessionQueue.countReceived, mem_append, mem_singleton] at hi ⊢
    rcases hi with hi | hi
    · have := h.stamped i hi
      omega
    · omega
  · apply nodup_append.mpr
    refine ⟨h.nodup, nodup_singleton _, ?_⟩
    intro i hi j hj heq
    have := h.stamped i hi
    rw [mem_singleton] at hj
    omega

theorem Ledger.move {q q' : SessionQueue I} {owed lost more : List Nat}
    {taken added out : List (MetaAppProto I)} {counter : SessionAggrCounter}
    (h : Ledger q owed lost) (hm : Moves q q' taken added out counter)
    (hreceive : q.counter.receive ≤ counter.receive)
    (hstamps : ∀ i, times i taken + owed.count i = times i added + times i out + more.count i) :
    Ledger q' [] (lost ++ more) := by
  obtain ⟨rest, hbefore, hafter⟩ := hm.stays
  refine ⟨hm.wellFormed, ?_, ?_, ?_⟩
  · intro i
    have hb := h.balance i
    have hs := hstamps i
    have htaken := times_perm i hbefore
    have hadded := times_perm i hafter
    rw [times_append] at htaken hadded
    rw [hm.received, hm.ignored, hm.handed, times_append, count_append, count_nil]
    omega
  · intro i hi
    rw [hm.counter]
    rw [hm.received] at hi
    exact (h.stamped i hi).trans_le hreceive
  · rw [hm.received]
    exact h.nodup

variable [L7ProtocolInfoInterface I]

/-- The stamps that an arrival loses. -/
def lostBy (item : MetaAppProto I) : Arrival I → List Nat
  | .overLimit => item.origin
  | .meets v =>
    if item.needProtocolMerge ∧ ¬ (v.sessionMerge item).ok then item.origin else []
  | _ => []

theorem times_merged (hmany : item.needProtocolMerge = true) (i : Nat) :
    v.origin.count i + item.origin.count i =
      (v.sessionMerge item).self.origin.count i + (lostBy item (.meets v)).count i := by
  have hmerge := times_sessionMerge i v item
  cases hok : (v.sessionMerge item).ok with
  | true =>
    simp only [lostBy, hok, unmerged, if_true, times_nil, not_true, and_false, if_false,
      count_nil] at hmerge ⊢
    omega
  | false =>
    have hother : (v.sessionMerge item).other.origin = item.origin := by
      unfold sessionMerge at hok ⊢
      dsimp only at hok ⊢
      split at hok
      · cases hok
      · next hno => rw [if_neg hno]
    simp only [lostBy, hok, hmany, unmerged, Bool.false_eq_true, if_false, times_cons, times_nil,
      not_false_eq_true, and_self, if_true, hother] at hmerge ⊢
    omega

/-- A log that is not one of many is never lost when it meets another. -/
theorem lostBy_meets (hone : item.needProtocolMerge = false) : lostBy item (.meets v) = [] := by
  simp [lostBy, hone]

/-- **One log.**  Whatever the arrival, the ledger is kept, with the log among
the lost ones exactly if the arrival loses it. -/
theorem Outcome.ledger {q q' : SessionQueue I} {item : MetaAppProto I} {a : Arrival I}
    (ho : Outcome q item q' a) (h : Ledger q item.origin lost) :
    Ledger q' [] (lost ++ lostBy item a) := by
  cases ho with
  | alone hm =>
    refine h.move hm (le_refl _) fun i => ?_
    simp [lostBy, fillTimes]
  | late hm | evicted v hm | empty hnil hm | first hm =>
    refine h.move hm (le_refl _) fun i => ?_
    simp [lostBy]
  | ended v hmany hm | extended v hmany hm =>
    refine h.move hm (le_refl _) fun i => ?_
    have := times_merged (v := v) hmany i
    simp only [times_cons, times_nil]
    omega
  | answered v hone ha hm =>
    refine h.move hm (le_refl _) fun i => ?_
    have := times_sessionMerge i v item
    simp only [lostBy_meets hone, times_cons, times_append, times_nil, count_nil]
    omega
  | asked v hone ha hm =>
    refine h.move hm (le_refl _) fun i => ?_
    have := times_sessionMerge i item v
    simp only [lostBy_meets hone, times_cons, times_append, times_nil, count_nil]
    omega
  | earlier v hone ha hm =>
    refine h.move hm (le_refl _) fun i => ?_
    simp [lostBy_meets hone]
  | replaced v hone ha hm =>
    refine h.move hm (le_refl _) fun i => ?_
    simp only [lostBy_meets hone, times_cons, times_nil, count_nil]
    omega
  | repeatedEnd hwf hq' =>
    subst hq'
    refine ⟨hwf, ?_, h.stamped, h.nodup⟩
    intro i
    have hb := h.balance i
    simp only [lostBy, append_nil, count_append, count_nil, handed, logs] at hb ⊢
    omega

/-- The arrival loses no log: the log is not turned away by a full map, and
one that may be merged many times is merged when it meets another. -/
def KeptBy (item : MetaAppProto I) : Arrival I → Prop
  | .overLimit => False
  | .meets v => item.needProtocolMerge → (v.sessionMerge item).ok
  | _ => True

def KeepsLog (q : SessionQueue I) : Call I → Prop
  | .aggregate config (.metaAppProto item) => KeptBy item (q.arrival config item)
  | _ => True

theorem arrival_stamp (q : SessionQueue I) (config : LogParserConfig) (item : MetaAppProto I) :
    q.countReceived.arrival config (q.stamp item) = q.arrival config item := rfl

theorem lostBy_stamp_eq_nil {item : MetaAppProto I} {a : Arrival I} :
    lostBy (q.stamp item) a = [] ↔ KeptBy item a := by
  cases a with
  | meets v =>
    have hok : (v.sessionMerge (q.stamp item)).ok = (v.sessionMerge item).ok := by
      rw [sessionMerge_ok, sessionMerge_ok]
      rfl
    have hmany : (q.stamp item).needProtocolMerge = item.needProtocolMerge := rfl
    have horigin : (q.stamp item).origin ≠ [] := cons_ne_nil _ _
    simp only [lostBy, KeptBy, hok, hmany, ite_eq_right_iff, horigin, imp_false, not_and, not_not]
  | overLimit => simp [lostBy, KeptBy, stamp]
  | _ => simp [lostBy, KeptBy]

theorem receive_foldl_dropCached (items : List (MetaAppProto I)) (c : SessionAggrCounter) :
    (items.foldl dropCached c).receive = c.receive := by
  induction items generalizing c with
  | nil => rfl
  | cons item items ih => exact ih (dropCached c item)

/-- **One call.**  No call panics, every call keeps the ledger, and a call loses
something exactly if it is not one of those that keep their log. -/
theorem step_ledger (h : Ledger q [] lost) (call : Call I) :
    ∃ q' more, q.step call = .ok q' ∧ Ledger q' [] (lost ++ more) ∧
      (more = [] ↔ KeepsLog q call) := by
  have hnone : (([] : List Nat) = [] ↔ True) := by simp
  cases call with
  | aggregate config item =>
    cases item with
    | socketClosed key =>
      refine ⟨q.closeSocket key, [], rfl, ?_, hnone⟩
      rcases closeSocket_moves h.wellFormed key with ⟨p, hm⟩ | hm
      all_goals
        apply h.move hm (Nat.le_succ _)
        intro i
        simp
    | metaAppProto item =>
      cases htap : config.l7LogIgnoreTapSides item.baseInfo.tapSide with
      | true =>
        refine ⟨q, [], by simp [step, aggregateSessionAndSend, htap], ?_, ?_⟩
        · rwa [append_nil]
        · simp [KeepsLog, KeptBy, arrival, htap]
      | false =>
        obtain ⟨q', hstep, ho⟩ :=
          aggregateReceived_outcome (q := q.countReceived) h.wellFormed (q.stamp item) htap
        refine ⟨q', _, ?_, ho.ledger (h.countReceived item), ?_⟩
        · simp [step, aggregateSessionAndSend, htap, hstep]
        · rw [arrival_stamp]
          exact lostBy_stamp_eq_nil
  | flushTill time =>
    refine ⟨q.flushTill time, [], rfl, ?_, hnone⟩
    apply h.move (flushTill_moves h.wellFormed time)
    · exact (receive_foldl_dropCached _ _).ge
    · intro i
      simp
  | flush =>
    refine ⟨q.flush, [], rfl, ?_, hnone⟩
    apply h.move (flush_moves q).2 (le_refl _)
    intro i
    simp
  | resize maxEntries =>
    refine ⟨_, [], rfl, ?_, hnone⟩
    rw [append_nil]
    exact ⟨h.wellFormed, h.balance, h.stamped, h.nodup⟩

theorem run_ledger (calls : List (Call I)) (h : Ledger q [] lost) :
    ∃ q' more, Runs.run step q calls = .ok q' ∧ Ledger q' [] (lost ++ more) ∧
      (more = [] ↔ Runs.StepsObey step KeepsLog q calls) := by
  induction calls generalizing q lost with
  | nil => exact ⟨q, [], rfl, by rwa [append_nil], by simp [Runs.StepsObey]⟩
  | cons call calls ih =>
    obtain ⟨q₁, first, hstep, hledger, hfirst⟩ := step_ledger h call
    obtain ⟨q₂, later, hrun, hledger₂, hlater⟩ := ih hledger
    refine ⟨q₂, first ++ later, ?_, ?_, ?_⟩
    · rw [Runs.run, hstep, ok_bind, hrun]
    · rwa [← append_assoc]
    · rw [append_eq_nil_iff, hfirst, hlater, Runs.stepsObey_cons hstep]

/-- Each counted log was handed over exactly once, by itself or as part of the
log it was merged into, unless it was a repeated end. -/
def HandedOnce (q : SessionQueue I) : Prop :=
  ∀ i ∈ q.received, i ∉ q.ignored → times i q.handed = 1

omit [L7ProtocolInfoInterface I] in
theorem Ledger.handedOnce_iff (h : Ledger q [] lost) (hempty : q.logs = []) :
    HandedOnce q ↔ lost = [] := by
  have hbalance : ∀ i, q.received.count i =
      times i q.handed + q.ignored.count i + lost.count i := by
    intro i
    have hb := h.balance i
    rw [hempty, times_nil, count_nil] at hb
    omega
  have hle : ∀ i, q.received.count i ≤ 1 := nodup_iff_count_le_one.mp h.nodup
  constructor
  · intro honce
    rw [eq_nil_iff_forall_not_mem]
    intro i hi
    have hlost : 0 < lost.count i := count_pos_iff.mpr hi
    have hb := hbalance i
    have := hle i
    have hreceived : i ∈ q.received := count_pos_iff.mp (by omega)
    have hignored : i ∉ q.ignored := count_eq_zero.mp (by omega)
    have := honce i hreceived hignored
    omega
  · intro hlost i hi hignored
    have hb := hbalance i
    have := hle i
    have hpos := count_pos_iff.mpr hi
    rw [hlost, count_nil, count_eq_zero.mpr hignored] at hb
    omega

/-- **Conservation.**  Every run that ends in a flush goes through, and it hands
every counted log over exactly once, repeated ends excepted, if and only if no
call turned a log away at a full map or dropped one after a failed merge. -/
theorem session_queue_hands_over_iff (maxEntries : Nat) (calls : List (Call I)) :
    ∃ q, Runs.run step (new maxEntries) (calls ++ [.flush]) = .ok q ∧
      (HandedOnce q ↔ Runs.StepsObey step KeepsLog (new maxEntries) calls) := by
  obtain ⟨q, lost, hrun, hledger, hlost⟩ := run_ledger calls (ledger_new maxEntries)
  obtain ⟨q', more, hflush, hledger', hmore⟩ := step_ledger hledger .flush
  have hq' : q' = q.flush := by
    cases hflush
    rfl
  have hnil : more = [] := hmore.mpr trivial
  subst hq' hnil
  rw [append_nil, nil_append] at hledger'
  refine ⟨q.flush, ?_, ?_⟩
  · rw [Runs.run_append, hrun]
    rfl
  have hempty : q.flush.logs = [] := by
    rw [logs, (flush_moves q).1]
    rfl
  rw [hledger'.handedOnce_iff hempty, hlost]

/-- With room for one session, the requests of two flows and a flush: the
second request is counted and never handed over. -/
theorem session_queue_drops_over_limit :
    ∃ q, Runs.run step (new 1)
        [.aggregate .default (.metaAppProto (dnsLog 1 0 .request [])),
          .aggregate .default (.metaAppProto (dnsLog 2 0 .request [])), .flush] = .ok q ∧
      q.received = [0, 1] ∧ q.ignored = [] ∧ times 0 q.handed = 1 ∧ times 1 q.handed = 0 ∧
      ¬ HandedOnce q := by
  refine ⟨_, rfl, by decide, by decide, by decide, by decide, ?_⟩
  intro honce
  exact absurd (honce 1 (by decide) (by decide)) (by decide)

end SessionQueue

end ZeroTrace.Session
