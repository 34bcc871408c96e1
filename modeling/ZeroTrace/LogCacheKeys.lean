import ZeroTrace.RrtCacheIndex

/-!
# The keys of the RRT cache

A key packs the flow, one bit for the direction and 63 bits for the session or the
packet.  Two keys are equal exactly when these three parts are
(`LogCacheKey.new_eq_new_iff`), and the parts do not tell everything they are made
from: without a session and outside eBPF the direction is not written at all, and a
session is not told from a packet of the same number.

The direction is read back with a comparison that never succeeds, so no key is
reversed (`LogCacheKey.isReversed_eq_false`), and at the end of a flow everything that
is collected goes to the forward direction.
-/

namespace ZeroTrace.Perf

open Lru Lru.Crate LruCache Runs List LogCacheKey L7PerfStats RrtCache Nat

namespace LogCacheKey

variable (param : ParseParam) (sessionId : Option UInt32) (isReversed : Bool)

/-- The bit for the direction, as it is written. -/
def mark (isReversed : Bool) : Bool :=
  isReversed && (sessionId.isSome || decide (param.ebpfType ≠ .none))

/-- The session, the number of the packet for data from eBPF, or nothing. -/
def payload : Nat :=
  match sessionId with
  | some sid => sid.toNat
  | none =>
    if param.ebpfType ≠ .none then
      (if param.direction = .clientToServer then param.packetEndSeq + 1
        else param.packetStartSeq).toNat % 2 ^ 63
    else 0

theorem payload_lt : payload param sessionId < 2 ^ 63 := by
  unfold payload
  cases sessionId with
  | some sid => exact lt_trans sid.toNat_lt (by decide)
  | none =>
    dsimp only
    split
    · exact mod_lt _ (by decide)
    · decide

theorem or_bit_eq_add {n : Nat} (h : n < 2 ^ 63) : 1 <<< 63 ||| n = 2 ^ 63 + n := by
  have hadd := shiftLeft_add_eq_or_of_lt h 1
  rw [← hadd, shiftLeft_eq, one_mul]

theorem lowBits_eq : lowBits param sessionId isReversed =
      (if mark param sessionId isReversed then 2 ^ 63 else 0) + payload param sessionId := by
  have hlt := payload_lt param sessionId
  have hmask : ∀ n : Nat, n &&& 0x7fffffffffffffff = n % 2 ^ 63 := fun n =>
    and_two_pow_sub_one_eq_mod n 63
  unfold lowBits mark
  cases sessionId with
  | some sid =>
    cases isReversed with
    | false => simp [payload]
    | true => simpa [payload] using or_bit_eq_add hlt
  | none =>
    by_cases hebpf : param.ebpfType = .none
    · simp [payload, hebpf]
    · cases isReversed with
      | false => simp [payload, hebpf, hmask]
      | true =>
        have hor := or_bit_eq_add hlt
        simpa [payload, hebpf, hmask] using hor

theorem new_bits : (new param sessionId isReversed).bits =
      2 ^ 64 * param.flowId + lowBits param sessionId isReversed := by
  have hadd := shiftLeft_add_eq_or_of_lt (lowBits_lt param sessionId isReversed) param.flowId
  rw [new, ← hadd, shiftLeft_eq, mul_comm]

/-- **Equal keys.** -/
theorem new_eq_new_iff (p p' : ParseParam) (s s' : Option UInt32) (b b' : Bool) :
    new p s b = new p' s' b' ↔
      p.flowId = p'.flowId ∧ mark p s b = mark p' s' b' ∧ payload p s = payload p' s' := by
  have hlt := payload_lt p s
  have hlt' := payload_lt p' s'
  have hlow := lowBits_eq p s b
  have hlow' := lowBits_eq p' s' b'
  have hkeys : new p s b = new p' s' b' ↔ (new p s b).bits = (new p' s' b').bits := by
    constructor
    · intro h
      rw [h]
    · intro h
      exact congrArg mk h
  rw [hkeys, new_bits, new_bits, hlow, hlow']
  cases mark p s b with
  | false =>
    cases mark p' s' b' with
    | false =>
      simp only [Bool.false_eq_true, if_false, true_and]
      omega
    | true =>
      simp only [Bool.false_eq_true, if_false, if_true, false_and, and_false, iff_false]
      omega
  | true =>
    cases mark p' s' b' with
    | false =>
      simp only [Bool.true_eq_false, Bool.false_eq_true, if_false, if_true, false_and,
        and_false, iff_false]
      omega
    | true =>
      simp only [if_true, true_and]
      omega

-- without a session and outside eBPF, both directions have one key
example : new { flowId := 1, time := 1 } none true = new { flowId := 1, time := 1 } none false :=
  by decide

/-- The masked bit is zero or `2 ^ 63`, and never one. -/
theorem isReversed_eq_false (key : LogCacheKey) : key.isReversed = false := by
  apply decide_eq_false
  intro h
  have hbit := congrArg (fun n => testBit n 0) h
  simp at hbit

/-- The two keys are made from different flows, sessions or directions. -/
def Differ (p p' : ParseParam) (s s' : Option UInt32) (b b' : Bool) : Prop :=
  p.flowId ≠ p'.flowId ∨ s ≠ s' ∨ b ≠ b'

end LogCacheKey

namespace L7PerfStats

instance : Zero L7PerfStats := ⟨{}⟩

instance : Add L7PerfStats := ⟨sequentialMerge⟩

theorem zero_def : (0 : L7PerfStats) = {} := rfl

theorem add_def (a b : L7PerfStats) : a + b = a.sequentialMerge b := rfl

theorem rrtMax_add (a b : L7PerfStats) : (a + b).rrtMax = max a.rrtMax b.rrtMax := by
  rw [add_def, sequentialMerge, max_def]
  dsimp only
  split
  · rw [if_pos (by omega)]
  · split
    · omega
    · rfl

variable {a b : L7PerfStats}

theorem ext_fields (h₁ : a.requestCount = b.requestCount) (h₂ : a.responseCount = b.responseCount)
    (h₃ : a.errClientCount = b.errClientCount) (h₄ : a.errServerCount = b.errServerCount)
    (h₅ : a.errTimeout = b.errTimeout) (h₆ : a.rrtCount = b.rrtCount) (h₇ : a.rrtSum = b.rrtSum)
    (h₈ : a.rrtMax = b.rrtMax) (h₉ : a.tlsRtt = b.tlsRtt) : a = b := by
  cases a
  cases b
  simp_all

/-- Merging is a sum, with the maximum for the longest response time. -/
instance : AddCommMonoid L7PerfStats where
  add_assoc a b c := by
    refine ext_fields (Nat.add_assoc ..) (Nat.add_assoc ..) (Nat.add_assoc ..) (Nat.add_assoc ..)
      (Nat.add_assoc ..) (Nat.add_assoc ..) (Nat.add_assoc ..) ?_ (Nat.add_assoc ..)
    rw [rrtMax_add, rrtMax_add, rrtMax_add, rrtMax_add, Nat.max_assoc]
  zero_add a := by
    refine ext_fields (Nat.zero_add _) (Nat.zero_add _) (Nat.zero_add _) (Nat.zero_add _)
      (Nat.zero_add _) (Nat.zero_add _) (Nat.zero_add _) ?_ (Nat.zero_add _)
    rw [rrtMax_add]
    exact Nat.zero_max _
  add_zero a := by
    refine ext_fields (Nat.add_zero _) (Nat.add_zero _) (Nat.add_zero _) (Nat.add_zero _)
      (Nat.add_zero _) (Nat.add_zero _) (Nat.add_zero _) ?_ (Nat.add_zero _)
    rw [rrtMax_add]
    exact Nat.max_zero _
  add_comm a b := by
    refine ext_fields (Nat.add_comm ..) (Nat.add_comm ..) (Nat.add_comm ..) (Nat.add_comm ..)
      (Nat.add_comm ..) (Nat.add_comm ..) (Nat.add_comm ..) ?_ (Nat.add_comm ..)
    rw [rrtMax_add, rrtMax_add, Nat.max_comm]
  nsmul := nsmulRec

theorem eq_zero_of_add_eq_self (h : a + b = a) (hmax : b.rrtMax = 0) : b = 0 := by
  have hfield : ∀ f : L7PerfStats → Nat, f (a + b) = f a + f b → f b = 0 := by
    intro f hf
    rw [h] at hf
    omega
  exact ext_fields (hfield _ rfl) (hfield _ rfl) (hfield _ rfl) (hfield _ rfl) (hfield _ rfl)
    (hfield _ rfl) (hfield _ rfl) hmax (hfield _ rfl)

theorem add_eq_zero_iff : a + b = 0 ↔ a = 0 ∧ b = 0 := by
  constructor
  · intro h
    have hmax := congrArg rrtMax h
    rw [rrtMax_add] at hmax
    have hfield : ∀ f : L7PerfStats → Nat, f (a + b) = f a + f b → f 0 = 0 →
        f a = 0 ∧ f b = 0 := by
      intro f hf hzero
      rw [h, hzero] at hf
      omega
    have hboth : a.rrtMax = 0 ∧ b.rrtMax = 0 := by
      have hzero : (0 : L7PerfStats).rrtMax = 0 := rfl
      omega
    have h₁ := hfield requestCount rfl rfl
    have h₂ := hfield responseCount rfl rfl
    have h₃ := hfield errClientCount rfl rfl
    have h₄ := hfield errServerCount rfl rfl
    have h₅ := hfield errTimeout rfl rfl
    have h₆ := hfield rrtCount rfl rfl
    have h₇ := hfield rrtSum rfl rfl
    have h₉ := hfield tlsRtt rfl rfl
    exact ⟨ext_fields h₁.1 h₂.1 h₃.1 h₄.1 h₅.1 h₆.1 h₇.1 hboth.1 h₉.1,
      ext_fields h₁.2 h₂.2 h₃.2 h₄.2 h₅.2 h₆.2 h₇.2 hboth.2 h₉.2⟩
  · intro h
    rw [h.1, h.2, add_zero]

theorem sum_eq_zero_iff {α : Type} (w : α → L7PerfStats) (l : List α) :
    (l.map w).sum = 0 ↔ ∀ x ∈ l, w x = 0 := by
  induction l with
  | nil => simp
  | cons x l ih => rw [map_cons, sum_cons, add_eq_zero_iff, ih, forall_mem_cons]

theorem rrtMax_ofLog {log : LogCache} : (ofLog log).rrtMax = 0 := by
  unfold ofLog
  split <;> rfl

end L7PerfStats

theorem sum_filter_add {α M : Type} [AddCommMonoid M] (w : α → M) (p : α → Bool) (l : List α) :
    ((l.filter p).map w).sum + ((l.filter fun x => !p x).map w).sum = (l.map w).sum := by
  simpa using sum_map_filter_add_sum_map_filter_not (fun x => p x = true) w l

namespace RrtCache

variable [Crate]

/-- What is cached under a key counts for this much. -/
def statsAt (logs : LruCache LogCacheKey LogCache) (key : LogCacheKey) : L7PerfStats :=
  match logs.peek key with
  | some log => .ofLog log
  | none => {}

def reversedAt (r : RrtCache) (key : LogCacheKey) : Bool :=
  (r.logs.peek key).any fun log => log.reversed

def sumOf (r : RrtCache) (flow : Nat) (reversed : Bool) : L7PerfStats :=
  (((r.keysIn flow).filter fun key => r.reversedAt key == reversed).map (statsAt r.logs)).sum

variable {r : RrtCache} {flow : Nat}

theorem collectKeys_fst {keys : List LogCacheKey} (hnodup : keys.Nodup)
    (logs : LruCache LogCacheKey LogCache) (forward backward : L7PerfStats) :
    (collectKeys keys logs forward backward).1 =
      (forward + (keys.map (statsAt logs)).sum, backward) := by
  induction keys generalizing logs forward with
  | nil => simp [collectKeys]
  | cons key keys ih =>
    obtain ⟨hnot, hrest⟩ := nodup_cons.mp hnodup
    have hsame : keys.map (statsAt (logs.remove key)) = keys.map (statsAt logs) := by
      apply map_congr_left
      intro j hj
      have hne : j ≠ key := by
        intro heq
        exact hnot (heq ▸ hj)
      rw [statsAt, statsAt, peek_remove_ne hne]
    unfold collectKeys LruCache.pop
    rw [map_cons, sum_cons]
    cases hpeek : logs.peek key with
    | none =>
      have hzero : statsAt logs key = 0 := by
        rw [statsAt, hpeek]
        rfl
      rw [ih hrest, hsame, hzero, zero_add]
    | some log =>
      have hlog : statsAt logs key = .ofLog log := by rw [statsAt, hpeek]
      dsimp only
      rw [if_neg (by rw [isReversed_eq_false]; exact Bool.false_ne_true),
        ih hrest, hsame, hlog, ← add_def, add_assoc]

/-- What a flow lists, whether it is cached or not. -/
def listedSum (r : RrtCache) (flow : Nat) : L7PerfStats :=
  ((r.keysOf flow).keys.map (statsAt r.logs)).sum

theorem collect_fst (r : RrtCache) (flow : Nat) :
    (r.collectFlowPerfStats flow).1.getD ({}, {}) = (r.listedSum flow, {}) := by
  unfold collectFlowPerfStats LruCache.pop listedSum keysOf
  cases hkeys : r.flows.peek flow with
  | none =>
    rw [Option.getD_none, Option.getD_none, keys_new]
    rfl
  | some keys =>
    have hfst := collectKeys_fst keys.keys_nodup r.logs {} {}
    rw [← zero_def, zero_add] at hfst
    dsimp only [Option.getD_some]
    have hforward := congrArg Prod.fst hfst
    have hbackward := congrArg Prod.snd hfst
    rw [← zero_def, hforward, hbackward]
    split
    next hzero =>
      have hsum : (keys.keys.map (statsAt r.logs)).sum = 0 := hzero.1
      rw [hsum]
      rfl
    next => rfl

def isListed (r : RrtCache) (flow : Nat) (key : LogCacheKey) : Bool :=
  ((r.keysOf flow).peek key).isSome

/-- The cached logs of a flow that it does not list. -/
def unlistedSum (r : RrtCache) (flow : Nat) : L7PerfStats :=
  (((r.keysIn flow).filter fun key => !r.isListed flow key).map (statsAt r.logs)).sum

theorem listedSum_add (hs : r.Sound) (flow : Nat) :
    r.listedSum flow + r.unlistedSum flow = ((r.keysIn flow).map (statsAt r.logs)).sum := by
  have hcached := sum_filter_add (statsAt r.logs) (fun key => (r.logs.peek key).isSome)
    (r.keysOf flow).keys
  have hnothing : (((r.keysOf flow).keys.filter fun key => !(r.logs.peek key).isSome).map
      (statsAt r.logs)).sum = 0 := by
    rw [sum_eq_zero_iff]
    intro key hkey
    have hnone : r.logs.peek key = none := by simpa using (mem_filter.mp hkey).2
    rw [statsAt, hnone]
    rfl
  have hperm : ((r.keysOf flow).keys.filter fun key => (r.logs.peek key).isSome).Perm
      ((r.keysIn flow).filter fun key => r.isListed flow key) := by
    have hnodup : (r.keysIn flow).Nodup := r.logs.keys_nodup.filter _
    apply (perm_ext_iff_of_nodup ((r.keysOf flow).keys_nodup.filter _) (hnodup.filter _)).mpr
    intro key
    rw [mem_filter, mem_filter, mem_keysIn, mem_keys_iff]
    constructor
    · intro h
      exact ⟨⟨h.2, hs.own flow key (lists_iff_keysOf.mpr h.1)⟩, h.1⟩
    · intro h
      exact ⟨h.2, h.1.1⟩
  have hsplit := sum_filter_add (statsAt r.logs) (fun key => r.isListed flow key) (r.keysIn flow)
  rw [hnothing, add_zero, (hperm.map _).sum_eq] at hcached
  rw [← hsplit, listedSum, ← hcached]
  rfl

theorem sumOf_add (r : RrtCache) (flow : Nat) :
    r.sumOf flow false + r.sumOf flow true = ((r.keysIn flow).map (statsAt r.logs)).sum := by
  have hforward : ((r.keysIn flow).filter fun key => !(r.reversedAt key == true)) =
      (r.keysIn flow).filter fun key => r.reversedAt key == false := by
    apply filter_congr
    intro key _
    cases r.reversedAt key <;> rfl
  have hsplit := sum_filter_add (statsAt r.logs) (fun key => r.reversedAt key == true)
    (r.keysIn flow)
  rw [hforward] at hsplit
  rw [add_comm]
  exact hsplit

theorem rrtMax_sum {logs : LruCache LogCacheKey LogCache} {keys : List LogCacheKey} :
    ((keys.map (statsAt logs)).sum).rrtMax = 0 := by
  induction keys with
  | nil => rfl
  | cons key keys ih =>
    have hkey : (statsAt logs key).rrtMax = 0 := by
      unfold statsAt
      split
      · exact rrtMax_ofLog
      · rfl
    rw [map_cons, sum_cons, rrtMax_add, ih, hkey]
    rfl

theorem collect_eq_iff (hs : r.Sound) (flow : Nat) :
    (r.collectFlowPerfStats flow).1.getD ({}, {}) = (r.sumOf flow false, r.sumOf flow true) ↔
      r.sumOf flow true = 0 ∧ r.unlistedSum flow = 0 := by
  have hlisted := listedSum_add hs flow
  have hsums := sumOf_add r flow
  rw [collect_fst, Prod.mk.injEq]
  constructor
  · intro h
    have hreversed : r.sumOf flow true = 0 := h.2.symm
    refine ⟨hreversed, ?_⟩
    rw [hreversed, add_zero, ← hlisted, ← h.1] at hsums
    exact eq_zero_of_add_eq_self hsums.symm (rrtMax_sum)
  · intro h
    rw [h.2, add_zero, ← hsums, h.1, add_zero] at hlisted
    exact ⟨hlisted, h.1.symm⟩

/-- No cached log of the flow counts that is reversed or not listed. -/
def Forward (r : RrtCache) (flow : Nat) : Prop :=
  ∀ key log, r.logs.peek key = some log → key.flowId = flow →
    log.reversed = true ∨ ¬ r.Lists flow key → ofLog log = {}

theorem forward_iff (r : RrtCache) (flow : Nat) :
    r.sumOf flow true = 0 ∧ r.unlistedSum flow = 0 ↔ r.Forward flow := by
  rw [sumOf, unlistedSum, sum_eq_zero_iff, sum_eq_zero_iff]
  constructor
  · intro h key log hlog hflow hor
    have hmem : key ∈ r.keysIn flow := mem_keysIn.mpr ⟨by rw [hlog]; rfl, hflow⟩
    have hstats : statsAt r.logs key = .ofLog log := by rw [statsAt, hlog]
    rw [← hstats]
    rcases hor with hreversed | hnot
    · refine h.1 key (mem_filter.mpr ⟨hmem, ?_⟩)
      simp [reversedAt, hlog, hreversed]
    · refine h.2 key (mem_filter.mpr ⟨hmem, ?_⟩)
      rw [lists_iff_keysOf] at hnot
      simpa [isListed] using hnot
  · intro h
    have hcase : ∀ key ∈ r.keysIn flow, r.reversedAt key = true ∨ ¬ r.Lists flow key →
        statsAt r.logs key = 0 := by
      intro key hkey hor
      obtain ⟨hsome, hflow⟩ := mem_keysIn.mp hkey
      obtain ⟨log, hlog⟩ := Option.isSome_iff_exists.mp hsome
      rw [statsAt, hlog]
      refine h key log hlog hflow ?_
      simpa [reversedAt, hlog] using hor
    refine ⟨?_, ?_⟩
    · intro key hkey
      obtain ⟨hmem, hreversed⟩ := mem_filter.mp hkey
      exact hcase key hmem (.inl (by simpa using hreversed))
    · intro key hkey
      obtain ⟨hmem, hnot⟩ := mem_filter.mp hkey
      refine hcase key hmem (.inr ?_)
      rw [lists_iff_keysOf]
      simpa [isListed] using hnot

end RrtCache

/-- A key tells its flow and its direction, other flows, sessions and directions have
other keys, and the logs of a flow are collected by their direction. -/
structure Faithful [Crate] (p p' : ParseParam) (s s' : Option UInt32) (b b' : Bool) (r : RrtCache)
    (flow : Nat) : Prop where
  flowId : (new p s b).flowId = p.flowId
  differ : Differ p p' s s' b b' → new p s b ≠ new p' s' b'
  flag : (new p s b).isReversed = b
  sums : (r.collectFlowPerfStats flow).1.getD ({}, {}) = (r.sumOf flow false, r.sumOf flow true)

/-- **The encoding of keys.**  Over every content that operations give the cache, keys
are faithful if and only if the flag is not set, the two keys do not agree in all that
is written into them, and no log of the flow counts that is reversed or has lost its
index entry. -/
theorem keys_faithful_iff [Crate] {cap : Nat} (hcap : 0 < cap) {ops : List RrtCache.Op}
    {r : RrtCache} (hrun : run RrtCache.step (.empty cap) ops = .ok r) (p p' : ParseParam)
    (s s' : Option UInt32) (b b' : Bool) (flow : Nat) :
    Faithful p p' s s' b b' r flow ↔
      b = false ∧
        (Differ p p' s s' b b' →
          ¬ (p.flowId = p'.flowId ∧ mark p s b = mark p' s' b' ∧ payload p s = payload p' s')) ∧
        r.Forward flow := by
  have hs := sound_run hcap hrun
  have hsums := (collect_eq_iff hs flow).trans (forward_iff r flow)
  have hkeys := new_eq_new_iff p p' s s' b b'
  constructor
  · intro h
    have hflag := h.flag
    rw [isReversed_eq_false] at hflag
    exact ⟨hflag.symm, fun hd heq => h.differ hd (hkeys.mpr heq), hsums.mp h.sums⟩
  · intro h
    refine ⟨flowId_new p s b, fun hd heq => h.2.1 hd (hkeys.mp heq), ?_, hsums.mpr h.2.2⟩
    rw [isReversed_eq_false, h.1]

/-- A cache with one request of flow 1 and session 5, put in a direction. -/
def oneRequest (isReversed : Bool) : List RrtCache.Op :=
  [.put (.new { flowId := 1, time := 1 } (some 5) isReversed)
    { msgType := .request, reversed := isReversed }]

/-- With the request of session 5 cached, which is forward, session 6 gets a key of its own. -/
theorem keys_faithful_sessions :
    ∃ r, run step (.empty 1) (oneRequest false) = .ok r ∧
      Faithful { flowId := 1, time := 1 } { flowId := 1, time := 1 } (some 5) (some 6) false true
        r 1 := by
  have hrun : run step (.empty 1) (oneRequest false) = .ok _ := rfl
  refine ⟨_, hrun, (keys_faithful_iff one_pos hrun _ _ _ _ _ _ _).mpr ⟨rfl, ?_, ?_⟩⟩
  · exact fun _ heq => absurd heq.2.2 (by decide)
  · exact (forward_iff _ _).mp ⟨by decide +kernel, by decide +kernel⟩

/-- The key of a reversed request does not say so, and the request is collected for
the forward direction. -/
theorem reversed_request_collected_forward :
    (new { flowId := 1, time := 1 } (some 5) true).isReversed = false ∧
      ∃ r, run step (.empty 1) (oneRequest true) = .ok r ∧
        r.sumOf 1 false = {} ∧ r.sumOf 1 true = { requestCount := 1 } ∧
        (r.collectFlowPerfStats 1).1 = some ({ requestCount := 1 }, {}) :=
  ⟨by decide +kernel, _, rfl, by decide +kernel, by decide +kernel, by decide +kernel⟩

end ZeroTrace.Perf
