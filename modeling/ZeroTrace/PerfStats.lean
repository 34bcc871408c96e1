import ZeroTrace.L7ProtocolInfo
import ZeroTrace.LruCache
import ZeroTrace.RunInvariants

/-!
# Performance statistics of application logs

`perf_stats` turns every log into counts of requests and responses, a response
time where it can pair the two, and a count of requests that timed out.  The
last log of every session waits in the RRT cache, a pair of LRU caches: the
logs by their keys, and for every flow the keys it has.  A third cache counts,
for every flow and direction, the requests that wait and those that timed out.

The function `judge` holds the decision about a log and the one cached before
it.  `reversed` in `LogCache` is a ghost: it remembers in which direction a
cached log was counted, which the source does not store.
-/

namespace ZeroTrace.Perf

open RustExec Lru Lru.Crate Nat

structure MultiMergeInfo where
  reqEnd : Bool := false
  respEnd : Bool := false
  merged : Bool := false
  deriving DecidableEq

/-- `LogCache`, without the endpoint, which no count depends on. -/
structure LogCache where
  msgType : LogMessageType := .other
  time : Nat := 0
  respStatus : L7ResponseStatus := .unknown
  onBlacklist : Bool := false
  multiMergeInfo : Option MultiMergeInfo := none
  reversed : Bool := false
  deriving DecidableEq

def LogCache.isRequestOf (self other : LogCache) : Bool :=
  decide (self.msgType = .request) && decide (other.msgType = .response) &&
    decide (self.time < other.time)

def LogCache.isResponseOf (self other : LogCache) : Bool :=
  decide (self.msgType = .response) && decide (other.msgType = .request) &&
    decide (self.time > other.time)

def LogCache.isCountedRequest (log : LogCache) : Bool :=
  !log.onBlacklist && decide (log.msgType = .request)

structure L7PerfStats where
  requestCount : Nat := 0
  responseCount : Nat := 0
  errClientCount : Nat := 0
  errServerCount : Nat := 0
  errTimeout : Nat := 0
  rrtCount : Nat := 0
  rrtSum : Nat := 0
  rrtMax : Nat := 0
  tlsRtt : Nat := 0
  deriving DecidableEq

namespace L7PerfStats

variable (self : L7PerfStats)

def sequentialMerge (other : L7PerfStats) : L7PerfStats where
  requestCount := self.requestCount + other.requestCount
  responseCount := self.responseCount + other.responseCount
  errClientCount := self.errClientCount + other.errClientCount
  errServerCount := self.errServerCount + other.errServerCount
  errTimeout := self.errTimeout + other.errTimeout
  rrtCount := self.rrtCount + other.rrtCount
  rrtSum := self.rrtSum + other.rrtSum
  rrtMax := if self.rrtMax < other.rrtMax then other.rrtMax else self.rrtMax
  tlsRtt := self.tlsRtt + other.tlsRtt

def mergePerf (reqCount respCount reqErr respErr rrt tlsRtt : Nat) : L7PerfStats where
  requestCount := self.requestCount + reqCount
  responseCount := self.responseCount + respCount
  errClientCount := self.errClientCount + reqErr
  errServerCount := self.errServerCount + respErr
  errTimeout := self.errTimeout
  rrtCount := if rrt ≠ 0 then self.rrtCount + 1 else self.rrtCount
  rrtSum := if rrt ≠ 0 then self.rrtSum + rrt else self.rrtSum
  rrtMax := if rrt ≠ 0 then max self.rrtMax (rrt % 2 ^ 32) else self.rrtMax
  tlsRtt := if tlsRtt ≠ 0 then self.tlsRtt + tlsRtt % 2 ^ 32 else self.tlsRtt

def incReq : L7PerfStats := self.mergePerf 1 0 0 0 0 0

def incResp : L7PerfStats := self.mergePerf 0 1 0 0 0 0

def updateRrt (rrt : Nat) : L7PerfStats := self.mergePerf 0 0 0 0 rrt 0

/-- `From<&LogCache>`: what one log counts for. -/
def ofLog (cache : LogCache) : L7PerfStats :=
  if cache.onBlacklist then {}
  else
    { requestCount :=
        match cache.multiMergeInfo with
        | some info => if info.reqEnd then 1 else 0
        | none => if cache.msgType = .request then 1 else 0
      responseCount :=
        match cache.multiMergeInfo with
        | some info => if info.respEnd then 1 else 0
        | none => if cache.msgType = .response then 1 else 0
      errClientCount := if cache.respStatus = .clientError then 1 else 0
      errServerCount := if cache.respStatus = .serverError then 1 else 0 }

end L7PerfStats

/-- The part of `ParseParam` that the statistics read. -/
structure ParseParam where
  flowId : Nat
  direction : PacketDirection := .clientToServer
  ebpfType : EbpfType := .none
  packetStartSeq : UInt64 := 0
  packetEndSeq : UInt64 := 0
  time : Nat
  rrtTimeout : Nat := 10 ^ 7
  deriving DecidableEq

/-- What `perf_stats` asks of the log it is called on. -/
structure L7Log where
  logCache : LogCache
  sessionId : Option UInt32 := none
  needMerge : Bool := false
  needsSessionAggregation : Bool := true
  isReversed : Bool := false
  deriving DecidableEq

/-- `LogCacheKey`, a `u128`. -/
structure LogCacheKey where
  bits : Nat
  deriving DecidableEq

namespace LogCacheKey

/-- `is_reversed`, which compares the masked bit with one. -/
def isReversed (key : LogCacheKey) : Bool := decide (key.bits &&& 1 <<< 63 = 1)

variable (param : ParseParam) (sessionId : Option UInt32) (isReversed : Bool)

/-- The lower 64 bits of a key: the session, or the number of the packet for
data from eBPF. -/
def lowBits (isReversed : Bool) : Nat :=
  match sessionId with
  | some sid => if isReversed then 1 <<< 63 ||| sid.toNat else sid.toNat
  | none =>
    if param.ebpfType ≠ .none then
      let seq :=
        if param.direction = .clientToServer then param.packetEndSeq + 1
        else param.packetStartSeq
      let seq := seq.toNat &&& 0x7fffffffffffffff
      if isReversed then 1 <<< 63 ||| seq else seq
    else 0

def new (isReversed : Bool) : LogCacheKey :=
  ⟨param.flowId <<< 64 ||| lowBits param sessionId isReversed⟩

def flowId (key : LogCacheKey) : Nat := key.bits >>> 64

theorem lowBits_lt : lowBits param sessionId isReversed < 2 ^ 64 := by
  have hbit : 1 <<< 63 < 2 ^ 64 := by decide
  unfold lowBits
  cases sessionId with
  | some sid =>
    have hsid : sid.toNat < 2 ^ 64 := lt_trans sid.toNat_lt (by decide)
    dsimp only
    split
    · exact or_lt_two_pow hbit hsid
    · exact hsid
  | none =>
    dsimp only
    split
    · have hseq : ∀ n : Nat, n &&& 0x7fffffffffffffff < 2 ^ 64 := fun n =>
        lt_of_le_of_lt and_le_right (by decide)
      split
      · exact or_lt_two_pow hbit (hseq _)
      · exact hseq _
    · decide

@[simp] theorem flowId_new : (new param sessionId isReversed).flowId = param.flowId := by
  have hlow : lowBits param sessionId isReversed >>> 64 = 0 := by
    rw [shiftRight_eq_div_pow]
    exact div_eq_of_lt (lowBits_lt param sessionId isReversed)
  rw [flowId, new, shiftRight_or_distrib, hlow, shiftLeft_shiftRight, or_zero]

end LogCacheKey

variable [Crate]

structure RrtCache where
  logs : LruCache LogCacheKey LogCache
  flows : LruCache Nat (LruCache LogCacheKey Unit)
  cacheLen : Nat := 0

namespace RrtCache

def maxRrtCachePerFlow : Nat := 16

variable (r : RrtCache) (key : LogCacheKey)

/-- `get_mut`: the cached log, which is now the most recently used one. -/
def getMut : Option LogCache × RrtCache :=
  let (log, logs) := r.logs.get key
  (log, { r with logs := logs })

/-- What is written through the reference of `get_mut`. -/
def write (log : LogCache) : RrtCache :=
  { r with logs := r.logs.place key log }

/-- The keys of a flow, none for a flow that is not cached. -/
def keysOf (flowId : Nat) : LruCache LogCacheKey Unit :=
  (r.flows.peek flowId).getD (.new maxRrtCachePerFlow)

/-- Room for a key in the logs, the flows and the keys of its flow. -/
def Room : Prop :=
  r.logs.Room key ∧ r.flows.Room key.flowId ∧ (r.keysOf key.flowId).Room key

instance (r : RrtCache) (key : LogCacheKey) : Decidable (r.Room key) :=
  inferInstanceAs (Decidable (_ ∧ _))

def put (value : LogCache) : Option LogCache × RrtCache :=
  let (keys, flows) := r.flows.getOrInsert key.flowId (.new maxRrtCachePerFlow)
  let (old, keys) := keys.push key ()
  let flows := flows.place key.flowId keys
  let logs :=
    match old with
    | some (old, _) => if key ≠ old then (r.logs.pop old).2 else r.logs
    | none => r.logs
  let (ret, logs) := logs.put key value
  (ret, { logs := logs, flows := flows, cacheLen := logs.len })

def pop : Option LogCache × RrtCache :=
  let flows :=
    match r.flows.get key.flowId with
    | (some keys, flows) =>
      let keys := (keys.pop key).2
      if keys.len = 0 then (flows.pop key.flowId).2 else flows.place key.flowId keys
    | (none, flows) => flows
  let (ret, logs) := r.logs.pop key
  (ret, { logs := logs, flows := flows, cacheLen := logs.len })

/-- The statistics of a list of keys, each taken out of the cache. -/
def collectKeys : List LogCacheKey → LruCache LogCacheKey LogCache → L7PerfStats → L7PerfStats →
    (L7PerfStats × L7PerfStats) × LruCache LogCacheKey LogCache
  | [], logs, forward, backward => ((forward, backward), logs)
  | key :: keys, logs, forward, backward =>
    match logs.pop key with
    | (some cache, logs) =>
      if key.isReversed then
        collectKeys keys logs forward (backward.sequentialMerge (.ofLog cache))
      else collectKeys keys logs (forward.sequentialMerge (.ofLog cache)) backward
    | (none, logs) => collectKeys keys logs forward backward

def collectFlowPerfStats (flowId : Nat) : Option (L7PerfStats × L7PerfStats) × RrtCache :=
  match r.flows.pop flowId with
  | (none, flows) => (none, { r with flows := flows })
  | (some keys, flows) =>
    let ((forward, backward), logs) := collectKeys keys.keys r.logs {} {}
    (if forward = {} ∧ backward = {} then none else some (forward, backward),
      { r with logs := logs, flows := flows })

end RrtCache

/-- `TimeoutCacheEntry`; the index is false for the forward direction. -/
structure TimeoutCacheEntry where
  inCache : Bool → Nat := fun _ => 0
  timeout : Bool → Nat := fun _ => 0

namespace TimeoutCacheEntry

variable (e : TimeoutCacheEntry) (index : Bool)

/-- `in_cache[index] += 1`. -/
def incCache : TimeoutCacheEntry :=
  { e with inCache := Function.update e.inCache index (e.inCache index + 1) }

/-- `in_cache[index].saturating_sub(1)`. -/
def decCache : TimeoutCacheEntry :=
  { e with inCache := Function.update e.inCache index (e.inCache index - 1) }

/-- `timeout[index] += 1`. -/
def incTimeout : TimeoutCacheEntry :=
  { e with timeout := Function.update e.timeout index (e.timeout index + 1) }

end TimeoutCacheEntry

structure TimeoutCache where
  flows : LruCache Nat TimeoutCacheEntry
  cacheLen : Nat := 0

namespace TimeoutCache

def getOrInsertMut (t : TimeoutCache) (flowId : Nat) : TimeoutCacheEntry × TimeoutCache :=
  let (entry, flows) := t.flows.getOrInsert flowId {}
  (entry, { flows := flows, cacheLen := flows.len })

/-- What is written through the reference of `get_or_insert_mut`. -/
def write (t : TimeoutCache) (flowId : Nat) (entry : TimeoutCacheEntry) : TimeoutCache :=
  { t with flows := t.flows.place flowId entry }

end TimeoutCache

structure L7PerfCache where
  rrtCache : RrtCache
  timeoutCache : TimeoutCache

def L7PerfCache.new (cap : Nat) : L7PerfCache where
  rrtCache := { logs := .new cap, flows := .new cap }
  timeoutCache := { flows := .new cap }

/-- The cached log and the counts after the new log has been noticed, and
whether the cached log has to stay for further merges. -/
structure Noticed where
  prev : LogCache
  entry : TimeoutCacheEntry
  keepPrev : Bool

variable (prev cur : LogCache) (entry : TimeoutCacheEntry)

/-- A log that may be merged many times takes note of the new one; any other
request leaves the count of those that wait. -/
def notice (index : Bool) : Exec Noticed :=
  match prev.multiMergeInfo with
  | some info =>
    unwrap cur.multiMergeInfo >>= fun curInfo =>
      let info :=
        { info with
          reqEnd := info.reqEnd || curInfo.reqEnd
          respEnd := info.respEnd || curInfo.respEnd }
      let meets := decide (prev.msgType ≠ cur.msgType) && !info.merged
      let info := { info with merged := info.merged || meets }
      .ok
        { prev := { prev with multiMergeInfo := some info }
          entry :=
            if meets && !(prev.onBlacklist || cur.onBlacklist) then entry.decCache index
            else entry
          keepPrev := !(info.reqEnd && info.respEnd) }
  | none =>
    .ok
      { prev := prev
        entry := if prev.isCountedRequest then entry.decCache index else entry
        keepPrev := false }

/-- What happens to the cached log. -/
inductive Disposal where
  | keep
  | drop
  | replace
  deriving DecidableEq

/-- The decision about a log.  When the cached log is replaced, the statistics
are those of the log that the cache gives back. -/
structure Verdict where
  stats : Option L7PerfStats
  entry : TimeoutCacheEntry
  disposal : Disposal

/-- The request has been merged before, so its timeout is not counted again. -/
def LogCache.isMerged (log : LogCache) : Bool :=
  match log.multiMergeInfo with
  | some info => info.merged
  | none => false

def LogCache.stats (log : LogCache) : Option L7PerfStats :=
  if !log.onBlacklist then some (.ofLog log) else none

/-- A later response to the cached request. -/
def judgeResponse (keepPrev : Bool) (rrtTimeout : Nat) (index : Bool) : Verdict :=
  let disposal := if keepPrev then .keep else .drop
  if !(prev.onBlacklist || cur.onBlacklist) then
    let rrt := cur.time - prev.time
    if rrt > rrtTimeout then
      { stats := some (.ofLog cur)
        entry := if prev.isMerged then entry else entry.incTimeout index
        disposal := disposal }
    else
      { stats := some ((L7PerfStats.ofLog cur).updateRrt rrt)
        entry := entry, disposal := disposal }
  else { stats := none, entry := entry, disposal := disposal }

/-- An earlier request to the cached response. -/
def judgeRequest (keepPrev : Bool) (rrtTimeout : Nat) (index : Bool) : Verdict :=
  let disposal := if keepPrev then .keep else .drop
  if !cur.onBlacklist then
    if !prev.onBlacklist then
      let rrt := prev.time - cur.time
      { stats := some (((L7PerfStats.ofLog cur).sequentialMerge (.ofLog prev)).updateRrt rrt)
        entry := if rrt > rrtTimeout && !prev.isMerged then entry.incTimeout index else entry
        disposal := disposal }
    else { stats := some (.ofLog cur), entry := entry, disposal := disposal }
  else { stats := none, entry := entry, disposal := disposal }

/-- Two logs of one key that are no pair: the later one stays. -/
def judgeSingle (index : Bool) : Verdict :=
  if prev.time > cur.time then
    let entry := if cur.isCountedRequest then entry.incTimeout index else entry
    let entry := if prev.isCountedRequest then entry.incCache index else entry
    { stats := cur.stats, entry := entry, disposal := .keep }
  else
    let entry := if prev.isCountedRequest then entry.incTimeout index else entry
    let entry := if cur.isCountedRequest then entry.incCache index else entry
    { stats := none, entry := entry, disposal := .replace }

/-- Two logs of one key that may be merged again. -/
def judgeMany (keepPrev : Bool) (index : Bool) : Exec Verdict :=
  let missed :=
    if !prev.onBlacklist && decide (prev.msgType ≠ cur.msgType) then
      unwrap prev.multiMergeInfo >>= fun info => .ok !info.merged
    else .ok false
  missed >>= fun missed =>
    .ok
      { stats := cur.stats
        entry := if missed then entry.incTimeout index else entry
        disposal := if keepPrev then .keep else .drop }

/-- The decision about a log and the one cached before it. -/
def judge (keepPrev needMerge : Bool) (rrtTimeout : Nat) (index : Bool) : Exec Verdict :=
  if prev.isRequestOf cur then .ok (judgeResponse prev cur entry keepPrev rrtTimeout index)
  else if prev.isResponseOf cur then .ok (judgeRequest prev cur entry keepPrev rrtTimeout index)
  else if !needMerge then .ok (judgeSingle prev cur entry index)
  else judgeMany prev cur entry keepPrev index

namespace L7PerfCache

variable (c : L7PerfCache)

def firstLog (key : LogCacheKey) (cur : LogCache) (entry : TimeoutCacheEntry)
    (index : Bool) (flowId : Nat) : Option L7PerfStats × L7PerfCache :=
  let entry := if cur.isCountedRequest then entry.incCache index else entry
  (if cur.isCountedRequest then some (.ofLog cur) else none,
    { rrtCache := (c.rrtCache.put key cur).2
      timeoutCache := c.timeoutCache.write flowId entry })

/-- The verdict is carried out. -/
def dispose (key : LogCacheKey) (prev cur : LogCache) (verdict : Verdict)
    (flowId : Nat) : Exec (Option L7PerfStats × L7PerfCache) :=
  let c := { c with
    rrtCache := c.rrtCache.write key prev
    timeoutCache := c.timeoutCache.write flowId verdict.entry }
  match verdict.disposal with
  | .keep => .ok (verdict.stats, c)
  | .drop => .ok (verdict.stats, { c with rrtCache := (c.rrtCache.pop key).2 })
  | .replace =>
    let (old, rrtCache) := c.rrtCache.put key cur
    unwrap old >>= fun old => .ok (old.stats, { c with rrtCache := rrtCache })

/-- A log of a session goes through the caches. -/
def aggregate (log : L7Log) (param : ParseParam) (cur : LogCache) :
    Exec (Option L7PerfStats × L7PerfCache) :=
  let key := LogCacheKey.new param log.sessionId log.isReversed
  let index := log.isReversed
  let (prev, rrtCache) := c.rrtCache.getMut key
  let (entry, timeoutCache) := c.timeoutCache.getOrInsertMut param.flowId
  let c : L7PerfCache := { rrtCache := rrtCache, timeoutCache := timeoutCache }
  match prev with
  | none => .ok (c.firstLog key cur entry index param.flowId)
  | some prev =>
    notice prev cur entry index >>= fun noticed =>
      judge noticed.prev cur noticed.entry noticed.keepPrev log.needMerge param.rrtTimeout index
        >>= fun verdict => c.dispose key noticed.prev cur verdict param.flowId

/-- The statistics of a log that is a whole session. -/
def sessionStats (cur : LogCache) (direction : PacketDirection) : Option L7PerfStats :=
  if cur.onBlacklist then none
  else
    match direction with
    | .clientToServer => some (L7PerfStats.ofLog cur).incReq
    | .serverToClient => some (L7PerfStats.ofLog cur).incResp

/-- `LogCache::from(self)` at the time of the packet. -/
def currentLog (log : L7Log) (param : ParseParam) : LogCache :=
  { log.logCache with time := param.time, reversed := log.isReversed }

def perfStats (log : L7Log) (param : ParseParam) : Exec (Option L7PerfStats × L7PerfCache) :=
  if param.time = 0 then .ok (none, c)
  else
    let cur := currentLog log param
    assert (!log.needMerge || (log.sessionId.isSome && cur.multiMergeInfo.isSome)) >>= fun _ =>
      if !log.needsSessionAggregation then .ok (some (.ofLog cur), c)
      else if cur.msgType = .session then .ok (sessionStats cur param.direction, c)
      else c.aggregate log param cur

variable (input : L7Log × ParseParam)

/-- One call, for its effect on the caches. -/
def step : Exec L7PerfCache :=
  c.perfStats input.1 input.2 >>= fun r => .ok r.2

def key : LogCacheKey :=
  .new input.2 input.1.sessionId input.1.isReversed

/-- Using the key and the flow of a log evicts nothing from any of the caches. -/
def NoEviction : Prop :=
  c.timeoutCache.flows.Room input.2.flowId ∧ c.rrtCache.Room (key input)

instance (c : L7PerfCache) (input : L7Log × ParseParam) : Decidable (c.NoEviction input) :=
  inferInstanceAs (Decidable (_ ∧ _))

end L7PerfCache

end ZeroTrace.Perf
