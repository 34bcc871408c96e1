import ZeroTrace.L7ProtocolInfo
import ZeroTrace.ChronoChains
import ZeroTrace.RunInvariants

/-!
# The session queue

`SessionQueue` pairs requests with responses before the logs are sent on.  A
log waits in a `ChronoMap` under its session key until its partner comes, its
time is over, or the queue is flushed.

The map is read through its chains, whose operations the pointer code was
shown to compute.  `sent` records the calls of `ThrottleSender::send` in their
order.  Three fields are ghosts that the source does not have: every counted
log is stamped with the number it was received under, `origin` carries the
stamps of the logs merged into one, and `received` and `ignored` list the
stamps given out and those of repeated ends; `wrapped` remembers that a
counter went below zero.
-/

namespace ZeroTrace.Session

open RustExec Chrono L7ProtocolInfoInterface

/-- `Timestamp`: nanoseconds in a `u64`, whose addition wraps. -/
abbrev Timestamp := Nat

/-- `Timestamp::as_micros`. -/
def asMicros (t : Timestamp) : Nat := t / 1000

inductive TapSide where
  | rest
  | client
  | server
  | «local»
  | clientNode
  | serverNode
  | clientHypervisor
  | serverHypervisor
  | clientGatewayHypervisor
  | serverGatewayHypervisor
  | clientGateway
  | serverGateway
  | clientProcess
  | serverProcess
  | clientApp
  | serverApp
  | app
  deriving DecidableEq

/-- The part of `LogParserConfig` that the queue reads. -/
structure LogParserConfig where
  l7LogIgnoreTapSides : TapSide → Bool
  l7LogSessionAggrTimeout : L7Protocol → Option Timestamp

def LogParserConfig.default : LogParserConfig where
  l7LogIgnoreTapSides := fun _ => false
  l7LogSessionAggrTimeout := fun _ => none

/-- `Timeouts::l7_default_timeout`. -/
def l7DefaultTimeout : L7Protocol → Timestamp
  | .dns => 15 * 10 ^ 9
  | .tls => 15 * 10 ^ 9
  | _ => 120 * 10 ^ 9

def LogParserConfig.getL7Timeout (config : LogParserConfig) (proto : L7Protocol) : Timestamp :=
  match config.l7LogSessionAggrTimeout proto with
  | some timeout => timeout
  | none => l7DefaultTimeout proto

structure AppProtoHead where
  proto : L7Protocol
  msgType : LogMessageType
  rrt : Nat
  deriving DecidableEq

/-- `AppProtoLogsBaseInfo`, with the fields that the queue or a merge uses. -/
structure AppProtoLogsBaseInfo where
  startTime : Timestamp
  endTime : Timestamp
  flowId : Nat
  signalSource : SignalSource
  tapSide : TapSide
  bizType : Nat := 0
  head : AppProtoHead
  reqTcpSeq : Nat := 0
  respTcpSeq : Nat := 0
  processId0 : Nat := 0
  processId1 : Nat := 0
  processKname0 : String := ""
  processKname1 : String := ""
  syscallTraceIdRequest : Nat := 0
  syscallTraceIdResponse : Nat := 0
  syscallTraceIdThread0 : Nat := 0
  syscallTraceIdThread1 : Nat := 0
  syscallCoroutine0 : Nat := 0
  syscallCoroutine1 : Nat := 0
  syscallCapSeq0 : Nat := 0
  syscallCapSeq1 : Nat := 0
  deriving DecidableEq

namespace AppProtoLogsBaseInfo

/-- The other log's value where it has one. -/
def preferSet (own other : Nat) : Nat := if other > 0 then other else own

/-- The response time of a merged log in microseconds. -/
def mergedRrt (startTime endTime : Timestamp) : Nat :=
  if endTime > startTime then asMicros endTime - asMicros startTime else 0

/-- `merge`.  What it leaves in the other log, whose process names may have
been swapped out, is returned as well. -/
def merge (self log : AppProtoLogsBaseInfo) : AppProtoLogsBaseInfo × AppProtoLogsBaseInfo :=
  let startTime := min log.startTime self.startTime
  let endTime := max log.endTime self.endTime
  ({ self with
      startTime := startTime
      endTime := endTime
      processId0 := preferSet self.processId0 log.processId0
      processId1 := preferSet self.processId1 log.processId1
      processKname0 := if log.processId0 > 0 then log.processKname0 else self.processKname0
      processKname1 := if log.processId1 > 0 then log.processKname1 else self.processKname1
      syscallCoroutine0 := preferSet self.syscallCoroutine0 log.syscallCoroutine0
      syscallCoroutine1 := preferSet self.syscallCoroutine1 log.syscallCoroutine1
      syscallTraceIdThread0 := preferSet self.syscallTraceIdThread0 log.syscallTraceIdThread0
      syscallTraceIdThread1 := preferSet self.syscallTraceIdThread1 log.syscallTraceIdThread1
      syscallCapSeq0 := preferSet self.syscallCapSeq0 log.syscallCapSeq0
      syscallCapSeq1 := preferSet self.syscallCapSeq1 log.syscallCapSeq1
      syscallTraceIdRequest := preferSet self.syscallTraceIdRequest log.syscallTraceIdRequest
      syscallTraceIdResponse := preferSet self.syscallTraceIdResponse log.syscallTraceIdResponse
      reqTcpSeq := if self.reqTcpSeq = 0 then log.reqTcpSeq else self.reqTcpSeq
      respTcpSeq := if self.respTcpSeq = 0 then log.respTcpSeq else self.respTcpSeq
      head :=
        { proto := log.head.proto
          msgType :=
            if self.head.msgType ≠ log.head.msgType then .session else self.head.msgType
          rrt := mergedRrt startTime endTime }
      bizType := if self.bizType = 0 then log.bizType else self.bizType },
    { log with
      processKname0 := if log.processId0 > 0 then self.processKname0 else log.processKname0
      processKname1 := if log.processId1 > 0 then self.processKname1 else log.processKname1 })

end AppProtoLogsBaseInfo

/-- `MetaAppProto`: one log.  `origin` is a ghost, the stamps of the received
logs that it stands for. -/
structure MetaAppProto (I : Type) where
  baseInfo : AppProtoLogsBaseInfo
  l7Info : I
  origin : List Nat := []

/-- `AppProto`: what the queue is fed. -/
inductive AppProto (I : Type) where
  | socketClosed (key : Nat)
  | metaAppProto (log : MetaAppProto I)

namespace MetaAppProto

variable {I : Type}

def isRequest (log : MetaAppProto I) : Bool := log.baseInfo.head.msgType = .request

def isResponse (log : MetaAppProto I) : Bool := log.baseInfo.head.msgType = .response

def calcCbpfKey (flowId : Nat) (sessionId : Option Nat) : Nat :=
  flowId <<< 64 ||| sessionId.getD 0

def calcEbpfKey (flowId : Nat) (proto : L7Protocol) (sessionId : Option Nat)
    (capSeq : Nat) : Nat :=
  let proto := if proto = .grpc ∨ proto = .triple then .http2 else proto
  flowId <<< 64 ||| proto.toNat <<< 32 ||| sessionId.getD capSeq

def sessionKey (signalSource : SignalSource) (flowId : Nat) (l7Protocol : L7Protocol)
    (sessionId : Option Nat) (capSeq : Nat) : Nat :=
  match signalSource with
  | .ebpf => calcEbpfKey flowId l7Protocol sessionId capSeq
  | _ => calcCbpfKey flowId sessionId

variable [L7ProtocolInfoInterface I] (log : MetaAppProto I)

def calcKey : Nat :=
  let capSeq := max log.baseInfo.syscallCapSeq0 log.baseInfo.syscallCapSeq1
  let capSeq := if log.baseInfo.head.msgType = .request then wrappingAdd 32 capSeq 1 else capSeq
  sessionKey log.baseInfo.signalSource log.baseInfo.flowId log.baseInfo.head.proto
    (L7ProtocolInfoInterface.sessionId log.l7Info) capSeq

/-- `session_merge`: the stamps move over when it succeeds.  When the protocol
refuses, its own part may have changed but the rest is as before. -/
def sessionMerge (self log : MetaAppProto I) : MergeOutcome (MetaAppProto I) :=
  let merged := L7ProtocolInfoInterface.mergeLog self.l7Info log.l7Info
  if merged.ok then
    let (selfBase, logBase) := self.baseInfo.merge log.baseInfo
    ⟨true, ⟨selfBase, merged.self, self.origin ++ log.origin⟩, ⟨logBase, merged.other, []⟩⟩
  else
    ⟨false, { self with l7Info := merged.self }, { log with l7Info := merged.other }⟩

theorem sessionMerge_ok (self log : MetaAppProto I) :
    (self.sessionMerge log).ok = (mergeLog self.l7Info log.l7Info).ok := by
  unfold sessionMerge
  dsimp only
  split
  next hok => exact hok.symm
  next hok => exact (Bool.eq_false_iff.mpr hok).symm

theorem sessionMerge_self_l7Info (self log : MetaAppProto I) :
    (self.sessionMerge log).self.l7Info =
      (mergeLog self.l7Info log.l7Info).self := by
  unfold sessionMerge
  dsimp only
  split
  next => rfl
  next => rfl

def needProtocolMerge : Bool :=
  L7ProtocolInfoInterface.needMerge log.l7Info

/-- `l7_info.get_request_resource_length()`. -/
def resourceLength : Nat :=
  L7ProtocolInfoInterface.getRequestResourceLength log.l7Info

/-- A missing start or end time is taken from the other one. -/
def fillTimes : MetaAppProto I :=
  let startTime :=
    if log.baseInfo.startTime = 0 then log.baseInfo.endTime else log.baseInfo.startTime
  let endTime := if log.baseInfo.endTime = 0 then startTime else log.baseInfo.endTime
  { log with baseInfo := { log.baseInfo with startTime := startTime, endTime := endTime } }

end MetaAppProto

/-- `AtomicU64::fetch_sub`, which wraps below zero. -/
def fetchSub (a n : Nat) : Nat := if n ≤ a then a - n else a + 2 ^ 64 - n

/-- `SessionAggrCounter`.  Additions do not wrap: what they count is held in
memory or was received one by one. -/
structure SessionAggrCounter where
  sendBeforeWindow : Nat := 0
  receive : Nat := 0
  merge : Nat := 0
  cached : Nat := 0
  cachedRequestResource : Nat := 0
  overLimit : Nat := 0
  wrapped : Bool := false
  deriving DecidableEq

namespace SessionAggrCounter

/-- `cached.fetch_sub(1)`. -/
def subCached (c : SessionAggrCounter) : SessionAggrCounter :=
  { c with
    cached := fetchSub c.cached 1
    wrapped := c.wrapped || decide (c.cached < 1) }

/-- `cached_request_resource.fetch_sub(n)`. -/
def subResource (c : SessionAggrCounter) (n : Nat) : SessionAggrCounter :=
  { c with
    cachedRequestResource := fetchSub c.cachedRequestResource n
    wrapped := c.wrapped || decide (c.cachedRequestResource < n) }

end SessionAggrCounter

structure SessionQueue (I : Type) where
  windowStart : Timestamp := 0
  maxEntries : Nat
  entries : Chains Timestamp Nat (MetaAppProto I) := []
  counter : SessionAggrCounter := {}
  sent : List (MetaAppProto I × Option L7ResponseStatus) := []
  received : List Nat := []
  ignored : List Nat := []

namespace SessionQueue

variable {I : Type}

def new (maxEntries : Nat) : SessionQueue I := { maxEntries := maxEntries }

section

variable (q : SessionQueue I)

/-- `throttle_sender.send`. -/
def send (log : MetaAppProto I) (overrideRespStatus : Option L7ResponseStatus) : SessionQueue I :=
  { q with sent := q.sent ++ [(log, overrideRespStatus)] }

/-- `entries.remove(&key).unwrap()`. -/
def removeEntry (key : Nat) : Exec (MetaAppProto I × SessionQueue I) :=
  let (old, entries) := Chains.remove key q.entries
  unwrap old >>= fun log => .ok (log, { q with entries := entries })

/-- `entries.insert(time, key, log)`. -/
def insertEntry (time : Timestamp) (key : Nat) (log : MetaAppProto I) : SessionQueue I :=
  { q with entries := (Chains.insert time key log q.entries).2 }

/-- A counted log gets its stamp. -/
def stamp (log : MetaAppProto I) : MetaAppProto I :=
  { log with origin := [q.counter.receive] }

/-- `receive.fetch_add(1)` for a log. -/
def countReceived : SessionQueue I :=
  { q with
    counter := { q.counter with receive := q.counter.receive + 1 }
    received := q.received ++ [q.counter.receive] }

/-- When a merge has failed, the log that was to be absorbed is sent by
itself. -/
def sendUnmerged (merged : MergeOutcome (MetaAppProto I)) : SessionQueue I :=
  if merged.ok then q else q.send merged.other none

end

variable [L7ProtocolInfoInterface I] (q : SessionQueue I)

/-- The socket of a session was closed: the log that waits for it is sent. -/
def closeSocket (key : Nat) : SessionQueue I :=
  let q :=
    match Chains.remove key q.entries with
    | (some p, entries) =>
      send
        { q with
          entries := entries
          counter := q.counter.subCached.subResource p.resourceLength } p none
    | (none, entries) => { q with entries := entries }
  { q with counter := { q.counter with receive := q.counter.receive + 1 } }

/-- A log that may be merged many times meets a cached one. -/
def mergeMany (key : Nat) (v item : MetaAppProto I) : Exec (SessionQueue I) :=
  let v := (v.sessionMerge item).self
  let q := { q with entries := Chains.setValue key v q.entries }
  if isSessionEnd v.l7Info then
    removeEntry { q with counter := q.counter.subCached.subResource v.resourceLength } key
      >>= fun (log, q) => .ok (q.send log none)
  else .ok q

/-- A response meets the cached request of an earlier time. -/
def mergeResponse (key : Nat) (v item : MetaAppProto I) : Exec (SessionQueue I) :=
  let merged := v.sessionMerge item
  let q := sendUnmerged { q with entries := Chains.setValue key merged.self q.entries } merged
  let counter := q.counter.subCached.subResource merged.self.resourceLength
  removeEntry { q with counter := { counter with merge := counter.merge + 1 } } key
    >>= fun (log, q) => .ok (q.send log none)

/-- A request meets the cached response of a later time. -/
def mergeRequest (key : Nat) (v item : MetaAppProto I) : Exec (SessionQueue I) :=
  removeEntry { q with counter := q.counter.subResource v.resourceLength } key
    >>= fun (v, q) =>
      let merged := item.sessionMerge v
      let q := q.sendUnmerged merged
      let counter := q.counter.subCached
      .ok (send { q with counter := { counter with merge := counter.merge + 1 } }
        merged.self none)

/-- Two logs that cannot be merged: the earlier one is sent, the other one is
kept. -/
def keepLater (timeoutTime : Timestamp) (key : Nat)
    (v item : MetaAppProto I) : Exec (SessionQueue I) :=
  if v.baseInfo.startTime > item.baseInfo.startTime then .ok (q.send item none)
  else
    removeEntry { q with counter := q.counter.subResource v.resourceLength } key
      >>= fun (v, q) =>
        let q := q.send v none
        let counter :=
          { q.counter with
            cachedRequestResource := q.counter.cachedRequestResource + item.resourceLength }
        .ok (insertEntry { q with counter := counter } timeoutTime key item)

/-- The item finds a cached log under its key. -/
def meetCached (timeoutTime : Timestamp) (key : Nat)
    (v item : MetaAppProto I) : Exec (SessionQueue I) :=
  if item.needProtocolMerge then q.mergeMany key v item
  else if item.isResponse ∧ v.isRequest ∧ item.baseInfo.startTime > v.baseInfo.startTime then
    q.mergeResponse key v item
  else if item.isRequest ∧ v.isResponse ∧ v.baseInfo.startTime > item.baseInfo.startTime then
    q.mergeRequest key v item
  else q.keepLater timeoutTime key v item

/-- The map is full: its oldest log is sent. -/
def evict : SessionQueue I :=
  let q := { q with counter := { q.counter with overLimit := q.counter.overLimit + 1 } }
  match Chains.removeOldest q.entries with
  | (some v, entries) =>
    send { q with entries := entries, counter := q.counter.subResource v.resourceLength } v none
  | (none, entries) => { q with entries := entries }

def meetNone (timeoutTime : Timestamp) (key : Nat) (item : MetaAppProto I) : SessionQueue I :=
  let (reqEnd, respEnd) := L7ProtocolInfoInterface.isReqRespEnd item.l7Info
  if item.needProtocolMerge ∧ (reqEnd ∨ respEnd) then
    { q with ignored := q.ignored ++ item.origin }
  else if (Chains.entries q.entries).length ≥ q.maxEntries then q.evict
  else
    let counter :=
      { q.counter with
        cached := q.counter.cached + 1
        cachedRequestResource := q.counter.cachedRequestResource + item.resourceLength }
    insertEntry { q with counter := counter } timeoutTime key item

/-- The log is sent as it is: it needs no partner. -/
def standsAlone (log : MetaAppProto I) : Bool :=
  !L7ProtocolInfoInterface.needsSessionAggregation log.l7Info ||
    decide (log.baseInfo.head.msgType = .session)

/-- `start_time + get_l7_timeout(proto)`. -/
def timeoutTime (config : LogParserConfig) (log : MetaAppProto I) : Timestamp :=
  wrappingAdd 64 log.baseInfo.startTime (config.getL7Timeout log.baseInfo.head.proto)

/-- A counted and stamped log. -/
def aggregateReceived (config : LogParserConfig) (item : MetaAppProto I) : Exec (SessionQueue I) :=
  if standsAlone item then .ok (q.send item.fillTimes none)
  else if timeoutTime config item ≤ q.windowStart then
    let counter := { q.counter with sendBeforeWindow := q.counter.sendBeforeWindow + 1 }
    .ok (send { q with counter := counter } item none)
  else
    match Chains.find item.calcKey q.entries with
    | some (_, v) => q.meetCached (timeoutTime config item) item.calcKey v item
    | none => .ok (q.meetNone (timeoutTime config item) item.calcKey item)

def aggregateSessionAndSend (config : LogParserConfig) : AppProto I → Exec (SessionQueue I)
  | .socketClosed s => .ok (q.closeSocket s)
  | .metaAppProto item =>
    if config.l7LogIgnoreTapSides item.baseInfo.tapSide then .ok q
    else q.countReceived.aggregateReceived config (q.stamp item)

def flush : SessionQueue I :=
  let (items, entries) :=
    Chains.drain (fun _ => true) (Chains.entries q.entries).length q.entries
  { q with
    entries := entries
    sent := q.sent ++ items.map fun item => (item, none)
    counter := { q.counter with cached := 0, cachedRequestResource := 0 } }

/-- The callback of `flush_till`: the log is sent as timed out and dropped. -/
def sendTimeout :
    Callback Timestamp (MetaAppProto I)
      (SessionAggrCounter × List (MetaAppProto I × Option L7ResponseStatus)) :=
  fun (counter, sent) item =>
    (none, item, counter.subCached.subResource item.resourceLength,
      sent ++ [(item, some .timeout)])

def flushTill (time : Timestamp) : SessionQueue I :=
  let ((counter, sent), entries) :=
    Chains.forwardTime time sendTimeout (q.counter, q.sent) q.entries
  { q with entries := entries, counter := counter, sent := sent, windowStart := time }

/-- The calls of the queue.  `resize` is the aggregator's update of
`max_entries`, which it makes before a flush. -/
inductive Call (I : Type) where
  | aggregate (config : LogParserConfig) (item : AppProto I)
  | flushTill (time : Timestamp)
  | flush
  | resize (maxEntries : Nat)

/-- One call. -/
def step : Call I → Exec (SessionQueue I)
  | .aggregate config item => q.aggregateSessionAndSend config item
  | .flushTill time => .ok (q.flushTill time)
  | .flush => .ok q.flush
  | .resize maxEntries => .ok { q with maxEntries := maxEntries }

/-- A DNS log about `example.com` on a flow, `delay` nanoseconds after a fixed
time. -/
def dnsLog (flowId delay : Nat) (msgType : LogMessageType)
    (answers : List (Nat × String × Nat)) : MetaAppProto DnsInfo where
  baseInfo :=
    { startTime := 10 ^ 18 + delay
      endTime := 10 ^ 18 + delay
      flowId := flowId
      signalSource := .packet
      tapSide := .client
      head := ⟨.dns, msgType, 0⟩ }
  l7Info :=
    { transId := 7
      queryName := "example.com"
      answers := answers
      isUnconcerned := false
      statusCode := if msgType = .response then some 0 else none
      capturedResponseByte := 0
      isOnBlacklist := false }

end SessionQueue

end ZeroTrace.Session
