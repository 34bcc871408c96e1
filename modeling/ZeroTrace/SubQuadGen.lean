import ZeroTrace.FlowKey
import ZeroTrace.LruCache
import ZeroTrace.RunInvariants

/-!
# The quadruple generator

`SubQuadGen` merges the reports of flows by key and by slot of time.  Its slots are a
deque of tables over a window that moves with the time of the reports: the slots
that the window leaves are sent and become the last, empty ones.  A parallel deque
counts the connections of every key, and what is still alive in a slot that was sent
is carried into the next one.

The tables for IPv4 and IPv6 keys are two, chosen by the key.  Of a meter only the
counts that the load of a flow depends on are written out; the rest, with the maps of
policy ids that are merged along with it, is any type with a merge.  Times are in full
seconds.  Reports and the window have no others; the time of a tick has, but only the
comparison with `CONCURRENT_TIMEOUT` sees more of it, and here as of its full second.
-/

namespace ZeroTrace.Collector

open RustExec Lru FlowGenerator
open Lru.Crate (LruCache)

inductive CloseType where
  | unknown
  | finish
  | tcpServerRst
  | timeout
  | forcedReport
  | clientSynRepeat
  | serverHalfClose
  | tcpClientRst
  | serverSynAckRepeat
  | clientHalfClose
  | clientSourcePortReuse
  | serverReset
  | serverQueueLack
  | clientEstablishReset
  | serverEstablishReset
  | tcpFinClientRst
  | max
  deriving DecidableEq

/-- `QgKey`, by the family of its addresses. -/
structure QgKey (K : Type) where
  isV6 : Bool
  bytes : K
  deriving DecidableEq

/-- What a meter is made of, as far as it is only merged. -/
class SequentialMerge (M : Type) where
  sequentialMerge : M → M → M

/-- A meter that is one count. -/
instance : SequentialMerge Nat := ⟨Nat.add⟩

structure FlowMeter (M : Type) where
  newFlow : Nat := 0
  closedFlow : Nat := 0
  load : Nat := 0
  flowCount : Nat := 0
  rest : M
  deriving DecidableEq

/-- `FlowMeter::sequential_merge`, with that of `FlowLoad` at its end. -/
def FlowMeter.sequentialMerge {M : Type} [SequentialMerge M] (self other : FlowMeter M) :
    FlowMeter M :=
  let load := self.flowCount + other.newFlow
  { newFlow := self.newFlow + other.newFlow
    closedFlow := self.closedFlow + other.closedFlow
    load := load
    flowCount := load - other.closedFlow
    rest := SequentialMerge.sequentialMerge self.rest other.rest }

/-- The part of a `TaggedFlow` that is read here. -/
structure TaggedFlow where
  proto : IpProtocol
  signalSource : SignalSource
  isNewFlow : Bool
  closeType : CloseType
  deriving DecidableEq

/-- Connections are counted over TCP and UDP. -/
def IsConnection (proto : IpProtocol) : Prop := proto = .tcp ∨ proto = .udp

instance (proto : IpProtocol) : Decidable (IsConnection proto) :=
  inferInstanceAs (Decidable (_ ∨ _))

structure FlowMeterWithFlow (K M : Type) where
  flow : TaggedFlow
  flowMeter : FlowMeter M
  key : QgKey K
  timeInSecond : Nat
  deriving DecidableEq

/-- What `inject_flow` is called with. -/
structure Report (K M : Type) where
  taggedFlow : TaggedFlow
  flowMeter : FlowMeter M
  key : QgKey K
  timeInSecond : Nat
  deriving DecidableEq

variable {K M : Type}

def FlowMeterWithFlow.merge [SequentialMerge M] (acc : FlowMeterWithFlow K M) (r : Report K M) :
    FlowMeterWithFlow K M :=
  let acc := { acc with timeInSecond := r.timeInSecond }
  if r.taggedFlow.signalSource = .packet ∨ r.taggedFlow.signalSource = .xFlow then
    { acc with flowMeter := acc.flowMeter.sequentialMerge r.flowMeter }
  else acc

/-- The first report of a key in a slot. -/
def FlowMeterWithFlow.ofReport (r : Report K M) : FlowMeterWithFlow K M where
  flow := r.taggedFlow
  flowMeter := r.flowMeter
  key := r.key
  timeInSecond := r.timeInSecond

/-- `QuadrupleStash`: a table for each family of addresses. -/
structure QuadrupleStash (K M : Type) where
  flows : Bool → AList fun _ : K => FlowMeterWithFlow K M

def QuadrupleStash.new : QuadrupleStash K M := ⟨fun _ => ∅⟩

variable [Crate]

/-- `Lru`, a cache that doubles until it has its largest size. -/
structure GrowingLru (K V : Type) where
  cache : LruCache K V
  initCap : Nat
  maxCap : Nat
  cap : Nat

namespace GrowingLru

variable {V : Type}

def withCapacity (initCap maxCap : Nat) : GrowingLru K V :=
  let initCap := initCap.nextPowerOfTwo
  { cache := .new initCap
    initCap := initCap
    maxCap := max maxCap.nextPowerOfTwo initCap
    cap := initCap }

def clear (l : GrowingLru K V) : GrowingLru K V :=
  { l with cache := .new l.initCap, cap := l.initCap }

def put [DecidableEq K] (l : GrowingLru K V) (k : K) (v : V) : GrowingLru K V :=
  let (old, cache) := l.cache.put k v
  if old.isNone ∧ l.cap ≤ cache.len ∧ l.cap < l.maxCap then
    { l with cache := cache.resize (2 * l.cap), cap := 2 * l.cap }
  else { l with cache := cache }

/-- What is written through the reference of `get_mut`, where there is one. -/
def modify [DecidableEq K] (l : GrowingLru K V) (k : K) (change : V → V) : GrowingLru K V :=
  match l.cache.peek k with
  | some v => { l with cache := l.cache.place k (change v) }
  | none => l

end GrowingLru

structure QuadrupleConnections where
  sum : Int
  living : Int
  timeInSecond : Nat
  deriving DecidableEq

def concurrentTimeout : Nat := 300

/-- `ConcurrentConnection`: a table for each family of addresses. -/
structure ConcurrentConnection (K : Type) where
  connections : Bool → GrowingLru K QuadrupleConnections

namespace ConcurrentConnection

def withCapacity (capacity : Nat) : ConcurrentConnection K :=
  ⟨fun _ => .withCapacity (capacity >>> 5) capacity⟩

def clear (c : ConcurrentConnection K) : ConcurrentConnection K :=
  ⟨fun family => (c.connections family).clear⟩

variable [DecidableEq K]

/-- Carry one entry of the slot before into a table. -/
def carry (timeInSecond : Nat) (table : GrowingLru K QuadrupleConnections) (k : K)
    (v : QuadrupleConnections) : GrowingLru K QuadrupleConnections :=
  if timeInSecond > v.timeInSecond + concurrentTimeout then table
  else if v.living ≤ 0 then table
  else
    match table.cache.peek k with
    | some _ =>
      table.modify k fun d => { d with living := d.living + v.living, sum := d.sum + v.living }
    | none => table.put k ⟨v.living, v.living, v.timeInSecond⟩

/-- `merge`, over both families. -/
def merge (self : ConcurrentConnection K) (timeInSecond : Nat) (other : ConcurrentConnection K) :
    ConcurrentConnection K :=
  ⟨fun family =>
    (other.connections family).cache.store.entries.foldl
      (fun table e => carry timeInSecond table e.1 e.2) (self.connections family)⟩

variable (c : ConcurrentConnection K) (key : QgKey K)

/-- Exchange the table of a key. -/
def write (table : GrowingLru K QuadrupleConnections) : ConcurrentConnection K :=
  ⟨Function.update c.connections key.isV6 table⟩

/-- The entry of a key. -/
def peek : Option QuadrupleConnections :=
  (c.connections key.isV6).cache.peek key.bytes

def getConcurrent (timeInSecond : Nat) (key : QgKey K) : Nat × ConcurrentConnection K :=
  match c.peek key with
  | some v =>
    (if v.sum ≤ 0 then 1 else v.sum.toNat,
      c.write key ((c.connections key.isV6).modify key.bytes fun d =>
        { d with timeInSecond := timeInSecond }))
  | none => (1, c)

def addConnection (timeInSecond : Nat) (key : QgKey K) : ConcurrentConnection K :=
  let table := c.connections key.isV6
  match c.peek key with
  | some _ =>
    c.write key (table.modify key.bytes fun d =>
      { sum := d.sum + 1, living := d.living + 1, timeInSecond := timeInSecond })
  | none => c.write key (table.put key.bytes ⟨1, 1, timeInSecond⟩)

def deleteConnection (timeInSecond : Nat) (key : QgKey K)
    (isNewFlow : Bool) : ConcurrentConnection K :=
  let table := c.connections key.isV6
  match c.peek key with
  | some _ =>
    c.write key (table.modify key.bytes fun d =>
      if isNewFlow then { d with sum := d.sum + 1, timeInSecond := timeInSecond }
      else { d with living := d.living - 1, timeInSecond := timeInSecond })
  | none =>
    c.write key (table.put key.bytes
      (if isNewFlow then ⟨1, 0, timeInSecond⟩ else ⟨0, -1, timeInSecond⟩))

end ConcurrentConnection

def queueBatchSize : Nat := 1024

def secondsInMinute : Nat := 60

def resetDelaySeconds (delaySeconds : Nat) : Nat :=
  if secondsInMinute ≤ delaySeconds ∧ delaySeconds < secondsInMinute * 2 then delaySeconds
  else if delaySeconds < secondsInMinute then secondsInMinute
  else secondsInMinute * 2 - 1

/-- `SubQuadGen`; `output` is all that was sent, and `dropBeforeWindow` a counter. -/
structure SubQuadGen (K M : Type) where
  windowStart : Nat
  slotInterval : Nat
  numberOfSlots : Nat
  delaySeconds : Nat
  stashs : List (QuadrupleStash K M)
  connections : Option (List (ConcurrentConnection K))
  dropBeforeWindow : Nat := 0
  output : List (FlowMeterWithFlow K M) := []

def swapRemoveBack {α : Type} (xs : List α) (i : Nat) : Option (α × List α) :=
  match xs[i]?, xs.getLast? with
  | some x, some last => some (x, (xs.set i last).dropLast)
  | _, _ => none

/-- `rotate_left`, which asserts that it does not go past the end. -/
def rotateLeft {α : Type} (xs : List α) (k : Nat) : Exec (List α) :=
  if k ≤ xs.length then .ok (xs.drop k ++ xs.take k) else .error .assertFailed

namespace SubQuadGen

/-- A generator as the constructor makes it. -/
def new (windowStart slotInterval numberOfSlots delaySeconds : Nat)
    (connectionLruCapacity : Option Nat) : SubQuadGen K M where
  windowStart := windowStart
  slotInterval := slotInterval
  numberOfSlots := numberOfSlots
  delaySeconds := delaySeconds
  stashs := List.replicate numberOfSlots .new
  connections := connectionLruCapacity.map fun capacity =>
    List.replicate numberOfSlots (.withCapacity capacity)

/-- The generator for seconds: as many slots as seconds of delay. -/
def second (windowStart secondDelaySeconds : Nat) (connectionLruCapacity : Option Nat) :
    SubQuadGen K M :=
  new windowStart 1 secondDelaySeconds secondDelaySeconds connectionLruCapacity

/-- The generator for minutes. -/
def minute (windowStart minuteDelaySeconds : Nat) (connectionLruCapacity : Option Nat) :
    SubQuadGen K M :=
  new windowStart 60 2 (resetDelaySeconds minuteDelaySeconds) connectionLruCapacity

variable [DecidableEq K]

/-- The load of one meter, which only connections have. -/
def setLoad (acc : FlowMeterWithFlow K M) (connection : Option (ConcurrentConnection K)) :
    FlowMeterWithFlow K M × Option (ConcurrentConnection K) :=
  if IsConnection acc.flow.proto then
    let (load, connection) :=
      match connection with
      | some current =>
        let (load, current) := current.getConcurrent acc.timeInSecond acc.key
        (load, some current)
      | none => (acc.flowMeter.load, none)
    ({ acc with
        flowMeter :=
          { acc.flowMeter with load := load, flowCount := load - acc.flowMeter.closedFlow } },
      connection)
  else (acc, connection)

/-- The loop of `set_connection`. -/
def setLoads : List (FlowMeterWithFlow K M) → Option (ConcurrentConnection K) →
    List (FlowMeterWithFlow K M) × Option (ConcurrentConnection K)
  | [], connection => ([], connection)
  | acc :: accs, connection =>
    let (acc, connection) := setLoad acc connection
    let (accs, connection) := setLoads accs connection
    (acc :: accs, connection)

/-- `set_connection`, which leaves a batch alone that starts with data from eBPF. -/
def setConnection (flows : List (FlowMeterWithFlow K M))
    (connection : Option (ConcurrentConnection K)) :
    List (FlowMeterWithFlow K M) × Option (ConcurrentConnection K) :=
  match flows with
  | [] => ([], connection)
  | acc :: _ => if acc.flow.signalSource = .ebpf then (flows, connection)
    else setLoads flows connection

/-- The values of a table are sent in batches. -/
def sendValues : List (FlowMeterWithFlow K M) → List (FlowMeterWithFlow K M) →
    Option (ConcurrentConnection K) →
    List (FlowMeterWithFlow K M) × Option (ConcurrentConnection K)
  | [], batchBuffer, connection => setConnection batchBuffer connection
  | flow :: values, batchBuffer, connection =>
    let batchBuffer := batchBuffer ++ [flow]
    if queueBatchSize ≤ batchBuffer.length then
      let (sent, connection) := setConnection batchBuffer connection
      let (rest, connection) := sendValues values [] connection
      (sent ++ rest, connection)
    else sendValues values batchBuffer connection

def valuesOf (table : AList fun _ : K => FlowMeterWithFlow K M) : List (FlowMeterWithFlow K M) :=
  table.entries.map fun e => e.2

variable (g : SubQuadGen K M)

/-- `flush_flow`: the slot is sent, and an empty one takes its place. -/
def flushFlow (stashIndex : Nat) (connection : Option (ConcurrentConnection K)) :
    Exec (SubQuadGen K M × Option (ConcurrentConnection K)) :=
  unwrap (swapRemoveBack (g.stashs ++ [.new]) stashIndex) >>= fun (stash, stashs) =>
    let (v4, connection) := sendValues (valuesOf (stash.flows false)) [] connection
    let (v6, connection) := sendValues (valuesOf (stash.flows true)) [] connection
    .ok ({ g with stashs := stashs, output := g.output ++ v4 ++ v6 }, connection)

/-- The loop over the slots to send, without connections. -/
def flushSlots : Nat → Nat → SubQuadGen K M → Exec (SubQuadGen K M)
  | 0, _, g => .ok g
  | count + 1, i, g => g.flushFlow i none >>= fun (g, _) => flushSlots count (i + 1) g

/-- `current[0].merge(time_in_second, &front)`. -/
def mergeFront (current : List (ConcurrentConnection K)) (timeInSecond : Nat)
    (front : ConcurrentConnection K) : Exec (List (ConcurrentConnection K)) :=
  index current 0 >>= fun next => store current 0 (next.merge timeInSecond front)

/-- The same loop with connections: those of the slot go on into the next one, and
its table, cleared, becomes the last one. -/
def flushConnected (timeInSecond : Nat) : Nat → Nat → List (ConcurrentConnection K) →
    SubQuadGen K M → Exec (SubQuadGen K M × List (ConcurrentConnection K))
  | 0, _, current, g => .ok (g, current)
  | count + 1, i, current, g =>
    g.flushFlow i current.head? >>= fun (g, front) =>
      unwrap front >>= fun front =>
        mergeFront current.tail timeInSecond front >>= fun current =>
          flushConnected timeInSecond count (i + 1) (current ++ [front.clear]) g

/-- Send `count` slots from the front. -/
def flushFront (timeInSecond count : Nat) : Exec (SubQuadGen K M) :=
  match g.connections with
  | some current =>
    flushConnected timeInSecond count 0 current { g with connections := none } >>=
      fun (g, current) => .ok { g with connections := some current }
  | none => flushSlots count 0 g

/-- The slots that the window has to leave for a time. -/
def slotsToShift (timeInSecond : Nat) : Nat :=
  (timeInSecond - g.windowStart - g.delaySeconds) / g.slotInterval + 1

/-- The body of the loop of `move_window`. -/
def shiftWindow (timeInSecond : Nat) : Exec (SubQuadGen K M) :=
  let slotsToShift := g.slotsToShift timeInSecond
  (if g.numberOfSlots ≤ slotsToShift then g.flushFront timeInSecond g.stashs.length
    else
      g.flushFront timeInSecond slotsToShift >>= fun g =>
        rotateLeft g.stashs slotsToShift >>= fun stashs => .ok { g with stashs := stashs }) >>=
    fun g => .ok { g with windowStart := g.windowStart + g.slotInterval * slotsToShift }

/-- The loop of `move_window`. -/
def moveLoop (timeInSecond : Nat) : Nat → SubQuadGen K M → Exec (SubQuadGen K M)
  | 0, _ => .error .outOfFuel
  | fuel + 1, g =>
    if g.windowStart + g.delaySeconds ≤ timeInSecond then
      g.shiftWindow timeInSecond >>= moveLoop timeInSecond fuel
    else .ok g

/-- `move_window`.  The bound on the rounds of the loop is shown to be enough. -/
def moveWindow (timeInSecond : Nat) : Exec (Bool × SubQuadGen K M) :=
  if timeInSecond < g.windowStart then
    .ok (false, { g with dropBeforeWindow := g.dropBeforeWindow + 1 })
  else moveLoop timeInSecond 2 g >>= fun g => .ok (true, g)

def countConnection (c : ConcurrentConnection K) (r : Report K M) : ConcurrentConnection K :=
  if r.taggedFlow.isNewFlow ∧ r.taggedFlow.closeType = .forcedReport then
    c.addConnection r.timeInSecond r.key
  else if r.taggedFlow.closeType ≠ .forcedReport then
    c.deleteConnection r.timeInSecond r.key r.taggedFlow.isNewFlow
  else c

def mergeReport [SequentialMerge M] (stash : QuadrupleStash K M) (r : Report K M) :
    QuadrupleStash K M :=
  let table := stash.flows r.key.isV6
  let acc :=
    match table.lookup r.key.bytes with
    | some acc => acc.merge r
    | none => .ofReport r
  ⟨Function.update stash.flows r.key.isV6 (table.insert r.key.bytes acc)⟩

def injectFlow [SequentialMerge M] (g : SubQuadGen K M) (r : Report K M) :
    Exec (SubQuadGen K M) :=
  checkedSub r.timeInSecond g.windowStart >>= fun since =>
    let slot := since / g.slotInterval
    index g.stashs slot >>= fun stash =>
      (if IsConnection r.taggedFlow.proto ∧ r.taggedFlow.signalSource = .packet then
        match g.connections with
        | some current =>
          index current slot >>= fun c =>
            store current slot (countConnection c r) >>= fun current => .ok (some current)
        | none => .ok none
      else .ok g.connections) >>= fun connections =>
        store g.stashs slot (mergeReport stash r) >>= fun stashs =>
          .ok { g with stashs := stashs, connections := connections }

/-- The loop of `flush_all_flow` with connections, which are collected in `tmp`. -/
def flushAllConnected (connections : List (ConcurrentConnection K)) : Nat → Nat →
    ConcurrentConnection K → SubQuadGen K M → Exec (SubQuadGen K M)
  | 0, _, _, g => .ok g
  | count + 1, i, tmp, g =>
    index connections i >>= fun connection =>
      g.flushFlow i (some (tmp.merge 0 connection)) >>= fun (g, tmp) =>
        unwrap tmp >>= fun tmp => flushAllConnected connections count (i + 1) tmp g

def flushAllFlow : Exec (SubQuadGen K M) :=
  match g.connections with
  | some connections =>
    flushAllConnected connections g.stashs.length 0 (.withCapacity (1 <<< 13)) g
  | none => flushSlots g.stashs.length 0 g

/-- What the generator is driven by: a report, or only the time. -/
inductive Input (K M : Type) where
  | report (r : Report K M)
  | tick (timeInSecond : Nat)

/-- The window is moved, and a report that it lets in is injected. -/
def step [SequentialMerge M] (g : SubQuadGen K M) : Input K M → Exec (SubQuadGen K M)
  | .report r =>
    g.moveWindow r.timeInSecond >>= fun (inside, g) => if inside then g.injectFlow r else .ok g
  | .tick timeInSecond => g.moveWindow timeInSecond >>= fun (_, g) => .ok g

end SubQuadGen

end ZeroTrace.Collector
