import ZeroTrace.QuadrupleKey

/-!
# The quadruple generator of the application layer

`SubQuadGen` collects the meters of the application layer.  A meter belongs to a
flow, but most arrive before their flow does.  They wait in the slot of their time, in a
list for each flow, merged with those of the same tags; once statistics bring the flow
along, all meters of the list are handed on with it.  Meters of a flow that has ended are
sent at once, the others when the window leaves their slot.  What then still waits for
its flow is lost.

Times are in seconds, as in the generator of the layers below.
-/

namespace ZeroTrace.Collector.L7

open RustExec

structure AppTraffic where
  request : Nat := 0
  response : Nat := 0
  directionScore : Nat := 0
  deriving DecidableEq

structure AppLatency where
  rrtMax : Nat := 0
  rrtSum : Nat := 0
  rrtCount : Nat := 0
  deriving DecidableEq

structure AppAnomaly where
  clientError : Nat := 0
  serverError : Nat := 0
  timeout : Nat := 0
  deriving DecidableEq

structure AppMeter where
  traffic : AppTraffic := {}
  latency : AppLatency := {}
  anomaly : AppAnomaly := {}
  deriving DecidableEq

def AppTraffic.sequentialMerge (self other : AppTraffic) : AppTraffic where
  request := self.request + other.request
  response := self.response + other.response
  directionScore := max self.directionScore other.directionScore

def AppLatency.sequentialMerge (self other : AppLatency) : AppLatency where
  rrtMax := if self.rrtMax < other.rrtMax then other.rrtMax else self.rrtMax
  rrtSum := self.rrtSum + other.rrtSum
  rrtCount := self.rrtCount + other.rrtCount

def AppAnomaly.sequentialMerge (self other : AppAnomaly) : AppAnomaly where
  clientError := self.clientError + other.clientError
  serverError := self.serverError + other.serverError
  timeout := self.timeout + other.timeout

def AppMeter.sequentialMerge (self other : AppMeter) : AppMeter where
  traffic := self.traffic.sequentialMerge other.traffic
  latency := self.latency.sequentialMerge other.latency
  anomaly := self.anomaly.sequentialMerge other.anomaly

/-- `AppTraffic::is_empty`, whatever the score of the direction. -/
def AppTraffic.isEmpty (t : AppTraffic) : Bool := t.request == 0 && t.response == 0

def AppMeter.isEmpty (m : AppMeter) : Bool :=
  m.traffic.isEmpty && m.latency == {} && m.anomaly == {}

/-- `L7Stats`, without the counts that its meter is made from. -/
structure L7Stats where
  flow : Option Flow := none
  endpoint : Option String := none
  flowId : BitVec 64
  l7Protocol : L7Protocol := .unknown
  timeInSecond : Nat
  timeSpan : BitVec 32 := 0
  bizType : BitVec 8 := 0
  isReversed : Bool := false

/-- `AppMeterWithL7Protocol`: a meter that waits for its flow.  `app` has its endpoint, its
kind of business, its span of time, its protocol and whether it is reversed. -/
structure AppMeterWithL7Protocol where
  appMeter : AppMeter
  app : AppTags
  endpointHash : BitVec 32
  timeInSecond : Nat
  deriving DecidableEq

/-- `MetricsType`, by the generator it asks for. -/
inductive MetricsType where
  | second
  | minute
  deriving DecidableEq

structure QuadrupleStash where
  l7Stats : AList fun _ : BitVec 64 => List AppMeterWithL7Protocol
  meters : List (AppMeterWithFlow AppMeter)

def QuadrupleStash.new : QuadrupleStash := ⟨∅, []⟩

/-- `SubQuadGen`; `output` is all that was sent, and `dropBeforeWindow` a counter. -/
structure SubQuadGen where
  windowStart : Nat
  slotInterval : Nat
  numberOfSlots : Nat
  delaySeconds : Nat
  stashs : List QuadrupleStash
  closedAppMeters : List (AppMeterWithFlow AppMeter) := []
  dropBeforeWindow : Nat := 0
  output : List (AppMeterWithFlow AppMeter) := []

namespace SubQuadGen

/-- A generator as the constructor makes it. -/
def new (windowStart slotInterval numberOfSlots delaySeconds : Nat) : SubQuadGen where
  windowStart := windowStart
  slotInterval := slotInterval
  numberOfSlots := numberOfSlots
  delaySeconds := delaySeconds
  stashs := List.replicate numberOfSlots .new

/-- The generators of `L7QuadrupleGenerator`: that for seconds has as many slots as seconds
of delay. -/
def ofMetricsType (windowStart delaySeconds : Nat) : MetricsType → SubQuadGen
  | .second => new windowStart 1 delaySeconds delaySeconds
  | .minute => new windowStart 60 2 (resetDelaySeconds delaySeconds)

variable (g : SubQuadGen)

/-- `flush_stats`: the slot is sent without what waits in it, and an empty one takes its
place. -/
def flushStats (stashIndex : Nat) : Exec SubQuadGen :=
  unwrap (swapRemoveBack (g.stashs ++ [.new]) stashIndex) >>= fun (stash, stashs) =>
    .ok { g with stashs := stashs, output := g.output ++ stash.meters }

def flushSlots : Nat → Nat → SubQuadGen → Exec SubQuadGen
  | 0, _, g => .ok g
  | count + 1, i, g => g.flushStats i >>= flushSlots count (i + 1)

/-- The slots that the window has to leave for a time. -/
def slotsToShift (timeInSecond : Nat) : Nat :=
  (timeInSecond - g.windowStart - g.delaySeconds) / g.slotInterval + 1

/-- The body of the loop of `move_window`. -/
def shiftWindow (timeInSecond : Nat) : Exec SubQuadGen :=
  let slotsToShift := g.slotsToShift timeInSecond
  (if g.numberOfSlots ≤ slotsToShift then flushSlots g.stashs.length 0 g
    else
      flushSlots slotsToShift 0 g >>= fun g =>
        rotateLeft g.stashs slotsToShift >>= fun stashs => .ok { g with stashs := stashs }) >>=
    fun g => .ok { g with windowStart := g.windowStart + g.slotInterval * slotsToShift }

/-- The loop of `move_window`. -/
def moveLoop (timeInSecond : Nat) : Nat → SubQuadGen → Exec SubQuadGen
  | 0, _ => .error .outOfFuel
  | fuel + 1, g =>
    if g.windowStart + g.delaySeconds ≤ timeInSecond then
      g.shiftWindow timeInSecond >>= moveLoop timeInSecond fuel
    else .ok g

/-- `move_window`.  The bound on the rounds of the loop is shown to be enough. -/
def moveWindow (timeInSecond : Nat) : Exec (Bool × SubQuadGen) :=
  if timeInSecond < g.windowStart then
    .ok (false, { g with dropBeforeWindow := g.dropBeforeWindow + 1 })
  else moveLoop timeInSecond 2 g >>= fun g => .ok (true, g)

/-- `push_closed_app_meter`: the meters are sent when there are enough of them. -/
def pushClosedAppMeter (m : AppMeterWithFlow AppMeter) : SubQuadGen :=
  let closedAppMeters := g.closedAppMeters ++ [m]
  if queueBatchSize ≤ closedAppMeters.length then
    { g with closedAppMeters := [], output := g.output ++ closedAppMeters }
  else { g with closedAppMeters := closedAppMeters }

/-- The slot of a time, the last one for all that is later. -/
def slotFor (timeInSecond : Nat) : Exec Nat :=
  checkedSub g.stashs.length 1 >>= fun last =>
    .ok (min ((timeInSecond - g.windowStart) / g.slotInterval) last)

/-- The span of time between request and response, in slots. -/
def timeSpanFor (l7Stats : L7Stats) (timeInSecond : Nat) : Exec (BitVec 32) :=
  let currentSpan := timeInSecond / g.slotInterval
  checkedSub timeInSecond l7Stats.timeSpan.toNat >>= fun request =>
    checkedSub currentSpan (request / g.slotInterval) >>= fun span => .ok (.ofNat 32 span)

end SubQuadGen

/-- The meter of statistics, as it waits for its flow. -/
def AppMeterWithL7Protocol.ofStats (l7Stats : L7Stats) (appMeter : AppMeter)
    (endpointHash : BitVec 32) (timeInSecond : Nat) (timeSpan : BitVec 32) :
    AppMeterWithL7Protocol where
  appMeter := appMeter
  app :=
    { endpoint := l7Stats.endpoint
      bizType := l7Stats.bizType
      timeSpan := timeSpan
      l7Protocol := l7Stats.l7Protocol
      isReversed := l7Stats.isReversed }
  endpointHash := endpointHash
  timeInSecond := timeInSecond

/-- A meter joins the first one that waits with its tags, or the end of the list. -/
def accumulate : List AppMeterWithL7Protocol → AppMeterWithL7Protocol →
    List AppMeterWithL7Protocol
  | [], meter => [meter]
  | m :: meters, meter =>
    if m.app = meter.app then
      { m with appMeter := m.appMeter.sequentialMerge meter.appMeter } :: meters
    else m :: accumulate meters meter

/-- A waiting meter with its flow.  The span of time is not its own: it is that of the
statistics that bring the flow. -/
def AppMeterWithL7Protocol.withFlow (m : AppMeterWithL7Protocol) (flow : MiniFlow)
    (active : Bool × Bool) (timeSpan : BitVec 32) : AppMeterWithFlow AppMeter where
  flow := flow
  app := { m.app with timeSpan := timeSpan }
  endpointHash := m.endpointHash
  isActiveHost0 := active.1
  isActiveHost1 := active.2
  appMeter := m.appMeter
  timeInSecond := m.timeInSecond

/-- What is handed on of the meters that wait: all that are not empty. -/
def notEmpty (meters : List AppMeterWithL7Protocol) : List AppMeterWithL7Protocol :=
  meters.filter fun m => !m.appMeter.isEmpty

/-- A flow that has ended. -/
def IsClosed (closeType : CloseType) : Prop := closeType ≠ .unknown ∧ closeType ≠ .forcedReport

instance (closeType : CloseType) : Decidable (IsClosed closeType) :=
  inferInstanceAs (Decidable (_ ∧ _))

namespace SubQuadGen

variable [Lru.Crate] (g : SubQuadGen) (slot : Nat) (stash : QuadrupleStash)

/-- Meters with their flow are sent if it has ended, and wait in their slot otherwise. -/
def handOn (closeType : CloseType) (meters : List (AppMeterWithFlow AppMeter)) : Exec SubQuadGen :=
  if IsClosed closeType then
    store g.stashs slot stash >>= fun stashs =>
      .ok (meters.foldl pushClosedAppMeter { g with stashs := stashs })
  else
    store g.stashs slot { stash with meters := stash.meters ++ meters } >>= fun stashs =>
      .ok { g with stashs := stashs }

/-- The meters of a flow are kept waiting. -/
def keep (flowId : BitVec 64) (meters : List AppMeterWithL7Protocol) : Exec SubQuadGen :=
  store g.stashs slot { stash with l7Stats := stash.l7Stats.insert flowId meters } >>=
    fun stashs => .ok { g with stashs := stashs }

/-- `inject_app_meter`, where meters of the flow wait in the slot, or did: the list stays
when it was emptied. -/
def injectWaiting (l7Stats : L7Stats)
    (meters : List AppMeterWithL7Protocol) (meter : AppMeterWithL7Protocol)
    (possibleHost : Option PossibleHost) : Exec (SubQuadGen × Option PossibleHost) :=
  let meters := accumulate meters meter
  match l7Stats.flow with
  | some flow =>
    let (active, possibleHost) := checkActive possibleHost flow.mini
    g.handOn slot { stash with l7Stats := stash.l7Stats.insert l7Stats.flowId [] } flow.closeType
      ((notEmpty meters).map fun m => m.withFlow flow.mini active meter.app.timeSpan) >>=
      fun g => .ok (g, possibleHost)
  | none => g.keep slot stash l7Stats.flowId meters >>= fun g => .ok (g, possibleHost)

/-- `inject_app_meter`, where none waits. -/
def injectAlone (l7Stats : L7Stats)
    (meter : AppMeterWithL7Protocol) (possibleHost : Option PossibleHost) :
    Exec (SubQuadGen × Option PossibleHost) :=
  if meter.appMeter.isEmpty then .ok (g, possibleHost)
  else
    match l7Stats.flow with
    | some flow =>
      let (active, possibleHost) := checkActive possibleHost flow.mini
      g.handOn slot stash flow.closeType
        [{ meter.withFlow flow.mini active meter.app.timeSpan with
            timeInSecond := l7Stats.timeInSecond }] >>=
        fun g => .ok (g, possibleHost)
    | none => g.keep slot stash l7Stats.flowId [meter] >>= fun g => .ok (g, possibleHost)

def injectAppMeter (l7Stats : L7Stats) (appMeter : AppMeter)
    (endpointHash : BitVec 32) (timeInSecond : Nat) (possibleHost : Option PossibleHost) :
    Exec (SubQuadGen × Option PossibleHost) :=
  if timeInSecond < g.windowStart then
    .ok ({ g with dropBeforeWindow := g.dropBeforeWindow + 1 }, possibleHost)
  else
    g.slotFor timeInSecond >>= fun slot =>
      g.timeSpanFor l7Stats timeInSecond >>= fun timeSpan =>
        index g.stashs slot >>= fun stash =>
          let meter := .ofStats l7Stats appMeter endpointHash timeInSecond timeSpan
          match stash.l7Stats.lookup l7Stats.flowId with
          | some meters => g.injectWaiting slot stash l7Stats meters meter possibleHost
          | none => g.injectAlone slot stash l7Stats meter possibleHost

end SubQuadGen

end ZeroTrace.Collector.L7
