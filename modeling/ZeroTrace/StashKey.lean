import ZeroTrace.Tagger

/-!
# The stash of the collector

Documents wait in a hash map until their window ends.  A meter whose key is there is
merged into the document it finds, whatever the tags of that document are, so the key has
to hold all tags that count.  It packs most of them into one word of 128 bits, in a
layout that depends on the code of the tags; tags of a path put three of them into the
reserved bits of the capture port.
-/

namespace ZeroTrace.Collector

open RustExec FlowGenerator

namespace Code

/-- `StashKey::SINGLE_IP`. -/
def singleIp : Code :=
  .ip ||| .l3EpcId ||| .gpid ||| .vtapId ||| .protocol ||| .direction ||| .tapType

/-- `StashKey::SINGLE_IP_PORT`. -/
def singleIpPort : Code := singleIp ||| .serverPort

/-- `StashKey::SINGLE_MAC_IP_PORT`. -/
def singleMacIpPort : Code := singleIp ||| .mac ||| .serverPort

/-- `StashKey::SINGLE_IP_PORT_APP`. -/
def singleIpPortApp : Code := singleIp ||| .serverPort ||| .l7Protocol

/-- `StashKey::SINGLE_MAC_IP_PORT_APP`. -/
def singleMacIpPortApp : Code := singleIp ||| .serverPort ||| .mac ||| .l7Protocol

/-- `StashKey::EDGE_IP`. -/
def edgeIp : Code :=
  .ipPath ||| .l3EpcPath ||| .gpidPath ||| .vtapId ||| .protocol ||| .direction ||| .tapType |||
    .tapPort

/-- `StashKey::EDGE_IP_PORT`. -/
def edgeIpPort : Code := edgeIp ||| .serverPort

/-- `StashKey::EDGE_MAC_IP_PORT`. -/
def edgeMacIpPort : Code := edgeIp ||| .macPath ||| .serverPort

/-- `StashKey::EDGE_IP_PORT_APP`. -/
def edgeIpPortApp : Code := edgeIp ||| .serverPort ||| .l7Protocol

/-- `StashKey::EDGE_MAC_IP_PORT_APP`. -/
def edgeMacIpPortApp : Code := edgeIp ||| .macPath ||| .serverPort ||| .l7Protocol

/-- `StashKey::ACL`. -/
def acl : Code := .aclGid ||| .tunnelIpId ||| .vtapId

end Code

/-- `l7_protocol as u8`. -/
def l7Byte (l7Protocol : L7Protocol) : BitVec 8 := .ofNat 8 l7Protocol.toNat

structure StashKey where
  fastId : BitVec 128
  srcIp : IpAddr
  dstIp : IpAddr
  srcGpid : BitVec 32
  dstGpid : BitVec 32
  endpointHash : BitVec 32
  timeSpan : BitVec 32
  bizType : BitVec 8
  deriving DecidableEq

namespace StashKey

variable (t : Tagger)

/-- The tags of one end that every layout has at the same place. -/
def singleFields : BitVec 128 :=
  t.l3EpcId.setWidth 128 ||| t.protocol.value.setWidth 128 <<< 16 |||
    t.direction.toU8.setWidth 128 <<< 24 ||| t.serverPort.setWidth 128 <<< 32 |||
    t.tapType.toU16.setWidth 128 <<< 48

/-- The tags of a path that every layout has at the same place. -/
def edgeFields : BitVec 128 :=
  t.l3EpcId.setWidth 128 ||| t.l3EpcId1.setWidth 128 <<< 16 |||
    t.protocol.value.setWidth 128 <<< 32 ||| t.serverPort.setWidth 128 <<< 40 |||
    t.direction.toU8.setWidth 128 <<< 56

/-- The capture port with the capture network and more in its reserved bits. -/
def edgePort (tapPortReserve : BitVec 32) : BitVec 128 :=
  (t.tapPort.setReservedBytes (t.tapType.toU16.setWidth 32 ||| tapPortReserve)).bits.setWidth 128
    <<< 64

/-- The word of `StashKey::new`.  A plain path of the application layer does not write
its protocol. -/
def fastIdOf : Exec (BitVec 128) :=
  if t.code = .singleMacIpPortApp then
    .ok ((l7Byte t.l7Protocol).setWidth 128 <<< 64 ||| 1#128 <<< 59 |||
      (singleFields t ||| 3#128 <<< 56))
  else if t.code = .singleMacIpPort then
    .ok (1#128 <<< 59 ||| (singleFields t ||| 2#128 <<< 56))
  else if t.code = .singleIpPort then .ok (singleFields t ||| 1#128 <<< 56)
  else if t.code = .singleIpPortApp then
    .ok ((singleFields t ||| 4#128 <<< 56) ||| (l7Byte t.l7Protocol).setWidth 128 <<< 64)
  else if t.code = .edgeMacIpPortApp then
    .ok (edgeFields t |||
      edgePort t ((l7Byte t.l7Protocol).setWidth 32 <<< 8 ||| 3#32 <<< 16 ||| 1#32 <<< 19))
  else if t.code = .edgeMacIpPort then
    .ok (edgeFields t ||| edgePort t (2#32 <<< 16 ||| 1#32 <<< 19))
  else if t.code = .edgeIpPort then .ok (edgeFields t ||| edgePort t (1#32 <<< 16))
  else if t.code = .edgeIpPortApp then .ok (edgeFields t ||| edgePort t (4#32 <<< 16))
  else if t.code = .acl then
    .ok (t.aclGid.setWidth 128 ||| t.serverPort.setWidth 128 <<< 16)
  else .error .unreachable

/-- `StashKey::new`. -/
def new (srcIp : IpAddr) (dstIp : Option IpAddr) (endpointHash : BitVec 32) :
    Exec StashKey :=
  fastIdOf t >>= fun fastId =>
    .ok
      { fastId := fastId
        srcIp := srcIp
        dstIp := dstIp.getD .unspecified
        srcGpid := t.gpid
        dstGpid := t.gpid1
        endpointHash := endpointHash
        bizType := t.bizType
        timeSpan := t.timeSpan }

end StashKey

/-- What a document is made for: one end of a flow, the path between both, or a policy.
The code of the first two has the protocol of the application layer in it where the
meter is one of that layer. -/
inductive Entry where
  | single (ctx : Context) (flow : MiniFlow) (ep : Peer) (direction : Direction)
      (isActiveHost : Bool) (app : AppTags) (isL7 : Bool) (endpointHash : BitVec 32)
  | edge (ctx : Context) (flow : MiniFlow) (direction : Direction)
      (isActiveHost0 isActiveHost1 : Bool) (app : AppTags) (isL7 : Bool)
      (endpointHash : BitVec 32)
  | acl (ctx : Context) (flow : MiniFlow) (aclGid ipId : BitVec 16)

/-- `tagger.code |= Code::L7_PROTOCOL`, on the way of the application layer. -/
def Tagger.mark (t : Tagger) (isL7 : Bool) : Tagger :=
  if isL7 then { t with code := t.code ||| .l7Protocol } else t

namespace Entry

/-- The tags of a document. -/
def tagger : Entry → Tagger
  | single ctx flow ep direction isActiveHost app isL7 _ =>
    (getSingleTagger ctx flow ep direction isActiveHost app).mark isL7
  | edge ctx flow direction isActiveHost0 isActiveHost1 app isL7 _ =>
    (getEdgeTagger ctx flow direction isActiveHost0 isActiveHost1 app).mark isL7
  | acl ctx flow aclGid ipId =>
    { code := .acl
      aclGid := aclGid
      serverPort := ipId
      signalSource := flow.signalSource
      agentId := ctx.config.agentId }

/-- The key of a document, as the functions that fill the stash ask for it. -/
def key (e : Entry) : Exec StashKey :=
  match e with
  | single _ _ _ _ _ _ _ endpointHash => StashKey.new e.tagger e.tagger.ip none endpointHash
  | edge _ _ _ _ _ _ _ endpointHash =>
    StashKey.new e.tagger e.tagger.ip (some e.tagger.ip1) endpointHash
  | acl .. => StashKey.new e.tagger .unspecified none 0

end Entry

structure Document (M : Type) where
  tagger : Tagger
  meter : M

/-- `Stash`, without the time of its window. -/
structure Stash (M : Type) where
  inner : AList fun _ : StashKey => Document M
  output : List (Document M) := []

namespace Stash

variable {M : Type} [SequentialMerge M]

def empty : Stash M where
  inner := ∅

/-- `Stash::add`. -/
def add (stash : Stash M) (key : StashKey) (tagger : Tagger) (meter : M) : Stash M :=
  match stash.inner.lookup key with
  | some doc =>
    { stash with
      inner := stash.inner.insert key
        { doc with meter := SequentialMerge.sequentialMerge doc.meter meter } }
  | none => { stash with inner := stash.inner.insert key ⟨tagger, meter⟩ }

def addEntry (stash : Stash M) (e : Entry) (meter : M) : Exec (Stash M) :=
  e.key >>= fun key => .ok (stash.add key e.tagger meter)

def flushStats (stash : Stash M) : Stash M where
  inner := ∅
  output := stash.output ++ stash.inner.entries.map Sigma.snd

end Stash

/-- `FlowMeterWithFlow`, as the collector receives it. -/
structure AccFlow (M : Type) where
  flow : MiniFlow
  isActiveHost0 : Bool
  isActiveHost1 : Bool
  flowMeter : M

structure AppMeterWithFlow (M : Type) where
  flow : MiniFlow
  app : AppTags
  endpointHash : BitVec 32
  isActiveHost0 : Bool
  isActiveHost1 : Bool
  appMeter : M
  timeInSecond : Nat := 0

/-- The activity of one end. -/
def isActive (isActiveHost0 isActiveHost1 : Bool) : Peer → Bool
  | .src => isActiveHost0
  | .dst => isActiveHost1

/-- The documents that `fill_l4_stats` and `fill_l7_stats` have in common: that of the
path where the sides of both ends are known or unknown, and otherwise one of the end
whose side is known, if it counts, before that of the path. -/
def endsEntries (flow : MiniFlow) (ctx : Context) (isActiveHost0 isActiveHost1 : Bool)
    (single : Peer → Direction → Bool → List Entry) (edge : Direction → List Entry) : List Entry :=
  if Direction.ofEnds flow.directionSrc flow.directionDst = .none then
    edge (if flow.signalSource = .oTel then .app else .none)
  else
    [Peer.src, Peer.dst].flatMap fun ep =>
      if flow.direction ep = .none then []
      else
        (if !ctx.config.inactiveIpAggregation || isActive isActiveHost0 isActiveHost1 ep then
            single ep (flow.direction ep) (isActive isActiveHost0 isActiveHost1 ep)
          else []) ++
          edge (flow.direction ep)

/-- `fill_single_l4_stats`: whether a document of one end counts. -/
def countsSingleL4 (t : Tagger) : Bool :=
  t.direction == .serverToClient || t.direction == .clientToServer ||
    t.direction == .localToLocal || t.direction == .none

/-- `fill_edge_l4_stats`: whether a document of a path counts. -/
def countsEdgeL4 (t : Tagger) : Bool := t.signalSource == .packet || t.signalSource == .xFlow

/-- `fill_l4_stats`, by the documents it adds. -/
def fillL4Stats {M : Type} (ctx : Context) (acc : AccFlow M) : List Entry :=
  endsEntries acc.flow ctx acc.isActiveHost0 acc.isActiveHost1
    (fun ep direction isActiveHost =>
      [Entry.single ctx acc.flow ep direction isActiveHost {} false 0].filter fun e =>
        countsSingleL4 e.tagger)
    (fun direction =>
      [Entry.edge ctx acc.flow direction acc.isActiveHost0 acc.isActiveHost1 {} false 0].filter
        fun e => countsEdgeL4 e.tagger)

/-- The documents of a flow that no policy asks for: none if no end was active and
inactive ends are aggregated. -/
def flowEntriesL4 {M : Type} (ctx : Context) (acc : AccFlow M) : List Entry :=
  if !acc.isActiveHost0 && !acc.isActiveHost1 && ctx.config.inactiveIpAggregation then []
  else fillL4Stats ctx acc

/-- `fill_single_l7_stats`: whether a document of one end counts. -/
def countsSingleL7 (t : Tagger) : Bool :=
  (t.l7Protocol != .unknown || t.signalSource == .oTel) &&
    (t.direction == .clientToServer || t.direction == .serverToClient ||
      t.direction == .localToLocal || t.signalSource != .packet)

/-- `fill_edge_l7_stats`: whether a document of a path counts. -/
def countsEdgeL7 (t : Tagger) : Bool := t.l7Protocol != .unknown || t.signalSource == .oTel

/-- `fill_l7_stats`, by the documents it adds. -/
def fillL7Stats {M : Type} (ctx : Context) (meter : AppMeterWithFlow M) : List Entry :=
  endsEntries meter.flow ctx meter.isActiveHost0 meter.isActiveHost1
    (fun ep direction isActiveHost =>
      [Entry.single ctx meter.flow ep direction isActiveHost meter.app true
        meter.endpointHash].filter fun e => countsSingleL7 e.tagger)
    (fun direction =>
      [Entry.edge ctx meter.flow direction meter.isActiveHost0 meter.isActiveHost1 meter.app true
        meter.endpointHash].filter fun e => countsEdgeL7 e.tagger)

/-- `collect_l7`, by the documents that it adds for a meter in time. -/
def collectL7 {M : Type} (ctx : Context) (meter : AppMeterWithFlow M) : List Entry :=
  if !meter.isActiveHost0 && !meter.isActiveHost1 && ctx.config.inactiveIpAggregation then []
  else fillL7Stats ctx meter

end ZeroTrace.Collector
