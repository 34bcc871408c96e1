import ZeroTrace.Tagger

/-!
# Active hosts

An end of a flow that the platform does not know counts as active once it sent a
packet.  A cache remembers such ends by a word of 64 bits, and a later flow of the same
end without packets of its own is active as long as the cache remembers it.
-/

namespace ZeroTrace.Collector

open FlowGenerator Lru Lru.Crate

variable [Crate]

structure PossibleHost where
  cache : LruCache (BitVec 64) Bool

namespace PossibleHost

/-- `Ipv6Addr::segments`. -/
def segments (octets : Vector (BitVec 8) 16) : List (BitVec 16) :=
  [octets.get 0 ++ octets.get 1, octets.get 2 ++ octets.get 3, octets.get 4 ++ octets.get 5,
    octets.get 6 ++ octets.get 7, octets.get 8 ++ octets.get 9, octets.get 10 ++ octets.get 11,
    octets.get 12 ++ octets.get 13, octets.get 14 ++ octets.get 15]

/-- The segments folded into two, those at even and those at odd places. -/
def foldPairs : List (BitVec 16) → BitVec 16 × BitVec 16
  | a :: b :: rest => ((foldPairs rest).1 ^^^ a, (foldPairs rest).2 ^^^ b)
  | _ => (0, 0)

def getIp6Hash (octets : Vector (BitVec 8) 16) : BitVec 32 :=
  let hashes := foldPairs (segments octets)
  hashes.1.setWidth 32 <<< 16 ||| hashes.2.setWidth 32

def genKey (host : IpAddr) (epcId : BitVec 32) : BitVec 64 :=
  match host with
  | .v4 octets => (word4 octets).setWidth 64 ||| (epcId &&& 0xffff#32).setWidth 64 <<< 32
  | .v6 octets =>
    1#64 <<< 48 ||| (epcId &&& 0xffff#32).setWidth 64 <<< 32 ||| (getIp6Hash octets).setWidth 64

def add (hosts : PossibleHost) (host : IpAddr) (epcId : BitVec 32) : PossibleHost :=
  ⟨(hosts.cache.put (genKey host epcId) true).2⟩

/-- `check`, which uses the entry that it finds. -/
def check (hosts : PossibleHost) (host : IpAddr) (epcId : BitVec 32) : Bool × PossibleHost :=
  let (found, cache) := hosts.cache.get (genKey host epcId)
  (found.isSome, ⟨cache⟩)

end PossibleHost

def checkActiveHost (hosts : Option PossibleHost) (peer : PeerInfo) (ip : IpAddr) :
    Bool × Option PossibleHost :=
  if peer.isActiveHost ∨ peer.l3EpcId = epcInternet then (peer.isActiveHost, hosts)
  else if peer.isDevice then (true, hosts)
  else
    match hosts with
    | some hosts =>
      if peer.hasPackets then (true, some (hosts.add ip peer.l3EpcId))
      else
        let (found, hosts) := hosts.check ip peer.l3EpcId
        (found, some hosts)
    | none => (false, none)

/-- `check_active`, for the source and then for the destination. -/
def checkActive (hosts : Option PossibleHost) (flow : MiniFlow) :
    (Bool × Bool) × Option PossibleHost :=
  let (active0, hosts) := checkActiveHost hosts flow.peerSrc flow.flowKey.ipSrc
  let (active1, hosts) := checkActiveHost hosts flow.peerDst flow.flowKey.ipDst
  ((active0, active1), hosts)

end ZeroTrace.Collector
