import Mathlib.Algebra.Order.Ring.Nat

/-!
# Parsed logs of the application protocols

The enumerations that every parsed log carries, and the part of the trait
`L7ProtocolInfoInterface` that the session queue calls.  The queue is generic
in the log of the protocol, as the source is through its trait; `DnsInfo` is
the protocol whose merge is modelled in full.
-/

namespace ZeroTrace

inductive LogMessageType where
  | request
  | response
  | session
  | other
  | max
  deriving DecidableEq

inductive L7ResponseStatus where
  | ok
  | timeout
  | serverError
  | clientError
  | unknown
  | parseFailed
  deriving DecidableEq

inductive PacketDirection where
  | clientToServer
  | serverToClient
  deriving DecidableEq

/-- `SignalSource`: where the data of a flow come from. -/
inductive SignalSource where
  | packet
  | xFlow
  | ebpf
  | oTel
  deriving DecidableEq

inductive EbpfType where
  | tracePoint
  | tlsUprobe
  | goHttp2Uprobe
  | goHttp2UprobeData
  | ioEvent
  | unixSocket
  | none
  deriving DecidableEq

inductive L7Protocol where
  | unknown
  | http1
  | http2
  | dubbo
  | grpc
  | sofaRpc
  | fastCgi
  | brpc
  | tars
  | someIp
  | iso8583
  | triple
  | mySql
  | postgreSql
  | oracle
  | redis
  | mongoDb
  | memcached
  | kafka
  | mqtt
  | amqp
  | openWire
  | nats
  | pulsar
  | zmtp
  | rocketMq
  | webSphereMq
  | dns
  | tls
  | ping
  | custom
  | max
  deriving DecidableEq

/-- `proto as u8`: the discriminants of the enumeration. -/
def L7Protocol.toNat : L7Protocol → Nat
  | .unknown => 0
  | .http1 => 20
  | .http2 => 21
  | .dubbo => 40
  | .grpc => 41
  | .sofaRpc => 43
  | .fastCgi => 44
  | .brpc => 45
  | .tars => 46
  | .someIp => 47
  | .iso8583 => 48
  | .triple => 49
  | .mySql => 60
  | .postgreSql => 61
  | .oracle => 62
  | .redis => 80
  | .mongoDb => 81
  | .memcached => 82
  | .kafka => 100
  | .mqtt => 101
  | .amqp => 102
  | .openWire => 103
  | .nats => 104
  | .pulsar => 105
  | .zmtp => 106
  | .rocketMq => 107
  | .webSphereMq => 108
  | .dns => 120
  | .tls => 121
  | .ping => 122
  | .custom => 127
  | .max => 255

/-- What `a.merge_log(&mut b)` leaves behind: whether it returned `Ok(())`,
and both logs, which it may have changed even when it failed. -/
structure MergeOutcome (I : Type) where
  ok : Bool
  self : I
  other : I

/-- The methods of the trait `L7ProtocolInfoInterface` that the session queue
calls, with the trait's defaults. -/
class L7ProtocolInfoInterface (I : Type) where
  sessionId : I → Option Nat
  mergeLog : I → I → MergeOutcome I
  needsSessionAggregation : I → Bool := fun _ => true
  needMerge : I → Bool := fun _ => false
  isReqRespEnd : I → Bool × Bool := fun _ => (false, false)
  getRequestResourceLength : I → Nat := fun _ => 0

def isSessionEnd {I : Type} [L7ProtocolInfoInterface I] (info : I) : Bool :=
  let (reqEnd, respEnd) := L7ProtocolInfoInterface.isReqRespEnd info
  reqEnd && respEnd

/-- `DnsInfo`, with the fields that its part of the trait reads or writes. The
record type of an answer is kept as its number. -/
structure DnsInfo where
  transId : Nat
  queryName : String
  answers : List (Nat × String × Nat)
  isUnconcerned : Bool
  statusCode : Option Nat
  capturedResponseByte : Nat
  isOnBlacklist : Bool
  deriving DecidableEq

namespace DnsInfo

/-- The status code after a merge: the other one replaces a missing code or a
differing `NoError`, which is code 0. -/
def mergeStatusCode (own other : Option Nat) : Option Nat :=
  match own, other with
  | none, some code => some code
  | some code, some otherCode =>
    if code ≠ otherCode ∧ code = 0 then some otherCode else some code
  | code, _ => code

/-- `merge`: the answers change places, the other fields are combined. -/
def merge (self other : DnsInfo) : DnsInfo × DnsInfo :=
  ({ self with
      answers := other.answers
      isUnconcerned := self.isUnconcerned || other.isUnconcerned
      statusCode := mergeStatusCode self.statusCode other.statusCode
      capturedResponseByte := other.capturedResponseByte
      isOnBlacklist := if other.isOnBlacklist then other.isOnBlacklist else self.isOnBlacklist },
    { other with answers := self.answers })

/-- `merge_log`, which never fails. -/
def mergeLog (self other : DnsInfo) : MergeOutcome DnsInfo :=
  let (self, other) := merge self other
  ⟨true, self, other⟩

/-- `get_request_resource_length`: the bytes of the name and of all answers. -/
def getRequestResourceLength (info : DnsInfo) : Nat :=
  info.queryName.utf8ByteSize + (info.answers.map fun a => a.2.1.utf8ByteSize).sum

instance : L7ProtocolInfoInterface DnsInfo where
  sessionId info := some info.transId
  mergeLog := mergeLog
  getRequestResourceLength := getRequestResourceLength

end DnsInfo

end ZeroTrace
