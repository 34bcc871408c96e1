import ZeroTrace.FlowState
import ZeroTrace.Outcomes
import ZeroTrace.SeqList

/-!
# Response times of a TCP flow

`TcpPerf::parse` remembers when packets of a flow were seen and computes round-trip, response
and idle times as differences, which panic when they are negative.  Packets may arrive with
times in any order; `parse` refuses a packet older than the last one of either direction.

The `u32` additions of the sequence list panic on overflow or wrap around, by the profile the
program is built with.  Nothing here depends on it: a `Profile` holds what they return.
-/

namespace ZeroTrace.FlowGenerator.Tcp

open RustExec Outcomes
open SeqList (PacketSeqType SessionPeer)

/-- A panic, of a difference of times or any other. -/
inductive Failure where
  | timestamp (minuend subtrahend : Nat)
  | other (reason : Panic)
  deriving DecidableEq

/-- `Sub for Timestamp`. -/
def Timestamp.sub (a b : Nat) : Except Failure Nat :=
  if a < b then .error (.timestamp a b) else .ok (a - b)

/-- The additions on sequence numbers: `seq + 1` and those of `assert_seq_number`. -/
structure Profile where
  nextSeq : BitVec 32 → Exec (BitVec 32)
  assertSeqNumber : SessionPeer → BitVec 32 → BitVec 16 → Exec (PacketSeqType × SessionPeer)

def Profile.checked : Profile where
  nextSeq seq := if seq = BitVec.allOnes 32 then .error .overflow else .ok (seq + 1)
  assertSeqNumber peer seq payloadLen := SeqList.assertSeqNumber peer seq.toNat payloadLen.toNat

def other {α : Type} (x : Exec α) : Except Failure α := x.mapError Failure.other

namespace TcpFlags

def rst : BitVec 8 := 4

def psh : BitVec 8 := 8

def urg : BitVec 8 := 32

def fin : BitVec 8 := 1

end TcpFlags

open FlowGenerator.TcpFlags TcpFlags

/-- The fields of a `MetaPacket` and its TCP header that the perf code reads. -/
structure MetaPacket where
  timestamp : Nat
  payloadLen : BitVec 16
  seq : BitVec 32
  ack : BitVec 32
  winSize : BitVec 16
  flags : BitVec 8
  dataOffset : BitVec 8
  winScale : BitVec 8

namespace MetaPacket

variable (p : MetaPacket)

def isSyn : Bool := p.flags &&& mask == syn

def isSynAck : Bool := p.flags &&& mask == synAck && p.payloadLen == 0

def isAck : Bool := p.flags &&& mask == FlowGenerator.TcpFlags.ack && p.payloadLen == 0

def isPshAck : Bool :=
  p.flags &&& mask == psh ||| FlowGenerator.TcpFlags.ack && decide (p.payloadLen > 1)

def isFin : Bool := p.flags &&& fin == fin

def hasValidPayload : Bool := decide (p.payloadLen > 1)

end MetaPacket

/-- One value for each direction; `true` is the direction of the first packet. -/
structure Sides (α : Type) where
  zero : α
  one : α

namespace Sides

variable {α : Type}

def get (s : Sides α) : Bool → α
  | true => s.zero
  | false => s.one

def set (s : Sides α) (fpd : Bool) (a : α) : Sides α :=
  if fpd then { s with zero := a } else { s with one := a }

def modify (s : Sides α) (fpd : Bool) (f : α → α) : Sides α := s.set fpd (f (s.get fpd))

end Sides

structure TimeStats where
  count : Nat := 0
  sum : Nat := 0
  max : Nat := 0
  updated : Bool := false

def TimeStats.update (s : TimeStats) (d : Nat) : TimeStats where
  count := s.count + 1
  sum := s.sum + d
  max := if s.max < d then d else s.max
  updated := true

structure PerfData where
  rtt : Sides TimeStats := ⟨{}, {}⟩
  art : Sides TimeStats := ⟨{}, {}⟩
  srt : Sides TimeStats := ⟨{}, {}⟩
  cit : TimeStats := {}
  retransSum : Nat := 0
  rttFull : Nat := 0
  retrans : Sides Nat := ⟨0, 0⟩
  retransSyns : Sides Nat := ⟨0, 0⟩
  pshUrgCount : Sides Nat := ⟨0, 0⟩
  zeroWinCount : Sides Nat := ⟨0, 0⟩
  syn : Nat := 0
  synack : Nat := 0
  retransSyn : Nat := 0
  retransSynack : Nat := 0
  ooo : Sides Nat := ⟨0, 0⟩
  finCount : Nat := 0
  updated : Bool := false

namespace PerfData

variable (data : PerfData) (d : Nat) (fpd : Bool)

def calcArt : PerfData := { data with art := data.art.modify fpd (·.update d), updated := true }

def calcSrt : PerfData := { data with srt := data.srt.modify fpd (·.update d), updated := true }

def calcRttFull : PerfData := { data with rttFull := d, updated := true }

def calcRtt : PerfData := { data with rtt := data.rtt.modify fpd (·.update d), updated := true }

def calcRetrans : PerfData where
  __ := data
  retrans := data.retrans.modify fpd (· + 1)
  retransSum := data.retransSum + 1
  updated := true

def calcRetransSyn : PerfData :=
  calcRetrans { data with retransSyns := data.retransSyns.modify fpd (· + 1) } fpd

def calcOoo : PerfData := { data with ooo := data.ooo.modify fpd (· + 1), updated := true }

def calcFin : PerfData := { data with finCount := data.finCount + 1, updated := true }

def calcZeroWin : PerfData :=
  { data with zeroWinCount := data.zeroWinCount.modify fpd (· + 1), updated := true }

def calcPshUrg : PerfData :=
  { data with pshUrgCount := data.pshUrgCount.modify fpd (· + 1), updated := true }

def calcSyn : PerfData := { data with syn := data.syn + 1, updated := true }

def calcSynack : PerfData := { data with synack := data.synack + 1, updated := true }

def calcRetranSyn : PerfData := { data with retransSyn := data.retransSyn + 1, updated := true }

def calcRetransSynack : PerfData :=
  { data with retransSynack := data.retransSynack + 1, updated := true }

def calcCit : PerfData := { data with cit := data.cit.update d, updated := true }

end PerfData

/-- `SessionPeer`, with the sequence list as `segments`. -/
structure Peer where
  segments : SessionPeer := SessionPeer.default
  timestamp : Nat := 0
  firstHandshakeTimestamp : Nat := 0
  seqThreshold : BitVec 32 := 0
  seq : BitVec 32 := 0
  payloadLen : BitVec 32 := 0
  winSize : BitVec 16 := 0
  winScale : BitVec 8 := 0
  synTransmitted : Bool := false
  isHandshakeAckPacket : Bool := false
  srtCalculable : Bool := false
  rttCalculable : Bool := false
  artCalculable : Bool := false
  rttFullPrecondition : Bool := false
  rttFullCalculable : Bool := false

namespace Peer

variable (peer : Peer) (p : MetaPacket)

def isSyncAckAckPacket : Bool :=
  p.isAck && p.ack == peer.seqThreshold

def isReplyPacket : Bool := p.ack == peer.seq + peer.payloadLen

def isNextPacket : Bool := p.seq == peer.seq + peer.payloadLen

/-- `TcpPerf::is_handshake_ack_packet`, of the opposite side. -/
def isHandshakeAck (oppo : Peer) (p : MetaPacket) : Bool := p.isAck && oppo.seqThreshold == p.ack

def updateData : Peer where
  __ := peer
  timestamp := p.timestamp
  payloadLen := if p.flags &&& syn = syn then 1 else p.payloadLen.zeroExtend 32
  seq := p.seq
  winSize := p.winSize

/-- The response times wait for another packet. -/
def noResponse : Peer := { peer with srtCalculable := false, artCalculable := false }

end Peer

/-- `TcpPerf`, with the counters it shares. -/
structure TcpPerf where
  ctrlInfo : Sides Peer := ⟨{}, {}⟩
  perfData : PerfData := {}
  invalidPacketCount : Nat := 0
  ignoredPacketCount : Nat := 0
  handshaking : Bool := false

/-- Seconds in nanoseconds. -/
def fromSecs (secs : Nat) : Nat := secs * 1000000000

def srtMax : Nat := fromSecs 10

def rttFullMax : Nat := fromSecs 30

def rttMax : Nat := fromSecs 30

def artMax : Nat := fromSecs 30

def adjustRtt (d max : Nat) : Nat := if d > max then 0 else d

/-- A difference of times, adjusted, and recorded unless it is zero. -/
def measure (max : Nat) (record : Nat → PerfData) (data : PerfData) (minuend subtrahend : Nat) :
    Except Failure PerfData := do
  let d ← Timestamp.sub minuend subtrahend
  return if adjustRtt d max = 0 then data else record (adjustRtt d max)

namespace TcpPerf

def isInvalidRetransPacket (profile : Profile) (perf : TcpPerf) (p : MetaPacket)
    (direction : Bool) : Except Failure ((Bool × Bool) × TcpPerf) :=
  let same := perf.ctrlInfo.get direction
  let oppo := perf.ctrlInfo.get !direction
  if p.isSyn then
    if same.seqThreshold = 0 then do
      let seqThreshold ← other (profile.nextSeq p.seq)
      let same := { same with
        seqThreshold := seqThreshold, firstHandshakeTimestamp := p.timestamp,
        synTransmitted := true }
      return ((false, false),
        { perf with ctrlInfo := perf.ctrlInfo.set direction same, handshaking := true })
    else
      let perfData :=
        if same.synTransmitted then (perf.perfData.calcRetransSyn direction).calcRetranSyn
        else perf.perfData
      let same := { same with synTransmitted := true }
      .ok ((false, false),
        { perf with ctrlInfo := perf.ctrlInfo.set direction same, perfData := perfData })
  else if p.isSynAck then
    if same.seqThreshold = 0 then do
      let seqThreshold ← other (profile.nextSeq p.seq)
      let same := { same with
        firstHandshakeTimestamp := p.timestamp, seqThreshold := seqThreshold }
      let oppo :=
        if oppo.seqThreshold = 0 then { oppo with seqThreshold := p.ack }
        else { oppo with rttFullPrecondition := true }
      return ((false, false),
        { perf with ctrlInfo := (perf.ctrlInfo.set direction same).set (!direction) oppo })
    else
      .ok ((false, false),
        { perf with perfData := (perf.perfData.calcRetransSyn direction).calcRetransSynack })
  else if p.isAck then
    .ok ((false, false), { perf with handshaking := perf.handshaking && direction })
  else if !p.hasValidPayload then
    .ok ((false, false), perf)
  else do
    let (kind, segments) ← other (profile.assertSeqNumber same.segments p.seq p.payloadLen)
    let same := { same with segments := segments }
    let perf := { perf with ctrlInfo := perf.ctrlInfo.set direction same }
    match kind with
    | .retrans =>
      return ((false, true), { perf with perfData := perf.perfData.calcRetrans direction })
    | .error =>
      return ((true, false), { perf with invalidPacketCount := perf.invalidPacketCount + 1 })
    | .outOfOrder =>
      return ((false, false), { perf with perfData := perf.perfData.calcOoo direction })
    | _ => return ((false, false), perf)

def isAbnormalTcpFlags (flags : BitVec 8) : Bool :=
  (if flags &&& syn = syn then flags &&& rst ≠ 0
    else flags &&& (FlowGenerator.TcpFlags.ack ||| rst) = 0) ||
  (flags &&& FlowGenerator.TcpFlags.ack ≠ FlowGenerator.TcpFlags.ack &&
    flags &&& (psh ||| urg) ≠ 0)

def isUnconcernedTcpFlags (flags : BitVec 8) : Bool := flags &&& rst ≠ 0

variable (data : PerfData) (perf : TcpPerf) (p : MetaPacket) (fpd : Bool) (same oppo : Peer)

/-- What the flags of a packet leave of the two sides while the flow opens. -/
def openingSides : Peer × Peer :=
  if p.isSyn || p.isSynAck then
    ({ same with
        winScale := if p.winScale > 0 then 0x80 ||| (if p.winScale ≤ 14 then p.winScale else 14)
          else same.winScale,
        rttCalculable := true, srtCalculable := false, artCalculable := false },
      { oppo with
        rttCalculable := true, srtCalculable := false, artCalculable := false,
        rttFullCalculable :=
          (p.isSynAck && oppo.rttFullPrecondition) || oppo.rttFullCalculable })
  else if p.isAck then (same, oppo)
  else
    ({ same with rttCalculable := false, rttFullCalculable := false },
      { oppo with rttCalculable := false })

/-- The round-trip time between the first packet of the other side's handshake and its answer. -/
def measureRtt : Except Failure PerfData :=
  if same.rttCalculable && oppo.isReplyPacket p && (oppo.isHandshakeAck p || p.isSynAck) &&
      oppo.firstHandshakeTimestamp != 0 then
    measure rttMax (data.calcRtt · fpd) data p.timestamp oppo.firstHandshakeTimestamp
  else .ok data

/-- The round-trip time of the whole handshake. -/
def measureRttFull : Except Failure PerfData :=
  if same.rttFullCalculable && oppo.isSyncAckAckPacket p then
    measure rttFullMax data.calcRttFull data p.timestamp same.firstHandshakeTimestamp
  else .ok data

def flowOpening : Except Failure (Bool × TcpPerf) := do
  let same := perf.ctrlInfo.get fpd
  let oppo := perf.ctrlInfo.get !fpd
  let data ← measureRtt perf.perfData p fpd same oppo
  let data ← measureRttFull data p same oppo
  let (same, oppo) := openingSides p same oppo
  let same := { same with
    isHandshakeAckPacket := oppo.isHandshakeAck p || same.isHandshakeAckPacket }
  return (p.isSyn || p.isSynAck || p.isAck,
    { perf with ctrlInfo := (perf.ctrlInfo.set fpd same).set (!fpd) oppo, perfData := data })

/-- What the flags of a packet leave of the two sides of an established flow. -/
def establishedSides : Peer × Peer :=
  if p.isAck then ({ same with srtCalculable := false }, oppo.noResponse)
  else if p.isPshAck then
    (same.noResponse, { oppo with srtCalculable := true, artCalculable := true })
  else (same.noResponse, oppo.noResponse)

def windowSize : BitVec 32 :=
  if same.winScale &&& oppo.winScale &&& 0x80 > 0 then
    p.winSize.zeroExtend 32 <<< (same.winScale &&& 0x0f)
  else p.winSize.zeroExtend 32

/-- The response time of the system: of an acknowledgement. -/
def measureSrt : Except Failure PerfData :=
  if same.srtCalculable && p.isAck && oppo.isReplyPacket p then
    measure srtMax (data.calcSrt · fpd) data p.timestamp oppo.timestamp
  else .ok data

/-- The response time of the application: of a payload. -/
def measureArt : Except Failure PerfData :=
  if same.artCalculable && p.hasValidPayload && same.isNextPacket p then
    measure artMax (data.calcArt · fpd) data p.timestamp oppo.timestamp
  else .ok data

/-- The client's idle time before a request. -/
def measureCit : Except Failure (PerfData × Peer) :=
  if fpd && p.isPshAck && decide (p.payloadLen > 1) then
    if same.isHandshakeAckPacket then do
      let d ← Timestamp.sub p.timestamp (max same.timestamp oppo.timestamp)
      return (data.calcCit d, { same with isHandshakeAckPacket := false })
    else if oppo.payloadLen > 1 ∧ (same.payloadLen ≤ 1 ∨ oppo.timestamp > same.timestamp) then do
      let d ← Timestamp.sub p.timestamp oppo.timestamp
      return (data.calcCit d, same)
    else .ok (data, same)
  else .ok (data, same)

def flowEstablished : Except Failure TcpPerf := do
  let same := perf.ctrlInfo.get fpd
  let oppo := perf.ctrlInfo.get !fpd
  let data ← measureSrt perf.perfData p fpd same oppo
  let data ← measureArt data p fpd same oppo
  let (same, oppo) := establishedSides p same oppo
  let data := if windowSize p same oppo = 0 then data.calcZeroWin fpd else data
  let data :=
    if p.flags &&& mask = psh ||| FlowGenerator.TcpFlags.ack ||| urg then data.calcPshUrg fpd
    else data
  let (data, same) ← measureCit data p fpd same oppo
  return { perf with ctrlInfo := (perf.ctrlInfo.set fpd same).set (!fpd) oppo, perfData := data }

/-- The counts of SYN, SYN-ACK and FIN. -/
def countFlags (isRetrans : Bool) : PerfData :=
  let data :=
    if p.isSyn then (if isRetrans then data.calcRetranSyn else data).calcSyn else data
  let data :=
    if p.isSynAck then (if isRetrans then data.calcRetransSynack else data).calcSynack else data
  if p.isFin then data.calcFin else data

def handshake : Except Failure TcpPerf :=
  if perf.handshaking then do
    let (handshaking, perf) ← perf.flowOpening p fpd
    return { perf with handshaking := handshaking }
  else .ok perf

def calculate (profile : Profile) (perf : TcpPerf) (p : MetaPacket) (fpd : Bool) :
    Except Failure (Bool × TcpPerf) := do
  let ((isInvalid, isRetrans), perf) ← perf.isInvalidRetransPacket profile p fpd
  if isInvalid then
    return (isRetrans, { perf with
      ctrlInfo := ⟨perf.ctrlInfo.zero.noResponse, perf.ctrlInfo.one.noResponse⟩ })
  else
    let perf ← perf.handshake p fpd
    if perf.handshaking then
      return (isRetrans, { perf with perfData := countFlags perf.perfData p isRetrans })
    else
      let perf ← perf.flowEstablished p fpd
      return (isRetrans, { perf with perfData := countFlags perf.perfData p isRetrans })

def isInterestedPacket : Bool × TcpPerf :=
  if p.dataOffset = 0 then (false, perf)
  else if isAbnormalTcpFlags p.flags then
    (false, { perf with ignoredPacketCount := perf.ignoredPacketCount + 1 })
  else if isUnconcernedTcpFlags p.flags then (false, perf)
  else (true, perf)

/-- Nothing waits for another packet. -/
def notCalculable (peer : Peer) : Peer :=
  { peer.noResponse with rttFullPrecondition := false, rttFullCalculable := false }

/-- The errors of `parse`. -/
inductive Error where
  | invalidPacketTimestamp
  | retransPacket
  deriving DecidableEq

def parse (profile : Profile) (perf : TcpPerf) (p : MetaPacket) (fpd : Bool) :
    Except Failure (Option Error × TcpPerf) :=
  let (interested, perf) := perf.isInterestedPacket p
  if !interested then
    .ok (none, { perf with
      ctrlInfo := ⟨notCalculable perf.ctrlInfo.zero, notCalculable perf.ctrlInfo.one⟩ })
  else if p.timestamp < perf.ctrlInfo.zero.timestamp ∨
      p.timestamp < perf.ctrlInfo.one.timestamp then
    .ok (some .invalidPacketTimestamp,
      { perf with invalidPacketCount := perf.invalidPacketCount + 1 })
  else do
    let (isRetrans, perf) ← perf.calculate profile p fpd
    let perf := { perf with ctrlInfo := perf.ctrlInfo.modify fpd (·.updateData p) }
    return (if isRetrans then some .retransPacket else none, perf)

end TcpPerf

section Times

variable {T : Nat} {peer same oppo : Peer} {ctrl : Sides Peer} {fpd : Bool} {data : PerfData}
  {perf : TcpPerf} {p : MetaPacket} {profile : Profile}

/-- A panic of `Sub for Timestamp`. -/
def Underflow : Failure → Prop
  | .timestamp _ _ => True
  | .other _ => False

theorem yields_sub {a b : Nat} (h : b ≤ a) :
    Yields Underflow (Timestamp.sub a b) fun d => d = a - b := by
  rw [Timestamp.sub, if_neg (Nat.not_lt.mpr h)]
  exact .pure rfl

theorem yields_other {α : Type} {x : Exec α} : Yields Underflow (other x) fun _ => True := by
  cases x with
  | ok a => exact trivial
  | error e => exact not_false

theorem yields_measure {c : Prop} [Decidable c] {max a b : Nat} {record : Nat → PerfData}
    (h : b ≤ a) :
    Yields Underflow (if c then measure max record data a b else .ok data) fun _ => True :=
  .ite (fun _ => (yields_sub h).bind fun _ _ => .pure trivial) fun _ => .pure trivial

/-- Both times that a side remembers are at most `T`. -/
structure Peer.Within (T : Nat) (peer : Peer) : Prop where
  last : peer.timestamp ≤ T
  first : peer.firstHandshakeTimestamp ≤ T

/-- All remembered times are at most `T`. -/
structure Within (T : Nat) (ctrl : Sides Peer) : Prop where
  zero : ctrl.zero.Within T
  one : ctrl.one.Within T

theorem Within.get (h : Within T ctrl) (fpd : Bool) : (ctrl.get fpd).Within T := by
  cases fpd with
  | true => exact h.zero
  | false => exact h.one

theorem Within.set (h : Within T ctrl) (fpd : Bool) (hp : peer.Within T) :
    Within T (ctrl.set fpd peer) := by
  cases fpd with
  | true => exact ⟨hp, h.one⟩
  | false => exact ⟨h.zero, hp⟩

theorem Within.set_both (h : Within T ctrl) (fpd : Bool) (hsame : same.Within T)
    (hoppo : oppo.Within T) : Within T ((ctrl.set fpd same).set (!fpd) oppo) :=
  (h.set fpd hsame).set (!fpd) hoppo

theorem Peer.Within.openingSides (hsame : same.Within T) (hoppo : oppo.Within T) :
    (TcpPerf.openingSides p same oppo).1.Within T ∧
      (TcpPerf.openingSides p same oppo).2.Within T := by
  unfold TcpPerf.openingSides
  split
  · exact ⟨⟨hsame.last, hsame.first⟩, hoppo.last, hoppo.first⟩
  · split
    · exact ⟨hsame, hoppo⟩
    · exact ⟨⟨hsame.last, hsame.first⟩, hoppo.last, hoppo.first⟩

theorem Peer.Within.establishedSides (hsame : same.Within T) (hoppo : oppo.Within T) :
    (TcpPerf.establishedSides p same oppo).1.Within T ∧
      (TcpPerf.establishedSides p same oppo).2.Within T := by
  unfold TcpPerf.establishedSides
  split
  · exact ⟨⟨hsame.last, hsame.first⟩, hoppo.last, hoppo.first⟩
  · split <;> exact ⟨⟨hsame.last, hsame.first⟩, hoppo.last, hoppo.first⟩

section

variable (h : Within p.timestamp perf.ctrlInfo)

include h

theorem yields_isInvalidRetransPacket :
    Yields Underflow (perf.isInvalidRetransPacket profile p fpd)
      fun r => Within p.timestamp r.2.ctrlInfo := by
  have hsame := h.get fpd
  have hoppo := h.get !fpd
  refine .ite (fun _ => .ite (fun _ => ?_) fun _ => ?_) fun _ => .ite (fun _ => .ite (fun _ => ?_)
    fun _ => .pure h) fun _ => .ite (fun _ => .pure h) fun _ => .ite (fun _ => .pure h) fun _ => ?_
  · exact (yields_other).bind fun _ _ => .pure (h.set fpd ⟨hsame.last, le_rfl⟩)
  · exact .pure (h.set fpd ⟨hsame.last, hsame.first⟩)
  · refine (yields_other).bind fun _ _ => .pure (h.set_both fpd ⟨hsame.last, le_rfl⟩ ?_)
    split <;> exact ⟨hoppo.last, hoppo.first⟩
  · refine (yields_other).bind fun r _ => ?_
    have hset : Within p.timestamp
        (perf.ctrlInfo.set fpd { perf.ctrlInfo.get fpd with segments := r.2 }) :=
      h.set fpd ⟨hsame.last, hsame.first⟩
    obtain ⟨kind, segments⟩ := r
    cases kind <;> exact .pure hset

theorem yields_flowOpening :
    Yields Underflow (perf.flowOpening p fpd) fun r => Within p.timestamp r.2.ctrlInfo := by
  have hsame := h.get fpd
  have hoppo := h.get !fpd
  obtain ⟨hsame', hoppo'⟩ := hsame.openingSides (p := p) hoppo
  refine (yields_measure hoppo.first).bind fun data _ => ?_
  refine (yields_measure hsame.first).bind fun data _ => ?_
  exact .pure (h.set_both fpd ⟨hsame'.last, hsame'.first⟩ hoppo')

omit h in
theorem yields_measureCit (hsame : same.Within p.timestamp) (hoppo : oppo.Within p.timestamp) :
    Yields Underflow (TcpPerf.measureCit data p fpd same oppo) fun r => r.2.Within p.timestamp := by
  refine .ite (fun _ => .ite (fun _ => ?_) fun _ => .ite (fun _ => ?_) fun _ => .pure hsame)
    fun _ => .pure hsame
  · exact (yields_sub (max_le hsame.last hoppo.last)).bind fun _ _ =>
      .pure ⟨hsame.last, hsame.first⟩
  · exact (yields_sub hoppo.last).bind fun _ _ => .pure hsame

theorem yields_flowEstablished :
    Yields Underflow (perf.flowEstablished p fpd) fun r => Within p.timestamp r.ctrlInfo := by
  have hoppo := h.get !fpd
  obtain ⟨hsame', hoppo'⟩ := (h.get fpd).establishedSides (p := p) hoppo
  refine (yields_measure hoppo.last).bind fun data _ => ?_
  refine (yields_measure hoppo.last).bind fun data _ => ?_
  exact (yields_measureCit hsame' hoppo').bind fun r hr => .pure (h.set_both fpd hr hoppo')

theorem yields_calculate :
    Yields Underflow (perf.calculate profile p fpd) fun r => Within p.timestamp r.2.ctrlInfo := by
  refine (yields_isInvalidRetransPacket h).bind fun r hr => ?_
  obtain ⟨⟨isInvalid, isRetrans⟩, perf'⟩ := r
  have hshake : Yields Underflow (perf'.handshake p fpd)
      fun perf => Within p.timestamp perf.ctrlInfo :=
    .ite (fun _ => (yields_flowOpening hr).bind fun r hr => .pure hr) fun _ => .pure hr
  refine .ite (fun _ => ?_) fun _ => hshake.bind fun perf hperf => .ite (fun _ => .pure hperf)
    fun _ => (yields_flowEstablished hperf).bind fun perf hperf => .pure hperf
  exact .pure ⟨⟨hr.zero.last, hr.zero.first⟩, hr.one.last, hr.one.first⟩

end

/-- Every remembered time is at most the last time of one of the directions. -/
def Ordered (perf : TcpPerf) : Prop :=
  Within (max perf.ctrlInfo.zero.timestamp perf.ctrlInfo.one.timestamp) perf.ctrlInfo

theorem Within.mono {T' : Nat} (h : Within T ctrl) (hT : T ≤ T') : Within T' ctrl :=
  ⟨⟨h.zero.last.trans hT, h.zero.first.trans hT⟩, h.one.last.trans hT, h.one.first.trans hT⟩

theorem yields_parse (h : Ordered perf) (profile : Profile) (p : MetaPacket) (fpd : Bool) :
    Yields Underflow (perf.parse profile p fpd) fun r => Ordered r.2 := by
  unfold TcpPerf.parse
  have hctrl : (perf.isInterestedPacket p).2.ctrlInfo = perf.ctrlInfo := by
    unfold TcpPerf.isInterestedPacket
    split_ifs <;> rfl
  generalize hp : perf.isInterestedPacket p = r at hctrl
  obtain ⟨interested, perf'⟩ := r
  have h' : Ordered perf' := by
    unfold Ordered
    rw [hctrl]
    exact h
  refine .ite (fun _ => .pure ?_) fun _ => .ite (fun _ => .pure h') fun hnew => ?_
  · exact ⟨⟨h'.zero.last, h'.zero.first⟩, h'.one.last, h'.one.first⟩
  have hbound : Within p.timestamp perf'.ctrlInfo := h'.mono (by omega)
  refine (yields_calculate hbound).bind fun r hr => .pure ?_
  have hlast : Within p.timestamp (r.2.ctrlInfo.modify fpd (·.updateData p)) :=
    hr.set fpd ⟨le_rfl, (hr.get fpd).first⟩
  refine hlast.mono ?_
  cases fpd with
  | true => exact le_max_left _ _
  | false => exact le_max_right _ _

/-- The packets of a flow, with their directions. -/
def parseAll (profile : Profile) (perf : TcpPerf) (packets : List (MetaPacket × Bool)) :
    Except Failure TcpPerf :=
  packets.foldlM (fun perf (p, fpd) => do return (← perf.parse profile p fpd).2) perf

/-- **No difference of times underflows**, whatever packets a flow has and however their
sequence numbers are added. -/
theorem never_underflows (profile : Profile) (packets : List (MetaPacket × Bool)) :
    ∀ a b, parseAll profile {} packets ≠ .error (.timestamp a b) := by
  have hstart : Ordered {} := ⟨⟨le_rfl, le_rfl⟩, le_rfl, le_rfl⟩
  have hrun : Yields Underflow (parseAll profile {} packets) Ordered :=
    Yields.foldlM (fun perf (p, fpd) h =>
      (yields_parse h profile p fpd).bind fun r hr => .pure hr) hstart packets
  exact fun a b heq => hrun.not_bad heq trivial

/-- SYN, SYN-ACK and ACK, with an ACK of an earlier time before the last. -/
example : (parseAll .checked {}
    [(⟨10, 0, 5, 0, 1, 2, 5, 0⟩, true), (⟨30, 0, 7, 6, 1, 18, 5, 0⟩, false),
      (⟨20, 0, 6, 8, 1, 16, 5, 0⟩, true), (⟨60, 0, 6, 8, 1, 16, 5, 0⟩, true)]).toOption.map
      (fun perf => (perf.perfData.rtt.one.max, perf.perfData.rtt.zero.max, perf.perfData.rttFull)) =
    some (20, 30, 50) := by
  decide

end Times

/-! ### What is reported -/

/-- The greatest, the sum and the number of times of one kind. -/
@[ext]
structure Times where
  max : Nat := 0
  sum : Nat := 0
  count : Nat := 0
  deriving DecidableEq

structure TcpPerfCountsPeer where
  retransCount : Nat := 0
  zeroWinCount : Nat := 0
  oooCount : Nat := 0

structure TcpPerfStats where
  rttClient : Times := {}
  rttServer : Times := {}
  srt : Times := {}
  art : Times := {}
  cit : Times := {}
  rtt : Nat := 0
  synCount : Nat := 0
  synackCount : Nat := 0
  retransSynCount : Nat := 0
  retransSynackCount : Nat := 0
  finCount : Nat := 0
  countsPeers : Sides TcpPerfCountsPeer := ⟨{}, {}⟩
  totalRetransCount : Nat := 0

/-- The directions exchanged. -/
def Sides.swap {α : Type} (s : Sides α) : Sides α := ⟨s.one, s.zero⟩

/-- `reverse`, which leaves the greatest times where they are. -/
def TcpPerfStats.reverse (stats : TcpPerfStats) : TcpPerfStats where
  __ := stats
  rttClient := { stats.rttServer with max := stats.rttClient.max }
  rttServer := { stats.rttClient with max := stats.rttServer.max }
  countsPeers := stats.countsPeers.swap

/-- `as_micros() as u32`. -/
def asMicros (t : Nat) : Nat := t / 1000 % 2 ^ 32

/-- What is reported of the times. -/
def TimeStats.micros (s : TimeStats) : Times := ⟨asMicros s.max, asMicros s.sum, s.count⟩

/-- Times are written if they were updated. -/
def TimeStats.write (s : TimeStats) (times : Times) : Times :=
  if s.updated then s.micros else times

namespace PerfData

variable (data : PerfData) (stats : TcpPerfStats)

def updatePerfStats (flowReversed : Bool) : PerfData × TcpPerfStats :=
  if !data.updated then (data, stats)
  else
    let stats := { stats with
      countsPeers := ⟨⟨data.retrans.zero, data.zeroWinCount.zero, data.ooo.zero⟩,
        ⟨data.retrans.one, data.zeroWinCount.one, data.ooo.one⟩⟩
      totalRetransCount := data.retransSum
      synCount := data.syn
      synackCount := data.synack
      finCount := data.finCount
      retransSynCount := data.retransSyn
      retransSynackCount := data.retransSynack
      rtt := asMicros data.rttFull }
    let stats :=
      if !flowReversed then
        { stats with art := data.art.one.write stats.art, srt := data.srt.one.write stats.srt }
      else
        { stats with art := data.art.zero.write stats.art
                     srt := data.srt.zero.write stats.srt }.reverse
    ({ data with updated := false },
      { stats with
        rttClient := data.rtt.zero.write stats.rttClient
        rttServer := data.rtt.one.write stats.rttServer
        cit := data.cit.write stats.cit })

/-- The statistics of both directions exchanged. -/
def mirrored : PerfData where
  __ := data
  rtt := data.rtt.swap
  art := data.art.swap
  srt := data.srt.swap
  retrans := data.retrans.swap
  zeroWinCount := data.zeroWinCount.swap
  ooo := data.ooo.swap

/-- The round-trip times of both directions are alike, for the statistics they are written
into: by what was updated, in microseconds. -/
def RttAlike : Prop :=
  match data.rtt.zero.updated, data.rtt.one.updated with
  | true, true => data.rtt.zero.micros = data.rtt.one.micros
  | true, false =>
    data.rtt.zero.micros = stats.rttClient ∧ stats.rttServer.max = stats.rttClient.max
  | false, true =>
    data.rtt.one.micros = stats.rttServer ∧ stats.rttClient.max = stats.rttServer.max
  | false, false =>
    stats.rttClient.sum = stats.rttServer.sum ∧ stats.rttClient.count = stats.rttServer.count

theorem rttAlike_iff : data.RttAlike stats ↔
    data.rtt.zero.write stats.reverse.rttClient = data.rtt.one.write stats.rttClient ∧
      data.rtt.one.write stats.reverse.rttServer = data.rtt.zero.write stats.rttServer := by
  unfold RttAlike TimeStats.write
  simp only [TcpPerfStats.reverse, Times.ext_iff]
  cases data.rtt.zero.updated <;> cases data.rtt.one.updated <;> grind

/-- **Reversed flows.**  A reversed flow is reported as its mirror image if and only if
nothing was updated or the round-trip times are alike, which `update_perf_stats` writes
without regard to the direction. -/
theorem reversed_mirrored_iff :
    (data.updatePerfStats stats true).2 = (data.mirrored.updatePerfStats stats false).2 ↔
      (data.updated = true → data.RttAlike stats) := by
  have hupdated : data.mirrored.updated = data.updated := rfl
  rw [rttAlike_iff]
  unfold updatePerfStats
  rw [hupdated]
  cases data.updated with
  | false => simp
  | true => simp [mirrored, Sides.swap, TcpPerfStats.reverse]

/-- One round-trip time of a microsecond, of the first direction. -/
theorem reversed_rtt_not_mirrored :
    ((calcRtt {} 1000 true).updatePerfStats {} true).2.rttClient = ⟨1, 1, 1⟩ ∧
      ((calcRtt {} 1000 true).mirrored.updatePerfStats {} false).2.rttClient = {} := by
  decide

end PerfData

end ZeroTrace.FlowGenerator.Tcp
