import ZeroTrace.FlowState
import ZeroTrace.LruCache
import ZeroTrace.RunInvariants

/-!
# Which side of a flow is the server

`ServiceTable` scores the services it has seen.  A service that has sent a SYN-ACK has the
highest score, and first packets of later flows are not to change that.  The port of a service
may also be configured as a server port: its score is then not read from the table at all, and
the score that stands for the configuration is below the highest one.
-/

namespace ZeroTrace.FlowGenerator.Service

open RustExec Lru Lru.Crate Runs

/-- `Ipv4Key` and `Ipv6Key`, by the number of octets. -/
structure IpKey (n : Nat) where
  addr : Vector (BitVec 8) n
  epcId : BitVec 16
  port : BitVec 16
  deriving DecidableEq

inductive ServiceKey where
  | v4 (key : IpKey 4)
  | v6 (key : IpKey 16)
  deriving DecidableEq

/-- The scores of one address family, and whether one of them had to make way for another. -/
structure Scores [Crate] (n : Nat) where
  cache : LruCache (IpKey n) (BitVec 8)
  evicted : Bool := false

namespace Scores

variable [Crate] {n : Nat}

/-- `LruCache::put`. -/
def put (s : Scores n) (key : IpKey n) (score : BitVec 8) : Scores n :=
  ⟨s.cache.place key score, s.evicted || !decide (s.cache.Room key)⟩

/-- `LruCache::pop`. -/
def pop (s : Scores n) (key : IpKey n) : Scores n := ⟨s.cache.remove key, s.evicted⟩

/-- `LruCache::get`, of a key without a score the lowest one. -/
def get (s : Scores n) (key : IpKey n) : BitVec 8 × Scores n :=
  (((s.cache.get key).1).getD 0, ⟨(s.cache.get key).2, s.evicted⟩)

end Scores

def minScore : BitVec 8 := 0

def maxScore : BitVec 8 := 0xff

def maxScoreFromConfig : BitVec 8 := maxScore - 1

def scoreDiffThreshold : BitVec 8 := 8

def portMsb : BitVec 16 := 1 <<< 15

def adjustScore (srcPort dstPort : BitVec 16) (srcScore dstScore : BitVec 8) :
    BitVec 8 × BitVec 8 :=
  let diffValue := if srcScore > dstScore then srcScore - dstScore else dstScore - srcScore
  if diffValue < scoreDiffThreshold ∧ (srcPort ^^^ dstPort) &&& portMsb ≠ 0 then
    if srcPort &&& portMsb > 0 then (0, 1) else (1, 0)
  else (srcScore, dstScore)

section Family

variable [Crate] {n : Nat} (portMap : List (BitVec 16)) (s : Scores n)

def sideScore (key : IpKey n) : BitVec 8 × Scores n :=
  if key.port ∈ portMap then (maxScoreFromConfig, s) else s.get key

/-- The source of a first packet loses a point. -/
def lowerScore (key : IpKey n) (score : BitVec 8) : BitVec 8 × Scores n :=
  if score > minScore then
    if score - 1 > minScore then (score - 1, s.put key (score - 1)) else (score - 1, s.pop key)
  else (score, s)

/-- The destination of a first packet gets a point. -/
def raiseScore (key : IpKey n) (score : BitVec 8) : BitVec 8 × Scores n :=
  if score < maxScore - 1 then (score + 1, s.put key (score + 1)) else (score, s)

/-- `get_first_packet_score`, for one address family. -/
def firstPacketScore (adjusts : Bool) (s : Scores n)
    (src dst : IpKey n) : (BitVec 8 × BitVec 8) × Scores n :=
  let (srcScore, s) := sideScore portMap s src
  let (dstScore, s) := sideScore portMap s dst
  if srcScore = maxScore ∨ dstScore = maxScore then ((srcScore, dstScore), s)
  else
    let (srcScore, s) := lowerScore s src srcScore
    let (dstScore, s) := raiseScore s dst dstScore
    if adjusts then (adjustScore src.port dst.port srcScore dstScore, s)
    else ((srcScore, dstScore), s)

/-- The scores of a later packet. -/
def storedScore (adjusts : Bool) (s : Scores n) (src dst : IpKey n) :
    (BitVec 8 × BitVec 8) × Scores n :=
  let (srcScore, s) := s.get src
  let (dstScore, s) := s.get dst
  if adjusts then (adjustScore src.port dst.port srcScore dstScore, s)
  else ((srcScore, dstScore), s)

/-- The arguments of `get_tcp_score` beside the keys. -/
structure TcpPacket where
  isFirstPacket : Bool
  needReverseFlow : Bool
  direction : PacketDirection
  tcpFlags : BitVec 8
  toaSentByFlowSrc : Bool
  toaSentByFlowDst : Bool

/-- `TcpFlags::contains`. -/
def contains (flags wanted : BitVec 8) : Bool := flags &&& wanted == wanted

/-- `get_tcp_score`, for one address family. -/
def tcpScore (adjusts : Bool) (s : Scores n) (packet : TcpPacket)
    (src dst : IpKey n) : (BitVec 8 × BitVec 8) × Scores n :=
  if contains packet.tcpFlags TcpFlags.synAck || packet.toaSentByFlowDst then
    ((maxScore, minScore), (s.put src maxScore).pop dst)
  else if contains packet.tcpFlags TcpFlags.syn || packet.toaSentByFlowSrc then
    let (dstScore, s) := (s.pop src).get dst
    if packet.isFirstPacket ∧ dstScore < maxScore - 1 then
      ((minScore, dstScore + 1), s.put dst (dstScore + 1))
    else ((minScore, dstScore), s)
  else if packet.isFirstPacket then firstPacketScore portMap adjusts s src dst
  else if packet.needReverseFlow then
    match packet.direction with
    | .clientToServer => ((maxScore, minScore), (s.put src maxScore).pop dst)
    | .serverToClient => ((minScore, maxScore), (s.put src minScore).pop dst)
  else storedScore adjusts s src dst

/-- `get_udp_score`, for one address family. -/
def udpScore (adjusts : Bool) (s : Scores n) (isFirstPacket : Bool)
    (needReverseFlow : Bool) (direction : PacketDirection) (src dst : IpKey n) :
    (BitVec 8 × BitVec 8) × Scores n :=
  if isFirstPacket then firstPacketScore portMap adjusts s src dst
  else if needReverseFlow then
    match direction with
    | .clientToServer => ((maxScore, minScore), s.put src maxScore)
    | .serverToClient => ((minScore, maxScore), s.put dst maxScore)
  else storedScore adjusts s src dst

end Family

structure ServiceTable [Crate] where
  ipv4 : Scores 4
  ipv6 : Scores 16
  portMap : List (BitVec 16)

namespace ServiceTable

variable [Crate]

def new (ipv4Capacity ipv6Capacity : Nat) (serverPorts : List (BitVec 16)) : ServiceTable where
  ipv4 := ⟨LruCache.new ipv4Capacity, false⟩
  ipv6 := ⟨LruCache.new ipv6Capacity, false⟩
  portMap := serverPorts.filter (· ≠ 0)

variable (table : ServiceTable)

/-- `get_tcp_score`.  Scores are adjusted for IPv4 only. -/
def getTcpScore (packet : TcpPacket) (src dst : ServiceKey) :
    Exec ((BitVec 8 × BitVec 8) × ServiceTable) :=
  match src, dst with
  | .v4 src, .v4 dst =>
    let (scores, ipv4) := tcpScore table.portMap true table.ipv4 packet src dst
    .ok (scores, { table with ipv4 := ipv4 })
  | .v6 src, .v6 dst =>
    let (scores, ipv6) := tcpScore table.portMap false table.ipv6 packet src dst
    .ok (scores, { table with ipv6 := ipv6 })
  | _, _ => .error .unreachable

def getUdpScore (isFirstPacket needReverseFlow : Bool)
    (direction : PacketDirection) (src dst : ServiceKey) :
    Exec ((BitVec 8 × BitVec 8) × ServiceTable) :=
  match src, dst with
  | .v4 src, .v4 dst =>
    let (scores, ipv4) :=
      udpScore table.portMap true table.ipv4 isFirstPacket needReverseFlow direction src dst
    .ok (scores, { table with ipv4 := ipv4 })
  | .v6 src, .v6 dst =>
    let (scores, ipv6) :=
      udpScore table.portMap false table.ipv6 isFirstPacket needReverseFlow direction src dst
    .ok (scores, { table with ipv6 := ipv6 })
  | _, _ => .error .unreachable

def stored : ServiceKey → Option (BitVec 8)
  | .v4 key => table.ipv4.cache.peek key
  | .v6 key => table.ipv6.cache.peek key

def Configured : ServiceKey → Prop
  | .v4 key => key.port ∈ table.portMap
  | .v6 key => key.port ∈ table.portMap

instance (table : ServiceTable) (key : ServiceKey) : Decidable (table.Configured key) :=
  match key with
  | .v4 key => inferInstanceAs (Decidable (key.port ∈ table.portMap))
  | .v6 key => inferInstanceAs (Decidable (key.port ∈ table.portMap))

/-- A score has made way for another. -/
def Evicted : Prop := table.ipv4.evicted = true ∨ table.ipv6.evicted = true

instance (table : ServiceTable) : Decidable table.Evicted := inferInstanceAs (Decidable (_ ∨ _))

end ServiceTable

section FirstPackets

variable [Crate] {n : Nat} {s : Scores n} {src dst key j : IpKey n} {portMap : List (BitVec 16)}
  {score : BitVec 8}

theorem Scores.put_evicted (h : (s.put key score).evicted = false) :
    s.evicted = false ∧ s.cache.Room key := by
  rw [Scores.put, Bool.or_eq_false_iff, Bool.not_eq_false', decide_eq_true_iff] at h
  exact h

theorem Scores.peek_put (h : (s.put key score).evicted = false) (hj : j ≠ key) :
    (s.put key score).cache.peek j = s.cache.peek j :=
  LruCache.peek_place_ne (Scores.put_evicted h).2 hj score

theorem sideScore_fst (portMap : List (BitVec 16)) (s : Scores n) (key : IpKey n) :
    (sideScore portMap s key).1 =
      if key.port ∈ portMap then maxScoreFromConfig else (s.cache.peek key).getD 0 := by
  unfold sideScore
  split
  · rfl
  · unfold Scores.get LruCache.get
    cases s.cache.peek key <;> rfl

theorem sideScore_snd (portMap : List (BitVec 16)) (s : Scores n) (key : IpKey n) :
    (sideScore portMap s key).2.evicted = s.evicted ∧
      ∀ j, (sideScore portMap s key).2.cache.peek j = s.cache.peek j := by
  unfold sideScore
  split
  · exact ⟨rfl, fun j => rfl⟩
  · exact ⟨rfl, s.cache.peek_get key⟩

/-- A change of scores: without eviction it touches one key only, and it does not reach the
highest score. -/
structure Touches (s : Scores n) (key : IpKey n) (result : BitVec 8 × Scores n) : Prop where
  score : result.1 ≠ maxScore
  kept : result.2.evicted = false →
    s.evicted = false ∧ ∀ j, j ≠ key → result.2.cache.peek j = s.cache.peek j

theorem lowerScore_touches (s : Scores n) (key : IpKey n) (h : score ≠ maxScore) :
    Touches s key (lowerScore s key score) := by
  have hless : score > minScore → score - 1 ≠ maxScore := by
    unfold minScore maxScore
    bv_omega
  unfold lowerScore
  split
  · next hpos =>
    split
    · exact ⟨hless hpos, fun h => ⟨(Scores.put_evicted h).1, fun j hj => Scores.peek_put h hj⟩⟩
    · exact ⟨hless hpos, fun h => ⟨h, fun j hj => LruCache.peek_remove_ne hj⟩⟩
  · exact ⟨h, fun h => ⟨h, fun j _ => rfl⟩⟩

theorem raiseScore_touches (s : Scores n) (key : IpKey n) (h : score ≠ maxScore) :
    Touches s key (raiseScore s key score) := by
  have hmore : score < maxScore - 1 → score + 1 ≠ maxScore := by
    bv_omega
  unfold raiseScore
  split
  · next hlt =>
    exact ⟨hmore hlt, fun h => ⟨(Scores.put_evicted h).1, fun j hj => Scores.peek_put h hj⟩⟩
  · exact ⟨h, fun h => ⟨h, fun j _ => rfl⟩⟩

omit [Crate] in
theorem adjustScore_ne_max (srcPort dstPort : BitVec 16) {srcScore dstScore : BitVec 8}
    (hsrc : srcScore ≠ maxScore) (hdst : dstScore ≠ maxScore) :
    (adjustScore srcPort dstPort srcScore dstScore).1 ≠ maxScore ∧
      (adjustScore srcPort dstPort srcScore dstScore).2 ≠ maxScore := by
  unfold adjustScore
  generalize (if srcScore > dstScore then srcScore - dstScore else dstScore - srcScore) = diffValue
  dsimp only
  split
  · split
    · decide
    · decide
  · exact ⟨hsrc, hdst⟩

/-- The score of a side is the highest one if and only if it is stored and not overridden by
the configuration. -/
theorem sideScore_eq_max_iff :
    (sideScore portMap s key).1 = maxScore ↔
      key.port ∉ portMap ∧ s.cache.peek key = some maxScore := by
  rw [sideScore_fst]
  split_ifs with hport
  · exact iff_of_false (by decide) fun h => h.1 hport
  · cases s.cache.peek key with
    | none => exact iff_of_false (by decide) fun h => absurd h.2.symm (Option.some_ne_none _)
    | some score => exact ⟨fun h => ⟨hport, congrArg some h⟩, fun h => Option.some.inj h.2⟩

theorem firstPacketScore_cases (portMap : List (BitVec 16)) (adjusts : Bool) (s : Scores n)
    (src dst : IpKey n) : let result := firstPacketScore portMap adjusts s src dst
    (((sideScore portMap s src).1 = maxScore ∨ (sideScore portMap s dst).1 = maxScore) ∧
        result.1 = ((sideScore portMap s src).1, (sideScore portMap s dst).1) ∧
        result.2.evicted = s.evicted ∧ ∀ j, result.2.cache.peek j = s.cache.peek j) ∨
      ((sideScore portMap s src).1 ≠ maxScore ∧ (sideScore portMap s dst).1 ≠ maxScore ∧
        result.1.1 ≠ maxScore ∧ result.1.2 ≠ maxScore ∧
        (result.2.evicted = false → s.evicted = false ∧
          ∀ j, j ≠ src → j ≠ dst → result.2.cache.peek j = s.cache.peek j)) := by
  intro result
  obtain ⟨hevicted, hpeek⟩ := sideScore_snd portMap s src
  obtain ⟨hevicted', hpeek'⟩ := sideScore_snd portMap (sideScore portMap s src).2 dst
  have hdst :
      (sideScore portMap (sideScore portMap s src).2 dst).1 = (sideScore portMap s dst).1 := by
    rw [sideScore_fst, sideScore_fst, hpeek]
  have hresult : result = firstPacketScore portMap adjusts s src dst := rfl
  unfold firstPacketScore at hresult
  dsimp only at hresult
  rw [hdst] at hresult
  by_cases hmax : (sideScore portMap s src).1 = maxScore ∨ (sideScore portMap s dst).1 = maxScore
  · rw [if_pos hmax] at hresult
    rw [hresult]
    exact Or.inl ⟨hmax, rfl, hevicted'.trans hevicted, fun j => (hpeek' j).trans (hpeek j)⟩
  rw [if_neg hmax] at hresult
  obtain ⟨hsrcMax, hdstMax⟩ := not_or.mp hmax
  right
  generalize hs₂ : (sideScore portMap (sideScore portMap s src).2 dst).2 = s₂ at *
  have hlower := lowerScore_touches s₂ src hsrcMax
  generalize lowerScore s₂ src (sideScore portMap s src).1 = lowered at *
  have hraise := raiseScore_touches lowered.2 dst hdstMax
  generalize raiseScore lowered.2 dst (sideScore portMap s dst).1 = raised at *
  have hkeep : raised.2.evicted = false → s.evicted = false ∧
      ∀ j, j ≠ src → j ≠ dst → raised.2.cache.peek j = s.cache.peek j := by
    intro h
    obtain ⟨hold, hother⟩ := hraise.kept h
    obtain ⟨hold', hother'⟩ := hlower.kept hold
    refine ⟨(hevicted'.trans hevicted).symm.trans hold', fun j hj hj' => ?_⟩
    rw [hother j hj', hother' j hj, hpeek', hpeek]
  cases adjusts with
  | true =>
    rw [hresult]
    have hadjust := adjustScore_ne_max src.port dst.port hlower.score hraise.score
    exact ⟨hsrcMax, hdstMax, hadjust.1, hadjust.2, hkeep⟩
  | false =>
    rw [hresult]
    exact ⟨hsrcMax, hdstMax, hlower.score, hraise.score, hkeep⟩

/-- **One first packet.**  A service that has answered stays known if and only if the
configuration does not override it. -/
theorem firstPacketScore_keeps_iff {adjusts : Bool}
    (h : (firstPacketScore portMap adjusts s src dst).2.evicted = false) :
    (∀ key, s.cache.peek key = some maxScore →
      (firstPacketScore portMap adjusts s src dst).2.cache.peek key = some maxScore ∧
        (key = src → (firstPacketScore portMap adjusts s src dst).1.1 = maxScore) ∧
        (key = dst → (firstPacketScore portMap adjusts s src dst).1.2 = maxScore)) ↔
    (s.cache.peek src = some maxScore → src.port ∉ portMap) ∧
      (s.cache.peek dst = some maxScore → dst.port ∉ portMap) := by
  obtain ⟨-, hscores, -, hpeek⟩ | ⟨hsrcMax, hdstMax, hsrc, hdst, hkeep⟩ :=
    firstPacketScore_cases portMap adjusts s src dst
  · rw [hscores]
    constructor
    · intro hall
      exact ⟨fun hstored => (sideScore_eq_max_iff.mp ((hall src hstored).2.1 rfl)).1,
        fun hstored => (sideScore_eq_max_iff.mp ((hall dst hstored).2.2 rfl)).1⟩
    rintro ⟨hsrc, hdst⟩ key hstored
    refine ⟨(hpeek key).trans hstored, ?_, ?_⟩
    · rintro rfl
      exact sideScore_eq_max_iff.mpr ⟨hsrc hstored, hstored⟩
    · rintro rfl
      exact sideScore_eq_max_iff.mpr ⟨hdst hstored, hstored⟩
  · constructor
    · intro hall
      exact ⟨fun hstored => absurd ((hall src hstored).2.1 rfl) hsrc,
        fun hstored => absurd ((hall dst hstored).2.2 rfl) hdst⟩
    rintro ⟨hsrcPort, hdstPort⟩ key hstored
    have hneSrc : key ≠ src := by
      rintro rfl
      exact hsrcMax (sideScore_eq_max_iff.mpr ⟨hsrcPort hstored, hstored⟩)
    have hneDst : key ≠ dst := by
      rintro rfl
      exact hdstMax (sideScore_eq_max_iff.mpr ⟨hdstPort hstored, hstored⟩)
    exact ⟨((hkeep h).2 key hneSrc hneDst).trans hstored, fun heq => absurd heq hneSrc,
      fun heq => absurd heq hneDst⟩

end FirstPackets

section Calls

/-- Which score is asked for. -/
inductive Kind where
  | tcp (packet : TcpPacket)
  | udp (isFirstPacket needReverseFlow : Bool) (direction : PacketDirection)

/-- A call of `get_tcp_score` or `get_udp_score`. -/
structure Call where
  kind : Kind
  src : ServiceKey
  dst : ServiceKey

variable [Crate] (table : ServiceTable) {call : Call} {n : Nat}

/-- The call. -/
def answer (call : Call) : Exec ((BitVec 8 × BitVec 8) × ServiceTable) :=
  match call.kind with
  | .tcp packet => table.getTcpScore packet call.src call.dst
  | .udp isFirstPacket needReverseFlow direction =>
    table.getUdpScore isFirstPacket needReverseFlow direction call.src call.dst

/-- What a call leaves behind. -/
def step (call : Call) : Exec ServiceTable :=
  answer table call >>= fun result => .ok result.2

/-- The scores of a call in its address family. -/
def Kind.score {n : Nat} (portMap : List (BitVec 16)) (adjusts : Bool) (s : Scores n)
    (src dst : IpKey n) : Kind → (BitVec 8 × BitVec 8) × Scores n
  | .tcp packet => tcpScore portMap adjusts s packet src dst
  | .udp first reverse direction => udpScore portMap adjusts s first reverse direction src dst

theorem answer_v4 (kind : Kind) (src dst : IpKey 4) : answer table ⟨kind, .v4 src, .v4 dst⟩ =
    .ok ((kind.score table.portMap true table.ipv4 src dst).1,
      { table with ipv4 := (kind.score table.portMap true table.ipv4 src dst).2 }) := by
  cases kind <;> rfl

theorem answer_v6 (kind : Kind) (src dst : IpKey 16) : answer table ⟨kind, .v6 src, .v6 dst⟩ =
    .ok ((kind.score table.portMap false table.ipv6 src dst).1,
      { table with ipv6 := (kind.score table.portMap false table.ipv6 src dst).2 }) := by
  cases kind <;> rfl

/-- A first packet without SYN and TOA. -/
def Kind.Plain : Kind → Prop
  | .tcp packet =>
    packet.isFirstPacket = true ∧ contains packet.tcpFlags TcpFlags.synAck = false ∧
      contains packet.tcpFlags TcpFlags.syn = false ∧ packet.toaSentByFlowSrc = false ∧
      packet.toaSentByFlowDst = false
  | .udp isFirstPacket _ _ => isFirstPacket = true

/-- Both sides of a flow are of one address family. -/
def SameFamily : ServiceKey → ServiceKey → Prop
  | .v4 _, .v4 _ | .v6 _, .v6 _ => True
  | _, _ => False

/-- A first packet of a flow, without SYN and TOA. -/
def Call.Plain (call : Call) : Prop := call.kind.Plain ∧ SameFamily call.src call.dst

/-- Services with the highest score keep it, and a call they take part in returns it. -/
def KeepsMax (call : Call) (scores : BitVec 8 × BitVec 8) (table' : ServiceTable) : Prop :=
  ∀ key, table.stored key = some maxScore →
    table'.stored key = some maxScore ∧ (key = call.src → scores.1 = maxScore) ∧
      (key = call.dst → scores.2 = maxScore)

/-- All calls of a run keep the highest scores. -/
def StaysKnown (table : ServiceTable) : List Call → Prop
  | [] => True
  | call :: calls => ∃ scores table', answer table call = .ok (scores, table') ∧
      KeepsMax table call scores table' ∧ StaysKnown table' calls

/-- No side with the highest score has a configured port. -/
def Clear (call : Call) : Prop :=
  (table.stored call.src = some maxScore → ¬ table.Configured call.src) ∧
    (table.stored call.dst = some maxScore → ¬ table.Configured call.dst)

instance (table : ServiceTable) (call : Call) : Decidable (Clear table call) :=
  inferInstanceAs (Decidable (_ ∧ _))

theorem Kind.Plain.score_eq {kind : Kind} (h : kind.Plain) {portMap : List (BitVec 16)}
    {adjusts : Bool} {s : Scores n} {src dst : IpKey n} :
    kind.score portMap adjusts s src dst = firstPacketScore portMap adjusts s src dst := by
  cases kind with
  | tcp packet =>
    obtain ⟨hfirst, hsynAck, hsyn, htoaSrc, htoaDst⟩ := h
    simp only [Kind.score, tcpScore, hsynAck, hsyn, htoaSrc, htoaDst, hfirst, Bool.or_self,
      Bool.false_eq_true, if_false, if_true]
  | udp first reverse direction => exact if_pos h

theorem firstPacketScore_evicted {portMap : List (BitVec 16)} {adjusts : Bool}
    {s : Scores n} {src dst : IpKey n}
    (h : (firstPacketScore portMap adjusts s src dst).2.evicted = false) : s.evicted = false := by
  obtain ⟨-, -, hevicted, -⟩ | ⟨-, -, -, -, hkeep⟩ :=
    firstPacketScore_cases portMap adjusts s src dst
  · exact hevicted.symm.trans h
  · exact (hkeep h).1

omit [Crate] in
theorem forall_serviceKey {P : ServiceKey → Prop} :
    (∀ key, P key) ↔ (∀ key, P (.v4 key)) ∧ ∀ key, P (.v6 key) := by
  constructor
  · exact fun h => ⟨fun key => h (.v4 key), fun key => h (.v6 key)⟩
  · rintro ⟨hv4, hv6⟩ (key | key)
    · exact hv4 key
    · exact hv6 key

/-- **One call**: nothing is evicted afterwards that was not before, and it keeps the highest
scores if and only if it is clear. -/
theorem answer_spec (h : call.Plain) (table : ServiceTable) :
    ∃ scores table', answer table call = .ok (scores, table') ∧
      (¬ table'.Evicted → ¬ table.Evicted ∧
        (KeepsMax table call scores table' ↔ Clear table call)) := by
  obtain ⟨kind, src, dst⟩ := call
  obtain ⟨hkind, hfamily⟩ := h
  cases src with
  | v4 src =>
    cases dst with
    | v4 dst =>
      refine ⟨_, _, answer_v4 table kind src dst, fun hevicted => ?_⟩
      obtain ⟨h4, h6⟩ := not_or.mp hevicted
      rw [hkind.score_eq] at h4 ⊢
      have hkept := eq_false_of_ne_true h4
      refine ⟨not_or.mpr ⟨?_, h6⟩, Iff.trans ?_ (firstPacketScore_keeps_iff hkept)⟩
      · rw [firstPacketScore_evicted hkept]
        exact Bool.false_ne_true
      · simp [KeepsMax, forall_serviceKey, ServiceTable.stored]
    | v6 dst => exact absurd hfamily not_false
  | v6 src =>
    cases dst with
    | v4 dst => exact absurd hfamily not_false
    | v6 dst =>
      refine ⟨_, _, answer_v6 table kind src dst, fun hevicted => ?_⟩
      obtain ⟨h4, h6⟩ := not_or.mp hevicted
      rw [hkind.score_eq] at h6 ⊢
      have hkept := eq_false_of_ne_true h6
      refine ⟨not_or.mpr ⟨h4, ?_⟩, Iff.trans ?_ (firstPacketScore_keeps_iff hkept)⟩
      · rw [firstPacketScore_evicted hkept]
        exact Bool.false_ne_true
      · simp [KeepsMax, forall_serviceKey, ServiceTable.stored]

theorem run_plain {calls : List Call} (h : ∀ call ∈ calls, call.Plain) (table : ServiceTable) :
    ∃ t, run step table calls = .ok t ∧ (¬ t.Evicted → ¬ table.Evicted) := by
  induction calls generalizing table with
  | nil => exact ⟨table, rfl, id⟩
  | cons call calls ih =>
    obtain ⟨hcall, hcalls⟩ := List.forall_mem_cons.mp h
    obtain ⟨scores, table', hok, hspec⟩ := answer_spec hcall table
    obtain ⟨t, hrun, hback⟩ := ih hcalls table'
    refine ⟨t, ?_, fun ht => (hspec (hback ht)).1⟩
    rw [run, step, hok]
    exact hrun

/-- **Services that have answered stay known if and only if none of them has a configured
port** when it takes part in a first packet. -/
theorem answered_stay_known_iff {calls : List Call} (hplain : ∀ call ∈ calls, call.Plain)
    (hroom : ∀ t, run step table calls = .ok t → ¬ t.Evicted) :
    StaysKnown table calls ↔ StepsObey step Clear table calls := by
  induction calls generalizing table with
  | nil => exact Iff.rfl
  | cons call calls ih =>
    obtain ⟨hcall, hcalls⟩ := List.forall_mem_cons.mp hplain
    obtain ⟨scores, table', hok, hspec⟩ := answer_spec hcall table
    have hstep : step table call = .ok table' := by rw [step, hok, ok_bind]
    have hroom' : ∀ t, run step table' calls = .ok t → ¬ t.Evicted := by
      intro t ht
      apply hroom
      rw [run, hstep, ok_bind, ht]
    obtain ⟨t, hrun, hback⟩ := run_plain hcalls table'
    have hkeeps := (hspec (hback (hroom' t hrun))).2
    rw [stepsObey_cons hstep, ← ih table' hcalls hroom', ← hkeeps]
    constructor
    · rintro ⟨scores', table'', hok', hkeep, hrest⟩
      rw [hok] at hok'
      cases hok'
      exact ⟨hkeep, hrest⟩
    · rintro ⟨hkeep, hrest⟩
      exact ⟨scores, table', hok, hkeep, hrest⟩

end Calls

/-- The service 0.0.0.0 at a port. -/
def serviceAt (port : BitVec 16) : ServiceKey := .v4 ⟨.replicate 4 0, 0, port⟩

def tcpPacket (isFirstPacket : Bool) (tcpFlags : BitVec 8) : TcpPacket :=
  ⟨isFirstPacket, false, .clientToServer, tcpFlags, false, false⟩

/-- The table after SYN-ACKs, where port 80 is configured. -/
def knows (ports : List (BitVec 16)) : Exec ServiceTable :=
  run step (.new 10 10 [80]) (ports.map fun port =>
    ⟨.tcp (tcpPacket false TcpFlags.synAck), serviceAt port, serviceAt 40000⟩)

def firstPackets : List Call :=
  [⟨.tcp (tcpPacket true 16), serviceAt 40001, serviceAt 53⟩,
    ⟨.udp true false .clientToServer, serviceAt 80, serviceAt 53⟩]

theorem firstPackets_plain : ∀ call ∈ firstPackets, call.Plain := by
  simp only [firstPackets, List.forall_mem_cons, List.not_mem_nil, false_implies, implies_true,
    and_true]
  exact ⟨⟨⟨rfl, rfl, rfl, rfl, rfl⟩, trivial⟩, rfl, trivial⟩

/-- First packets to a server that has answered, of two clients and a configured port. -/
theorem answered_stay_known : ∃ table, knows [53] = .ok table ∧
    table.stored (serviceAt 53) = some maxScore ∧ StaysKnown table firstPackets := by
  have hruns : delivers (knows [53]) (fun table =>
      table.stored (serviceAt 53) = some maxScore &&
        checkSteps step (Clear · ·) table firstPackets &&
          delivers (run step table firstPackets) fun t => ! decide t.Evicted) = true := by
    decide
  obtain ⟨table, hknows, htest⟩ := eq_ok_of_delivers hruns
  rw [Bool.and_eq_true, Bool.and_eq_true, decide_eq_true_iff] at htest
  obtain ⟨⟨hstored, hclear⟩, hroom⟩ := htest
  obtain ⟨t, hrun, hevicted⟩ := eq_ok_of_delivers hroom
  refine ⟨table, hknows, hstored, (answered_stay_known_iff table firstPackets_plain ?_).mpr
    (stepsObey_of_check (fun _ _ => of_decide_eq_true) hclear)⟩
  intro t' ht'
  rw [hrun] at ht'
  cases ht'
  simpa using hevicted

/-- The server of port 80 sends a SYN-ACK, and then a packet that starts a flow. -/
theorem configured_service_forgotten : delivers (knows [80]) fun table =>
    table.stored (serviceAt 80) = some maxScore &&
      delivers (answer table ⟨.tcp (tcpPacket true 16), serviceAt 80, serviceAt 40001⟩)
        fun result => result.1.1 = 253 && result.2.stored (serviceAt 80) = some 253 := by
  decide

section Decisions

open Scores LruCache

def isClientToServer (scores : BitVec 8 × BitVec 8) : Bool := scores.1 ≤ scores.2

/-- A packet that is not the first one of its flow, without SYN and TOA. -/
inductive Kind.Later (reverse : Bool) : Kind → Prop
  | tcp (direction : PacketDirection) (flags : BitVec 8)
    (hsynAck : contains flags TcpFlags.synAck = false)
    (hsyn : contains flags TcpFlags.syn = false) :
    Later reverse (.tcp ⟨false, reverse, direction, flags, false, false⟩)
  | udp (direction : PacketDirection) : Later reverse (.udp false reverse direction)

variable [Crate] {n : Nat} (adjusts : Bool) (s : Scores n) (src dst : IpKey n)

/-- Only the source has a low port: by close scores it is then the server. -/
def portsTurn : Bool := adjusts && !src.port.msb && dst.port.msb

/-- Whether scores make the source the client, by what the ports say of either side. -/
def readsClient (turns stays : Bool) (srcScore dstScore : BitVec 8) : Bool :=
  let diffValue := if srcScore > dstScore then srcScore - dstScore else dstScore - srcScore
  if diffValue < scoreDiffThreshold ∧ (turns || stays) then stays else srcScore ≤ dstScore

/-- Where a decision lasts, in its address family. -/
def Kind.Lasts : Kind → Prop
  | .tcp ⟨_, _, .clientToServer, _, _, _⟩ => src ≠ dst
  | .tcp ⟨_, _, .serverToClient, _, _, _⟩ => portsTurn adjusts src dst = false
  | .udp _ _ .clientToServer => src ≠ dst ∧ (portsTurn adjusts src dst = true ∨
      (s.get dst).1 < if portsTurn adjusts dst src then 248 else 255)
  | .udp _ _ .serverToClient => portsTurn adjusts src dst = true → (s.get src).1 < 248

variable {adjusts s src dst} {t : Scores n} {key : IpKey n} {score : BitVec 8}
  {kind kind' : Kind}

theorem Scores.get_of_sets {new : Option (BitVec 8)} (h : Sets s.cache t.cache key new)
    (j : IpKey n) : (t.get j).1 = if j = key then new.getD 0 else (s.get j).1 := by
  unfold Scores.get
  rw [get_fst, get_fst]
  split
  next heq => rw [heq, h.self]
  next hj => rw [h.other j hj]

theorem Scores.get_put (h : (s.put key score).evicted = false) (j : IpKey n) :
    ((s.put key score).get j).1 = if j = key then score else (s.get j).1 :=
  get_of_sets (t := s.put key score) (sets_place (put_evicted h).2 score) j

theorem Scores.get_pop (j : IpKey n) :
    ((s.pop key).get j).1 = if j = key then 0 else (s.get j).1 :=
  get_of_sets (t := s.pop key) (sets_remove s.cache key) j

theorem storedScore_client {a b : BitVec 8} (ha : (s.get src).1 = a) (hb : (s.get dst).1 = b) :
    isClientToServer (storedScore adjusts s src dst).1 =
      readsClient (portsTurn adjusts src dst) (portsTurn adjusts dst src) a b := by
  have hmsb : ∀ x : BitVec 16, x &&& portMsb = if x.msb then portMsb else 0 :=
    fun x => BitVec.and_twoPow x 15
  have hdst : ((s.get src).2.get dst).1 = b := by
    rw [← hb]
    unfold Scores.get
    dsimp only
    rw [get_fst, get_fst, peek_get]
  unfold storedScore adjustScore portsTurn readsClient
  dsimp only
  rw [ha, hdst, hmsb, hmsb, BitVec.msb_xor]
  generalize (if a > b then a - b else b - a) = diffValue
  by_cases hdiff : diffValue < scoreDiffThreshold
  all_goals
    cases adjusts <;> cases src.port.msb <;> cases dst.port.msb <;>
      simp [isClientToServer, portMsb, hdiff]

omit [Crate] in
theorem portsTurn_self : portsTurn adjusts src src = false := by
  rw [portsTurn, Bool.and_assoc, Bool.not_and_self, Bool.and_false]

/-- **When a decision lasts, in its address family.** -/
theorem Kind.score_lasts_iff {portMap : List (BitVec 16)} (hk : kind.Later true)
    (hk' : kind'.Later false) (h : (kind.score portMap adjusts s src dst).2.evicted = false) :
    isClientToServer
          (kind'.score portMap adjusts (kind.score portMap adjusts s src dst).2 src dst).1 =
        isClientToServer (kind.score portMap adjusts s src dst).1 ↔
      kind.Lasts adjusts s src dst := by
  have hlater : ∀ t : Scores n,
      kind'.score portMap adjusts t src dst = storedScore adjusts t src dst := by
    intro t
    cases hk' with
    | tcp direction flags hsynAck hsyn =>
      simp only [Kind.score, tcpScore, hsynAck, hsyn, Bool.or_self, Bool.false_eq_true, if_false]
    | udp direction => rfl
  have hone : portsTurn adjusts src dst = true → portsTurn adjusts dst src = false := by
    unfold portsTurn
    cases src.port.msb <;> simp
  rw [hlater]
  cases hk with
  | tcp direction flags hsynAck hsyn =>
    simp only [Kind.score, tcpScore, hsynAck, hsyn, Bool.or_self, Bool.false_eq_true, if_false,
      if_true] at h ⊢
    cases direction
    all_goals
      dsimp only [Kind.Lasts] at h ⊢
      rw [storedScore_client (get_pop _) (get_pop _), get_put h, if_pos rfl,
        if_pos rfl]
    · by_cases heq : src = dst
      · rw [if_pos heq, heq, portsTurn_self]
        exact iff_of_false (by decide) fun hne => hne rfl
      · rw [if_neg heq]
        refine iff_of_true ?_ heq
        cases portsTurn adjusts src dst <;> cases portsTurn adjusts dst src <;> rfl
    · rw [minScore, ite_self]
      generalize portsTurn adjusts src dst = turns, portsTurn adjusts dst src = stays at *
      revert turns stays
      decide
  | udp direction =>
    cases direction
    all_goals
      simp only [Kind.score, udpScore, Bool.false_eq_true, if_false, if_true] at h ⊢
      dsimp only [Kind.Lasts] at h ⊢
      rw [storedScore_client (get_put h src) (get_put h dst), if_pos rfl]
    · by_cases heq : dst = src
      · rw [if_pos heq, heq, portsTurn_self]
        exact iff_of_false (by decide) fun hne => hne.1 rfl
      · rw [if_neg heq, and_iff_right (Ne.symm heq)]
        generalize portsTurn adjusts src dst = turns, portsTurn adjusts dst src = stays,
          (s.get dst).1 = score at *
        revert turns stays score
        decide
    · by_cases heq : src = dst
      · rw [if_pos heq, heq, portsTurn_self]
        exact iff_of_true (by decide) fun h => absurd h Bool.false_ne_true
      · rw [if_neg heq]
        generalize portsTurn adjusts src dst = turns, portsTurn adjusts dst src = stays,
          (s.get src).1 = score at *
        revert turns stays score
        decide

variable (table : ServiceTable) {src dst : ServiceKey}

/-- A call and a later one with the same keys give the same direction. -/
def remembered (kind kind' : Kind) (src dst : ServiceKey) : Bool :=
  delivers (answer table ⟨kind, src, dst⟩) fun result =>
    delivers (answer result.2 ⟨kind', src, dst⟩) fun later =>
      isClientToServer later.1 == isClientToServer result.1

def DecisionLasts (kind : Kind) : ServiceKey → ServiceKey → Prop
  | .v4 src, .v4 dst => kind.Lasts true table.ipv4 src dst
  | .v6 src, .v6 dst => kind.Lasts false table.ipv6 src dst
  | _, _ => False

/-- **When a decision is remembered.**  What is returned is not what is stored: a decision for
the destination of a TCP packet is not stored at all. -/
theorem decision_remembered_iff (hk : kind.Later true) (hk' : kind'.Later false)
    (hfamily : SameFamily src dst)
    (hroom : ∀ t, step table ⟨kind, src, dst⟩ = .ok t → ¬ t.Evicted) :
    remembered table kind kind' src dst = true ↔ DecisionLasts table kind src dst := by
  unfold remembered
  cases src <;> cases dst
  · rw [answer_v4, delivers]
    rw [answer_v4, delivers, beq_iff_eq]
    exact Kind.score_lasts_iff hk hk'
      (eq_false_of_ne_true (not_or.mp (hroom _ (by rw [step, answer_v4, ok_bind]))).1)
  · exact hfamily.elim
  · exact hfamily.elim
  · rw [answer_v6, delivers]
    rw [answer_v6, delivers, beq_iff_eq]
    exact Kind.score_lasts_iff hk hk'
      (eq_false_of_ne_true (not_or.mp (hroom _ (by rw [step, answer_v6, ok_bind]))).2)

end Decisions

def turning (reverse : Bool) : Kind := .tcp ⟨false, reverse, .serverToClient, 16, false, false⟩

/-- From port 80 to port 81 the decision is remembered. -/
theorem decision_remembered :
    remembered (.new 9 9 []) (turning true) (turning false) (serviceAt 80) (serviceAt 81) := by
  refine (decision_remembered_iff _ (.tcp _ _ rfl rfl) (.tcp _ _ rfl rfl) ?_ ?_).mpr ?_
  · trivial
  · intro t ht
    cases ht
    decide
  · change portsTurn .. = false
    decide

/-- From port 80 to port 40000 the server is the destination, and then the source. -/
theorem decision_forgotten :
    delivers (answer (.new 9 9 []) ⟨turning true, serviceAt 80, serviceAt 40000⟩) fun result =>
      result.1 = (0, 255) && !decide result.2.Evicted &&
        delivers (answer result.2 ⟨turning false, serviceAt 80, serviceAt 40000⟩) fun later =>
          later.1 = (1, 0) := by
  decide

end ZeroTrace.FlowGenerator.Service
