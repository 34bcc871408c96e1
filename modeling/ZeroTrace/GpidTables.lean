import Mathlib.Data.List.AList
import ZeroTrace.FlowKey
import ZeroTrace.RunInvariants

/-!
# Handing process tables to the queues

`update_gpids` builds a table of processes and leaves a copy for each queue, together with a
flag.  A queue that finds its flag raised takes the copy and lowers the flag.  A copy is only
left where the flag is down: an update that meets a raised flag passes the queue over, and
the queue goes on with the table of an earlier update.

The updating thread and the queues take their steps in any order.  Tables carry the number of
the update that built them.
-/

namespace ZeroTrace.Policy.Gpid

open RustExec FlowGenerator Runs Option Bool Except Nat

inductive GpidProtocol where
  | tcp
  | udp
  | max
  deriving DecidableEq

/-- `u8::from(GpidProtocol)`. -/
def GpidProtocol.toU8 : GpidProtocol → Nat
  | .tcp => 0
  | .udp => 1
  | .max => 2

inductive RoleType where
  | none
  | client
  | server
  deriving DecidableEq

structure GpidEntry where
  protocol : GpidProtocol := .udp
  epcId1 : BitVec 32 := 0
  ip1 : BitVec 32 := 0
  port1 : BitVec 16 := 0
  pid1 : BitVec 32 := 0
  epcId0 : BitVec 32 := 0
  ip0 : BitVec 32 := 0
  port0 : BitVec 16 := 0
  pid0 : BitVec 32 := 0
  roleReal : RoleType := .none
  epcIdReal : BitVec 32 := 0
  ipReal : BitVec 32 := 0
  portReal : BitVec 16 := 0
  pidReal : BitVec 32 := 0
  deriving DecidableEq

def gpidKey (ip epcId : BitVec 32) (port : BitVec 16) : BitVec 64 :=
  ip.setWidth 64 <<< 32 ||| (epcId &&& 0xffff).setWidth 64 <<< 16 ||| port.setWidth 64

def GpidEntry.clientKey (entry : GpidEntry) : BitVec 64 :=
  gpidKey entry.ip0 entry.epcId0 entry.port0

def GpidEntry.serverKey (entry : GpidEntry) : BitVec 64 :=
  gpidKey entry.ip1 entry.epcId1 entry.port1

/-- The entries of one protocol. -/
abbrev GpidMap := AList fun _ : BitVec 128 => GpidEntry

/-- An entry is filed in both directions, under its protocol. -/
def fileEntry (maps : List GpidMap) (entry : GpidEntry) : List GpidMap :=
  if maps.length ≤ entry.protocol.toU8 then maps
  else
    maps.modify entry.protocol.toU8 fun map =>
      (map.insert (entry.clientKey ++ entry.serverKey) entry).insert
        (entry.serverKey ++ entry.clientKey) entry

/-- What a queue looks into, with the number of the update that built it. -/
structure Table where
  maps : List GpidMap := [∅, ∅]
  update : Nat := 0

/-- The table that `update_gpids` builds. -/
def Table.build (update : Nat) (entries : List GpidEntry) : Table where
  maps := entries.foldl fileEntry [∅, ∅]
  update := update

/-- `LookupKey`, as far as `lookup_gpid_entry` reads it. -/
structure GpidPacket where
  ethType : EthernetType := .ipv4
  proto : IpProtocol := .tcp
  srcNatSource : BitVec 8 := 0
  srcNatIp : IpAddr := .unspecified
  srcNatPort : BitVec 16 := 0
  srcIp : IpAddr := .unspecified
  srcPort : BitVec 16 := 0
  dstNatSource : BitVec 8 := 0
  dstNatIp : IpAddr := .unspecified
  dstNatPort : BitVec 16 := 0
  dstIp : IpAddr := .unspecified
  dstPort : BitVec 16 := 0

namespace GpidPacket

def natSourceToa : BitVec 8 := 6

/-- `u32::from(Ipv4Addr)`. -/
def ipv4Bits (octets : Vector (BitVec 8) 4) : BitVec 32 :=
  octets[0] ++ octets[1] ++ octets[2] ++ octets[3]

/-- The address and port of one side. -/
def endpoint (natSource : BitVec 8) (natIp : IpAddr) (natPort : BitVec 16) (ip : IpAddr)
    (port : BitVec 16) : BitVec 32 × BitVec 16 :=
  if natSourceToa = natSource then
    match natIp with
    | .v4 addr => (ipv4Bits addr, natPort)
    | .v6 _ => (0, natPort)
  else
    match ip with
    | .v4 addr => (ipv4Bits addr, port)
    | .v6 _ => (0, 0)

def key (packet : GpidPacket) : BitVec 128 :=
  let (ip0, port0) := endpoint packet.srcNatSource packet.srcNatIp packet.srcNatPort packet.srcIp
    packet.srcPort
  let (ip1, port1) := endpoint packet.dstNatSource packet.dstNatIp packet.dstNatPort packet.dstIp
    packet.dstPort
  gpidKey ip0 0 port0 ++ gpidKey ip1 0 port1

/-- `GpidProtocol::try_from(IpProtocol)`. -/
def protocol? (packet : GpidPacket) : Option GpidProtocol :=
  if packet.proto = .tcp then some .tcp
  else if packet.proto = .udp then some .udp
  else none

/-- Whether a packet is looked up at all. -/
def Eligible (packet : GpidPacket) : Prop :=
  packet.ethType = .ipv4 ∧ (packet.proto = .udp ∨ packet.proto = .tcp)

instance (packet : GpidPacket) : Decidable packet.Eligible := inferInstanceAs (Decidable (_ ∧ _))

def entryIn (packet : GpidPacket) (table : Table) : Exec GpidEntry :=
  unwrap packet.protocol? >>= fun protocol =>
    index table.maps protocol.toU8 >>= fun map => .ok ((map.lookup packet.key).getD {})

end GpidPacket

/-- Where a queue stands in `lookup_gpid_entry`, with its packet and the number of the last
update that had returned when the lookup began. -/
inductive Phase where
  | idle
  | taking (packet : GpidPacket) (returned : Nat)
  | lowering (packet : GpidPacket) (returned : Nat)
  | consulting (packet : GpidPacket) (returned : Nat)

structure Queue where
  nats : Table := {}
  flag : Bool := false
  cache : Option Table := none
  phase : Phase := .idle
  answer : GpidEntry := {}

/-- Where the updating thread stands in `update_gpids`. -/
inductive Updater where
  | idle
  | loading (table : Table) (queue : Nat)
  | writing (table : Table) (queue : Nat)
  | raising (table : Table) (queue : Nat)

def maxQueueCount : Nat := 128

/-- The policy, as far as process tables are concerned. -/
structure State where
  updater : Updater := .idle
  update : Nat := 0
  queues : Nat → Queue := fun _ => {}

namespace State

/-- The number of the last update that has returned. -/
def returned (s : State) : Nat :=
  match s.updater with
  | .idle => s.update
  | .loading _ _ | .writing _ _ | .raising _ _ => s.update - 1

/-- The queue after the last one an update has served. -/
def passed (s : State) : Nat :=
  match s.updater with
  | .idle => maxQueueCount
  | .loading _ q | .writing _ q | .raising _ q => q

def setQueue (s : State) (q : Nat) (queue : Queue) : State :=
  { s with queues := Function.update s.queues q queue }

end State

inductive QueueStep where
  | lookup (packet : GpidPacket)
  | next

/-- A step of the program. -/
inductive Action where
  | updateGpids (entries : List GpidEntry)
  | updateNext
  | queue (q : Nat) (step : QueueStep)

/-- `lookup_gpid_entry`, step by step. -/
def Queue.step (queue : Queue) (returned : Nat) : QueueStep → Exec Queue
  | .lookup packet =>
    match queue.phase with
    | .idle =>
      if packet.Eligible then
        if queue.flag then .ok { queue with phase := .taking packet returned }
        else .ok { queue with phase := .consulting packet returned }
      else .ok { queue with answer := {} }
    | .taking _ _ | .lowering _ _ | .consulting _ _ => .ok queue
  | .next =>
    match queue.phase with
    | .idle => .ok queue
    | .taking packet returned =>
      unwrap queue.cache >>= fun table =>
        .ok { queue with nats := table, cache := none, phase := .lowering packet returned }
    | .lowering packet returned =>
      .ok { queue with flag := false, phase := .consulting packet returned }
    | .consulting packet _ =>
      packet.entryIn queue.nats >>= fun entry =>
        .ok { queue with answer := entry, phase := .idle }

/-- `update_gpids`, one step after the table is built. -/
def updateNext (s : State) : State :=
  match s.updater with
  | .idle => s
  | .loading table q =>
    if q < maxQueueCount then
      if (s.queues q).flag then { s with updater := .loading table (q + 1) }
      else { s with updater := .writing table q }
    else { s with updater := .idle }
  | .writing table q =>
    { s with updater := .raising table q }.setQueue q { s.queues q with cache := some table }
  | .raising table q =>
    { s with updater := .loading table (q + 1) }.setQueue q { s.queues q with flag := true }

def step (s : State) : Action → Exec State
  | .updateGpids entries =>
    match s.updater with
    | .idle =>
      .ok { s with
        updater := .loading (Table.build (s.update + 1) entries) 0, update := s.update + 1 }
    | .loading _ _ | .writing _ _ | .raising _ _ => .ok s
  | .updateNext => .ok (updateNext s)
  | .queue q action =>
    if q < maxQueueCount then
      (s.queues q).step s.returned action >>= fun queue => .ok (s.setQueue q queue)
    else .ok s

section Soundness

/-- A copy lies ready while the flag is raised, until it has been taken. -/
def Queue.Held (queue : Queue) : Prop :=
  match queue.phase with
  | .idle => queue.flag = true → queue.cache ≠ none
  | .taking packet _ => packet.Eligible ∧ queue.flag = true ∧ queue.cache ≠ none
  | .lowering packet _ => packet.Eligible ∧ queue.flag = true
  | .consulting packet _ => packet.Eligible ∧ (queue.flag = true → queue.cache ≠ none)

structure Queue.Sound (queue : Queue) : Prop where
  nats : queue.nats.maps.length = 2
  cache : ∀ table, queue.cache = some table → table.maps.length = 2
  held : queue.Held

/-- While a copy is handed over, the flag is down. -/
def Updater.Handing (u : Updater) (q : Nat) (queue : Queue) : Prop :=
  match u with
  | .idle | .loading _ _ => True
  | .writing _ p => p = q → queue.flag = false
  | .raising table p => p = q → queue.flag = false ∧ queue.cache = some table

/-- The table a lookup that begins now consults. -/
def Queue.upcoming (queue : Queue) : Option Table :=
  if queue.flag then queue.cache else some queue.nats

/-- The table the next lookup of a queue consults comes from the update `e`, and a lookup on
its way consults nothing older than what had been there when it began. -/
def Queue.Current (e : Nat) (queue : Queue) : Prop :=
  match queue.phase with
  | .idle => ∃ table, queue.upcoming = some table ∧ table.update = e
  | .taking _ r => r ≤ e ∧ ∃ table, queue.upcoming = some table ∧ table.update = e
  | .lowering _ r => r ≤ e ∧ queue.nats.update = e
  | .consulting _ r =>
    r ≤ queue.nats.update ∧ ∃ table, queue.upcoming = some table ∧ table.update = e

theorem length_fileEntry (maps : List GpidMap) (entry : GpidEntry) :
    (fileEntry maps entry).length = maps.length := by
  unfold fileEntry
  split
  · rfl
  · exact List.length_modify _ _ _

theorem length_build {update : Nat} {entries : List GpidEntry} :
    (Table.build update entries).maps.length = 2 := by
  refine List.foldlRecOn (motive := (·.length = 2)) (b := [∅, ∅]) entries fileEntry rfl ?_
  exact fun maps hmaps entry _ => (length_fileEntry maps entry).trans hmaps

variable {table : Table} {packet : GpidPacket}

theorem GpidPacket.Eligible.entryIn_ok (h : packet.Eligible) (htable : table.maps.length = 2) :
    ∃ entry, packet.entryIn table = .ok entry := by
  have hprotocol : ∃ protocol, packet.protocol? = some protocol ∧ protocol.toU8 < 2 := by
    unfold GpidPacket.protocol?
    by_cases htcp : packet.proto = .tcp
    · exact ⟨.tcp, if_pos htcp, by decide⟩
    · rw [if_neg htcp, if_pos (h.2.resolve_right htcp)]
      exact ⟨.udp, rfl, by decide⟩
  obtain ⟨protocol, hsome, hlt⟩ := hprotocol
  have hget := List.getElem?_eq_getElem (htable.symm ▸ hlt : protocol.toU8 < table.maps.length)
  refine ⟨(table.maps[protocol.toU8].lookup packet.key).getD {}, ?_⟩
  have hunwrap : unwrap (some protocol) = .ok protocol := rfl
  rw [GpidPacket.entryIn, hsome, hunwrap, ok_bind, index_ok hget, ok_bind]

variable {queue : Queue} {q : Nat}

/-- **A step of a queue.**  It does not panic, it leaves the flag alone while that is down,
and what the queue consults next does not change. -/
theorem Queue.Sound.step (h : queue.Sound) (r : Nat) (a : QueueStep) :
    ∃ queue', queue.step r a = .ok queue' ∧ queue'.Sound ∧
      (queue.flag = false → queue'.flag = false ∧ queue'.cache = queue.cache) ∧
      ∀ e, r ≤ e → queue.Current e → queue'.Current e := by
  obtain ⟨nats, flag, cache, phase, answer⟩ := queue
  obtain ⟨hnats, hcache, hheld⟩ := h
  cases a with
  | lookup packet =>
    cases phase with
    | idle =>
      by_cases hpacket : packet.Eligible
      · cases flag with
        | false =>
          refine ⟨_, if_pos hpacket, ⟨hnats, hcache, hpacket, hheld⟩, fun _ => ⟨rfl, rfl⟩, ?_⟩
          rintro e hr ⟨table, hnext, rfl⟩
          exact ⟨some.inj hnext ▸ hr, table, hnext, rfl⟩
        | true =>
          refine ⟨_, if_pos hpacket, ⟨hnats, hcache, hpacket, rfl, hheld rfl⟩,
            nofun, fun e hr hcurrent => ⟨hr, hcurrent⟩⟩
      · exact ⟨_, if_neg hpacket, ⟨hnats, hcache, hheld⟩, fun hflag => ⟨hflag, rfl⟩,
          fun _ _ hcurrent => hcurrent⟩
    | _ =>
      exact ⟨_, rfl, ⟨hnats, hcache, hheld⟩, fun hflag => ⟨hflag, rfl⟩, fun _ _ h => h⟩
  | next =>
    cases phase with
    | idle => exact ⟨_, rfl, ⟨hnats, hcache, hheld⟩, fun hflag => ⟨hflag, rfl⟩, fun _ _ h => h⟩
    | taking p k =>
      obtain ⟨hp, hflag, hsome⟩ := hheld
      obtain ⟨table, rfl⟩ := ne_none_iff_exists'.mp hsome
      refine ⟨_, rfl, ⟨hcache table rfl, fun t ht => absurd ht.symm (some_ne_none t), hp, hflag⟩,
        fun hdown => absurd (hdown.symm.trans hflag) false_ne_true, ?_⟩
      rintro e - ⟨hk, table', hnext, rfl⟩
      have htable : (some table : Option Table) = some table' := (if_pos hflag).symm.trans hnext
      exact ⟨hk, congrArg Table.update (some.inj htable)⟩
    | lowering p k =>
      refine ⟨_, rfl, ⟨hnats, hcache, hheld.1, nofun⟩,
        fun hdown => absurd (hdown.symm.trans hheld.2) false_ne_true, ?_⟩
      rintro e - ⟨hk, hnext⟩
      exact ⟨hk.trans_eq hnext.symm, nats, rfl, hnext⟩
    | consulting p k =>
      obtain ⟨entry, hentry⟩ := hheld.1.entryIn_ok hnats
      refine ⟨⟨nats, flag, cache, .idle, entry⟩, ?_, ⟨hnats, hcache, hheld.2⟩,
        fun hflag => ⟨hflag, rfl⟩, fun e _ hcurrent => hcurrent.2⟩
      rw [Queue.step]
      dsimp only
      rw [hentry, ok_bind]

def Updater.table? : Updater → Option Table
  | .idle => none
  | .loading table _ | .writing table _ | .raising table _ => some table

/-- What always holds. -/
structure State.Sound (s : State) : Prop where
  table : ∀ table, s.updater.table? = some table →
    table.maps.length = 2 ∧ table.update = s.update ∧ 0 < s.update
  queues : ∀ q, (s.queues q).Sound ∧ s.updater.Handing q (s.queues q)

theorem sound_init : ({} : State).Sound where
  table table h := absurd h.symm (some_ne_none table)
  queues _ := ⟨⟨rfl, fun t ht => absurd ht.symm (some_ne_none t),
    nofun⟩, trivial⟩

theorem Updater.Handing.queueStep {u : Updater} {queue queue' : Queue} (h : u.Handing q queue)
    (hsame : queue.flag = false → queue'.flag = false ∧ queue'.cache = queue.cache) :
    u.Handing q queue' := by
  cases u with
  | writing table p => exact fun hp => (hsame (h hp)).1
  | raising table p =>
    intro hp
    obtain ⟨hflag, hcache⟩ := h hp
    obtain ⟨hflag', hcache'⟩ := hsame hflag
    exact ⟨hflag', hcache'.trans hcache⟩
  | _ => trivial

theorem Queue.Sound.phase_cases (h : queue.Sound) (hflag : queue.flag = false) :
    queue.phase = .idle ∨ ∃ packet r, queue.phase = .consulting packet r := by
  obtain ⟨nats, flag, cache, phase, answer⟩ := queue
  subst hflag
  have hheld := h.held
  cases phase with
  | idle => exact .inl rfl
  | taking p k => exact absurd hheld.2.1 false_ne_true
  | lowering p k => exact absurd hheld.2 false_ne_true
  | consulting p k => exact .inr ⟨p, k, rfl⟩

theorem Queue.Sound.write (h : queue.Sound) (hflag : queue.flag = false)
    (htable : table.maps.length = 2) : { queue with cache := some table }.Sound := by
  obtain ⟨nats, flag, cache, phase, answer⟩ := queue
  subst hflag
  refine ⟨h.nats, fun t ht => some.inj ht ▸ htable, ?_⟩
  obtain rfl | ⟨p, k, rfl⟩ := h.phase_cases rfl
  · exact nofun
  · exact ⟨h.held.1, nofun⟩

theorem Queue.Sound.raise (h : queue.Sound) (hflag : queue.flag = false)
    (hcache : queue.cache = some table) : { queue with flag := true }.Sound := by
  obtain ⟨nats, flag, cache, phase, answer⟩ := queue
  subst hflag
  have hsome : cache ≠ none := fun hnone => absurd (hcache.symm.trans hnone) (some_ne_none _)
  refine ⟨h.nats, h.cache, ?_⟩
  obtain rfl | ⟨p, k, rfl⟩ := h.phase_cases rfl
  · exact fun _ => hsome
  · exact ⟨h.held.1, fun _ => hsome⟩

theorem queues_setQueue (s : State) (p : Nat) (queue : Queue) (q : Nat) :
    (s.setQueue p queue).queues q = if q = p then queue else s.queues q :=
  Function.update_apply s.queues p queue q

variable {s : State} {e : Nat}

theorem State.Sound.updateNext (h : s.Sound) : (updateNext s).Sound := by
  obtain ⟨u, update, queues⟩ := s
  obtain ⟨htable, hqueues⟩ := h
  cases u with
  | idle => exact ⟨htable, hqueues⟩
  | loading table p =>
    unfold updateNext
    dsimp only
    split
    · split
      · exact ⟨htable, fun q => ⟨(hqueues q).1, trivial⟩⟩
      · next hflag =>
        refine ⟨htable, fun q => ⟨(hqueues q).1, ?_⟩⟩
        rintro rfl
        exact not_eq_true _ ▸ hflag
    · exact ⟨fun t ht => absurd ht.symm (some_ne_none t), fun q => ⟨(hqueues q).1, trivial⟩⟩
  | writing table p =>
    have hflag : (queues p).flag = false := (hqueues p).2 rfl
    refine ⟨htable, fun q => ?_⟩
    rw [updateNext, queues_setQueue]
    by_cases hq : q = p
    · subst hq
      rw [if_pos rfl]
      exact ⟨(hqueues q).1.write hflag (htable table rfl).1, fun _ => ⟨hflag, rfl⟩⟩
    · rw [if_neg hq]
      exact ⟨(hqueues q).1, fun hp => absurd hp.symm hq⟩
  | raising table p =>
    obtain ⟨hflag, hcache⟩ := (hqueues p).2 rfl
    refine ⟨htable, fun q => ?_⟩
    rw [updateNext, queues_setQueue]
    by_cases hq : q = p
    · subst hq
      rw [if_pos rfl]
      exact ⟨(hqueues q).1.raise hflag hcache, trivial⟩
    · rw [if_neg hq]
      exact ⟨(hqueues q).1, trivial⟩

/-- **No step panics.** -/
theorem State.Sound.step (h : s.Sound) (a : Action) : ∃ s', step s a = .ok s' ∧ s'.Sound := by
  cases a with
  | updateGpids entries =>
    obtain ⟨u, update, queues⟩ := s
    cases u with
    | idle =>
      refine ⟨_, rfl, fun t ht => ?_, fun q => ⟨(h.queues q).1, trivial⟩⟩
      obtain rfl := some.inj ht
      exact ⟨length_build, rfl, succ_pos update⟩
    | _ => exact ⟨_, rfl, h⟩
  | updateNext => exact ⟨_, rfl, h.updateNext⟩
  | queue q action =>
    by_cases hq : q < maxQueueCount
    · obtain ⟨queue', hstep, hsound, hsame, -⟩ := (h.queues q).1.step s.returned action
      rw [Gpid.step, if_pos hq, hstep, ok_bind]
      refine ⟨_, rfl, h.table, fun j => ?_⟩
      rw [queues_setQueue]
      by_cases hj : j = q
      · subst hj
        rw [if_pos rfl]
        exact ⟨hsound, (h.queues j).2.queueStep hsame⟩
      · rw [if_neg hj]
        exact h.queues j
    · exact ⟨s, if_neg hq, h⟩

/-- The update a queue's next lookup belongs to: the one on its way once it has passed the
queue, and the one before until then. -/
def State.due (s : State) (q : Nat) : Nat := if q < s.passed then s.update else s.update - 1

theorem due_of_lt (h : q < s.passed) : s.due q = s.update := if_pos h

theorem due_of_le (h : s.passed ≤ q) : s.due q = s.update - 1 :=
  if_neg (not_lt.mpr h)

theorem Queue.Current.goOn {s s' : State} (h : queue.Current (s.due q)) (hne : s.passed ≠ q)
    (hpassed : s'.passed = s.passed + 1) (hupdate : s'.update = s.update) :
    queue.Current (s'.due q) := by
  have hdue : s'.due q = s.due q := by
    unfold State.due
    rw [hpassed, hupdate]
    split <;> split <;> omega
  rw [hdue]
  exact h

/-- **Delivery.**  Once an update has passed a queue, its next lookup consults the table
of that update; and a lookup consults nothing older than the last table that had been
handed out before it began. -/
def Consults (q : Nat) (s : State) : Prop :=
  (q < s.passed → (s.queues q).Current s.update) ∧
    ∀ packet r, (s.queues q).phase = .consulting packet r → r ≤ (s.queues q).nats.update

/-- An update that comes to the queue finds its flag lowered. -/
def Clear (q : Nat) (s : State) : Action → Prop
  | .updateNext =>
    match s.updater with
    | .loading _ p => p = q → (s.queues q).flag = false
    | .idle | .writing _ _ | .raising _ _ => True
  | .updateGpids _ | .queue _ _ => True

/-- The states of runs in which the queue has not been passed over. -/
structure Delivered (q : Nat) (s : State) : Prop extends State.Sound s where
  current : (s.queues q).Current (s.due q)

theorem delivered_init (hq : q < maxQueueCount) : Delivered q {} where
  toSound := sound_init
  current := by
    rw [due_of_lt (show q < ({} : State).passed from hq)]
    exact ⟨{}, rfl, rfl⟩

theorem returned_le_due (s : State) (hq : q < maxQueueCount) : s.returned ≤ s.due q := by
  unfold State.returned State.due State.passed
  cases s.updater with
  | idle => exact (if_pos hq).symm.le
  | _ => dsimp only; split <;> omega

theorem Queue.Current.raise (h : queue.Current e) (hsound : queue.Sound)
    (hflag : queue.flag = false) (hcache : queue.cache = some table) :
    { queue with flag := true }.Current table.update := by
  obtain ⟨nats, flag, cache, phase, answer⟩ := queue
  subst hflag
  obtain rfl | ⟨p, k, rfl⟩ := hsound.phase_cases rfl
  · exact ⟨table, hcache, rfl⟩
  · exact ⟨h.1, table, hcache, rfl⟩

theorem Queue.Current.write (h : queue.Current e) (hsound : queue.Sound)
    (hflag : queue.flag = false) (table : Table) :
    { queue with cache := some table }.Current e := by
  obtain ⟨nats, flag, cache, phase, answer⟩ := queue
  subst hflag
  obtain rfl | ⟨p, k, rfl⟩ := hsound.phase_cases rfl <;> exact h

theorem Queue.Current.consulting (h : queue.Current e) {r : Nat}
    (hphase : queue.phase = .consulting packet r) : r ≤ queue.nats.update := by
  unfold Queue.Current at h
  rw [hphase] at h
  exact h.1

theorem Delivered.consults (h : Delivered q s) : Consults q s := by
  refine ⟨fun hpassed => ?_, fun packet r hphase => h.current.consulting hphase⟩
  have hcurrent := h.current
  rwa [State.due, if_pos hpassed] at hcurrent

theorem Delivered.updateNext (h : Delivered q s) (hq : q < maxQueueCount)
    (hclear : Clear q s .updateNext) : Delivered q (updateNext s) := by
  refine ⟨h.toSound.updateNext, ?_⟩
  obtain ⟨u, update, queues⟩ := s
  obtain ⟨⟨htable, hqueues⟩, hcurrent⟩ := h
  cases u with
  | idle => exact hcurrent
  | loading table p =>
    unfold updateNext
    dsimp only
    split
    · split
      · next hflag =>
        -- the queue that is passed over is another one
        have hne : p ≠ q := fun hp => absurd ((hclear hp).symm.trans (hp ▸ hflag)) false_ne_true
        exact hcurrent.goOn hne rfl rfl
      · exact hcurrent
    · next hp =>
      have hdone := hcurrent
      rw [due_of_lt (show q < p by omega)] at hdone
      rw [due_of_lt hq]
      exact hdone
  | writing table p =>
    have hflag : (queues p).flag = false := (hqueues p).2 rfl
    rw [updateNext, queues_setQueue]
    by_cases hqp : q = p
    · subst hqp
      rw [if_pos rfl]
      exact hcurrent.write (hqueues q).1 hflag table
    · rw [if_neg hqp]
      exact hcurrent
  | raising table p =>
    obtain ⟨hflag, hcache⟩ := (hqueues p).2 rfl
    rw [updateNext, queues_setQueue]
    by_cases hqp : q = p
    · subst hqp
      have hnew := hcurrent.raise (hqueues q).1 hflag hcache
      rw [(htable table rfl).2.1] at hnew
      rw [if_pos rfl, due_of_lt (lt_succ_self q)]
      exact hnew
    · rw [if_neg hqp]
      exact hcurrent.goOn (Ne.symm hqp) rfl rfl

theorem Delivered.step (h : Delivered q s) (hq : q < maxQueueCount) (a : Action)
    (hclear : Clear q s a) : ∃ s', step s a = .ok s' ∧ Delivered q s' := by
  obtain ⟨s', hok, hsound⟩ := h.toSound.step a
  refine ⟨s', hok, hsound, ?_⟩
  cases a with
  | updateGpids entries =>
    obtain ⟨u, update, queues⟩ := s
    cases u with
    | idle =>
      obtain rfl := ok.inj hok
      have hdone := h.current
      rw [due_of_lt hq] at hdone
      rw [due_of_le (zero_le q)]
      exact hdone
    | _ => exact ok.inj hok ▸ h.current
  | updateNext =>
    obtain rfl := ok.inj hok
    exact (h.updateNext hq hclear).current
  | queue p action =>
    by_cases hp : p < maxQueueCount
    · obtain ⟨queue', hstep, -, -, hkeep⟩ := (h.queues p).1.step s.returned action
      rw [Gpid.step, if_pos hp, hstep, ok_bind] at hok
      obtain rfl := ok.inj hok
      rw [queues_setQueue]
      by_cases hqp : q = p
      · subst hqp
        rw [if_pos rfl]
        exact hkeep _ (returned_le_due s hq) h.current
      · rw [if_neg hqp]
        exact h.current
    · rw [Gpid.step, if_neg hp] at hok
      exact ok.inj hok ▸ h.current

theorem Queue.Current.unique {e e' : Nat} (h : queue.Current e) (h' : queue.Current e') :
    e = e' := by
  obtain ⟨nats, flag, cache, phase, answer⟩ := queue
  cases phase with
  | idle =>
    obtain ⟨t, ht, rfl⟩ := h
    obtain ⟨t', ht', rfl⟩ := h'
    exact congrArg Table.update (some.inj (ht.symm.trans ht'))
  | lowering p k => exact h.2.symm.trans h'.2
  | _ =>
    obtain ⟨-, t, ht, rfl⟩ := h
    obtain ⟨-, t', ht', rfl⟩ := h'
    exact congrArg Table.update (some.inj (ht.symm.trans ht'))

theorem Delivered.passed_over (h : Delivered q s) (hq : q < maxQueueCount) {a : Action}
    (hbad : ¬ Clear q s a) {s' : State} (hok : Gpid.step s a = .ok s') : ¬ Consults q s' := by
  cases a with
  | updateGpids entries | queue p action => exact absurd trivial hbad
  | updateNext =>
    obtain ⟨u, update, queues⟩ := s
    cases u with
    | loading table p =>
      simp only [Clear, Classical.not_imp, not_eq_false] at hbad
      obtain ⟨rfl, hflag⟩ := hbad
      obtain rfl := ok.inj hok
      rw [Gpid.updateNext]
      dsimp only
      rw [if_pos hq, if_pos hflag]
      intro hconsults
      have hnew := hconsults.1 (lt_succ_self p)
      have hold := h.current
      rw [due_of_le (le_refl p)] at hold
      have hpos : 0 < update := (h.table table rfl).2.2
      have heq : update = update - 1 := hnew.unique hold
      omega
    | _ => exact absurd trivial hbad

/-- **No lookup panics, and a queue gets the tables of all updates if and only if no update
finds its flag raised**, whatever becomes of the other queues. -/
theorem updates_delivered_iff (as : List Action) :
    (∃ s, run step ({} : State) as = .ok s) ∧
      ∀ q : Fin maxQueueCount,
        StatesHold step (Consults q) {} as ↔ StepsObey step (Clear q) {} as := by
  constructor
  · have hall := statesHold_of_invariant (fun s a (h : State.Sound s) _ => h.step a) sound_init
      (stepsObey_true ({} : State) as)
    obtain ⟨s, hrun, -⟩ := hall.run_ok
    exact ⟨s, hrun⟩
  · rintro ⟨q, hq⟩
    exact statesHold_iff (fun s h => Delivered.consults h)
      (fun s a h hclear => Delivered.step h hq a hclear)
      (fun s a h hbad s' hok => Delivered.passed_over h hq hbad hok) (delivered_init hq)

/-- Two updates of the process of a connection, and then a lookup. -/
def secondUpdate : List Action :=
  [.updateGpids [{ protocol := .tcp, pid0 := 1 }]] ++ List.replicate 385 .updateNext ++
    [.updateGpids [{ protocol := .tcp, pid0 := 2 }]] ++ List.replicate 129 .updateNext ++
    [.queue 0 (.lookup {}), .queue 0 .next, .queue 0 .next, .queue 0 .next]

/-- After the second update the lookup still finds the process of the first. -/
theorem second_update_lost :
    ∃ s, run step {} secondUpdate = .ok s ∧ s.returned = 2 ∧ (s.queues 0).nats.update = 1 ∧
      (s.queues 0).answer.pid0 = 1 := by
  have hrun : delivers (run step {} secondUpdate) (fun s => s.returned = 2 ∧
      (s.queues 0).nats.update = 1 ∧ (s.queues 0).answer.pid0 = 1) = true := by
    decide +kernel
  obtain ⟨s, hok, htest⟩ := eq_ok_of_delivers hrun
  exact ⟨s, hok, of_decide_eq_true htest⟩

end Soundness

end ZeroTrace.Policy.Gpid
