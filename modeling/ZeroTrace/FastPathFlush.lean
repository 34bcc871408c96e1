import ZeroTrace.FirstPath
import ZeroTrace.LruCache
import ZeroTrace.RunInvariants

/-!
# Flushing the fast path

The fast path keeps the policies of packets it has seen, for each queue and tap type in a
map of its own, under keys that depend on two tables: the ports of interest and the network
masks.  The updating thread writes the tables and then flushes: it leaves a copy of the
tables for each queue whose flag is down and raises all flags.  A queue that finds its flag
raised empties its maps, gives them new tables, the copy first, and lowers the flag.

All threads take their steps in any order.  Every table carries the number of its writing,
and every entry of a map the oldest numbers it was computed from.  How a key is made from
the tables is left open.
-/

namespace ZeroTrace.Policy.Flush

open RustExec Lru Lru.Crate

/-- A table with the number of its writing. -/
structure Written (α : Type) where
  value : α
  stamp : Nat := 0

abbrev InterestTable := List PortRange

/-- The network masks, by the upper half of an address. -/
abbrev NetmaskTable := List (BitVec 32)

/-- The numbers of both tables. -/
structure Stamps where
  interest : Nat := 0
  netmask : Nat := 0
  deriving DecidableEq

instance : LE Stamps := ⟨fun a b => a.interest ≤ b.interest ∧ a.netmask ≤ b.netmask⟩

instance (a b : Stamps) : Decidable (a ≤ b) := inferInstanceAs (Decidable (_ ∧ _))

/-- A result with the oldest tables it was computed from. -/
structure Computed (α : Type) where
  value : α
  origin : Stamps

/-- How keys and policies are made: `interest_table_map`, `generate_map_key`, the protocol of a
packet, and the two directions of a policy and of endpoints. -/
structure Rules (Key K P E : Type) where
  interestTableMap : InterestTable → Key → Key
  generateMapKey : NetmaskTable → Key → K × K
  proto : Key → Nat
  forward : P → P
  backward : P → P
  reversed : E → E

structure PolicyTableItem (P E : Type) where
  store : Computed E
  protocolTable : Nat → Option (Computed P)

variable [Crate]

structure FastPathMap (K P E : Type) where
  interestTable : Written InterestTable
  netmaskTable : Written NetmaskTable
  policyTable : LruCache (K × K) (PolicyTableItem P E)

variable {Key K P E : Type} [DecidableEq K]

namespace FastPathMap

def new (interestTable : Written InterestTable) (netmaskTable : Written NetmaskTable)
    (mapSize : Nat) : FastPathMap K P E :=
  ⟨interestTable, netmaskTable, LruCache.new mapSize⟩

def clear (map : FastPathMap K P E) (interestTable : Written InterestTable)
    (netmaskTable : Written NetmaskTable) : FastPathMap K P E :=
  ⟨interestTable, netmaskTable, LruCache.new map.policyTable.cap⟩

def putPolicy (table : LruCache (K × K) (PolicyTableItem P E)) (key : K × K) (proto : Nat)
    (policy : Computed P) (endpoints : Computed E) : LruCache (K × K) (PolicyTableItem P E) :=
  match table.peek key with
  | some item =>
    table.place key
      { item with protocolTable := Function.update item.protocolTable proto (some policy) }
  | none => table.place key ⟨endpoints, Function.update (fun _ => none) proto (some policy)⟩

/-- `add_policy`, of a key whose ports were mapped by a table of the number `mapped`. -/
def addPolicy (rules : Rules Key K P E) (map : FastPathMap K P E) (key : Key) (mapped : Option Nat)
    (policy : P) (endpoints : E) : FastPathMap K P E :=
  let key := rules.interestTableMap map.interestTable.value key
  let (key0, key1) := rules.generateMapKey map.netmaskTable.value key
  let stamp := map.interestTable.stamp
  let origin : Stamps := ⟨min stamp (mapped.getD stamp), map.netmaskTable.stamp⟩
  let table := putPolicy map.policyTable (key0, key1) (rules.proto key)
    ⟨rules.forward policy, origin⟩ ⟨endpoints, origin⟩
  if key0 = key1 then { map with policyTable := table }
  else
    { map with
      policyTable := putPolicy table (key1, key0) (rules.proto key)
        ⟨rules.backward policy, origin⟩ ⟨rules.reversed endpoints, origin⟩ }

def getPolicy (rules : Rules Key K P E) (map : FastPathMap K P E) (key : Key) :
    Option (P × E) × FastPathMap K P E × Key :=
  let key := rules.interestTableMap map.interestTable.value key
  match map.policyTable.get (rules.generateMapKey map.netmaskTable.value key) with
  | (none, _) => (none, map, key)
  | (some item, table) =>
    ((item.protocolTable (rules.proto key)).map fun policy => (policy.value, item.store.value),
      { map with policyTable := table }, key)

end FastPathMap

/-- A lookup on its way: its key, which `get_policy` changes, the tap type, the numbers of the
tables of the last flush that had returned when it began, and the number of the table that
has mapped its ports. -/
structure Lookup (Key : Type) where
  key : Key
  tapType : Nat
  published : Stamps
  mapped : Option Nat := none

/-- Which of `get_policy` and `add_policy` is on. -/
inductive Call (P E : Type) where
  | get
  | add (policy : P) (endpoints : E)

/-- Where a queue stands. -/
inductive Phase (Key P E : Type) where
  | idle
  | checking (lookup : Lookup Key) (call : Call P E)
  | clearing (lookup : Lookup Key) (call : Call P E) (i : Nat)
  | clearingWith (lookup : Lookup Key) (call : Call P E) (i : Nat)
      (interestTable : Written InterestTable)
  | ensuring (lookup : Lookup Key) (call : Call P E)
  | creating (lookup : Lookup Key) (call : Call P E) (interestTable : Written InterestTable)
  | working (lookup : Lookup Key) (call : Call P E) (created : Bool)
  | computing (lookup : Lookup Key)

/-- What belongs to one queue.  `due` has the numbers of the tables with which its flag was
last raised. -/
structure Queue (Key K P E : Type) where
  flag : Bool := false
  cache : Option (Written InterestTable × Written NetmaskTable) := none
  tables : Nat → Option (FastPathMap K P E) := fun _ => none
  phase : Phase Key P E := .idle
  due : Stamps := {}

/-- Where the updating thread stands in `flush`. -/
inductive Updater where
  | idle
  | caching (queue : Nat)
  | flagging (queue : Nat)

/-- `u16::MAX as usize + 1`. -/
def portCount : Nat := 65536

/-- What the threads share, with the numbers of the tables of the last flush that has
returned. -/
structure Shared where
  interestTable : Written InterestTable := { value := List.replicate portCount ⟨0, 0⟩ }
  netmaskTable : Written NetmaskTable := { value := List.replicate portCount 0 }
  maskFromInterface : NetmaskTable := List.replicate portCount 0
  maskFromIpgroup : NetmaskTable := List.replicate portCount 0
  maskFromCidr : NetmaskTable := List.replicate portCount 0
  updater : Updater := .idle
  published : Stamps := {}

def maxTapType : Nat := 256

/-- The number of queues, `MAX_QUEUE_COUNT + 1`. -/
def queueCount : Nat := 129

namespace Shared

/-- The numbers of the tables as they are. -/
def stamps (shared : Shared) : Stamps := ⟨shared.interestTable.stamp, shared.netmaskTable.stamp⟩

/-- `generate_interest_table`, with the table it writes. -/
def generateInterestTable (shared : Shared) (table : InterestTable) : Shared :=
  { shared with interestTable := ⟨table, shared.interestTable.stamp + 1⟩ }

/-- `std::cmp::max`, of two masks. -/
def maxMask (a b : BitVec 32) : BitVec 32 := if a ≤ b then b else a

def generateMaskTable (shared : Shared) : Shared :=
  let masks := List.zipWith maxMask shared.maskFromInterface
    (List.zipWith maxMask shared.maskFromIpgroup shared.maskFromCidr)
  { shared with netmaskTable := ⟨masks, shared.netmaskTable.stamp + 1⟩ }

end Shared

namespace Queue

/-- Write the map of a tap type. -/
def setTable (queue : Queue Key K P E) (i : Nat) (map : FastPathMap K P E) : Queue Key K P E :=
  { queue with tables := Function.update queue.tables i (some map) }

/-- `table_flush_check`, once a map exists or has been created. -/
def work (rules : Rules Key K P E) (queue : Queue Key K P E) (lookup : Lookup Key)
    (created : Bool) :
    Call P E → Exec (Queue Key K P E)
  | .get =>
    if created then .ok { queue with phase := .computing lookup }
    else
      unwrap (queue.tables lookup.tapType) >>= fun map =>
        match map.getPolicy rules lookup.key with
        | (some _, map, _) => .ok { queue.setTable lookup.tapType map with phase := .idle }
        | (none, map', key) =>
          .ok { queue.setTable lookup.tapType map' with
            phase := .computing { lookup with key := key, mapped := some map.interestTable.stamp } }
  | .add policy endpoints =>
    unwrap (queue.tables lookup.tapType) >>= fun map =>
      .ok { queue.setTable lookup.tapType
          (map.addPolicy rules lookup.key lookup.mapped policy endpoints) with phase := .idle }

/-- The next step of a lookup: `table_flush_check`, and then `get_policy` or `add_policy`. -/
def next (rules : Rules Key K P E) (mapSize : Nat) (shared : Shared) (queue : Queue Key K P E) :
    Exec (Queue Key K P E) :=
  match queue.phase with
  | .idle => .ok queue
  | .checking lookup call =>
    if queue.flag then .ok { queue with phase := .clearing lookup call 0 }
    else .ok { queue with phase := .ensuring lookup call }
  | .clearing lookup call i =>
    if i < maxTapType then
      match queue.tables i with
      | none => .ok { queue with phase := .clearing lookup call (i + 1) }
      | some map =>
        match queue.cache with
        | some (interestTable, netmaskTable) =>
          .ok { queue.setTable i (map.clear interestTable netmaskTable) with
            cache := none, phase := .clearing lookup call (i + 1) }
        | none => .ok { queue with phase := .clearingWith lookup call i shared.interestTable }
    else .ok { queue with flag := false, phase := .ensuring lookup call }
  | .clearingWith lookup call i interestTable =>
    unwrap (queue.tables i) >>= fun map =>
      .ok { queue.setTable i (map.clear interestTable shared.netmaskTable) with
        phase := .clearing lookup call (i + 1) }
  | .ensuring lookup call =>
    match queue.tables lookup.tapType with
    | none => .ok { queue with phase := .creating lookup call shared.interestTable }
    | some _ => .ok { queue with phase := .working lookup call false }
  | .creating lookup call interestTable =>
    .ok { queue.setTable lookup.tapType
        (FastPathMap.new interestTable shared.netmaskTable mapSize) with
      phase := .working lookup call true }
  | .working lookup call created => queue.work rules lookup created call
  | .computing _ => .ok queue

/-- A lookup begins. -/
def start (shared : Shared) (queue : Queue Key K P E) (key : Key) (tapType : Nat) :
    Queue Key K P E :=
  match queue.phase with
  | .idle =>
    if tapType < maxTapType then
      { queue with phase := .checking ⟨key, tapType, shared.published, none⟩ .get }
    else queue
  | _ => queue

def compute (queue : Queue Key K P E) (policy : P) (endpoints : E) : Queue Key K P E :=
  match queue.phase with
  | .computing lookup => { queue with phase := .checking lookup (.add policy endpoints) }
  | _ => queue

end Queue

/-- `FastPath`. -/
structure State (Key K P E : Type) where
  shared : Shared := {}
  queues : Nat → Queue Key K P E := fun _ => {}

inductive QueueStep (Key P E : Type) where
  | start (key : Key) (tapType : Nat)
  | compute (policy : P) (endpoints : E)
  | next

/-- A step of the program: the setters, `flush` and its parts, and the queues. -/
inductive Action (Key P E : Type) where
  | generateInterestTable (table : InterestTable)
  | generateMaskFromInterface (masks : NetmaskTable)
  | generateMaskTableFromGroup (masks : NetmaskTable)
  | generateMaskTableFromCidr (masks : NetmaskTable)
  | generateMaskTable
  | flush
  | flushNext
  | queue (q : Nat) (step : QueueStep Key P E)

def Queue.step (rules : Rules Key K P E) (mapSize : Nat) (shared : Shared)
    (queue : Queue Key K P E) : QueueStep Key P E → Exec (Queue Key K P E)
  | .start key tapType => .ok (queue.start shared key tapType)
  | .compute policy endpoints => .ok (queue.compute policy endpoints)
  | .next => queue.next rules mapSize shared

namespace State

def setQueue (s : State Key K P E) (q : Nat) (queue : Queue Key K P E) : State Key K P E :=
  { s with queues := Function.update s.queues q queue }

/-- A setter runs while no flush does. -/
def set (s : State Key K P E) (change : Shared → Shared) : State Key K P E :=
  match s.shared.updater with
  | .idle => { s with shared := change s.shared }
  | .caching _ | .flagging _ => s

/-- `flush` after the masks are merged: `generate_caches` and then the flags. -/
def flushNext (s : State Key K P E) : State Key K P E :=
  match s.shared.updater with
  | .idle => s
  | .caching q =>
    if q < queueCount then
      let shared := { s.shared with updater := .caching (q + 1) }
      if (s.queues q).flag then { s with shared := shared }
      else
        { s with shared := shared }.setQueue q
          { s.queues q with cache := some (shared.interestTable, shared.netmaskTable) }
    else { s with shared := { s.shared with updater := .flagging 0 } }
  | .flagging q =>
    if q < queueCount then
      { s with shared := { s.shared with updater := .flagging (q + 1) } }.setQueue q
        { s.queues q with flag := true, due := s.shared.stamps }
    else { s with shared := { s.shared with updater := .idle, published := s.shared.stamps } }

end State

def step (rules : Rules Key K P E) (mapSize : Nat) (s : State Key K P E) :
    Action Key P E → Exec (State Key K P E)
  | .generateInterestTable table => .ok (s.set (·.generateInterestTable table))
  | .generateMaskFromInterface masks => .ok (s.set ({ · with maskFromInterface := masks }))
  | .generateMaskTableFromGroup masks => .ok (s.set ({ · with maskFromIpgroup := masks }))
  | .generateMaskTableFromCidr masks => .ok (s.set ({ · with maskFromCidr := masks }))
  | .generateMaskTable => .ok (s.set (·.generateMaskTable))
  | .flush => .ok (s.set ({ ·.generateMaskTable with updater := .caching 0 }))
  | .flushNext => .ok s.flushNext
  | .queue q action =>
    if q < queueCount then
      (s.queues q).step rules mapSize s.shared action >>= fun queue => .ok (s.setQueue q queue)
    else .ok s

end ZeroTrace.Policy.Flush
