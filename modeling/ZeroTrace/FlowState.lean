import ZeroTrace.FlowKey

/-!
# The state machine of a TCP flow

Two tables drive a TCP flow: the master table for packets of either direction,
and the slave table, which takes precedence for packets of the server.  A table
maps the state of the flow and the flags of a packet to the next state and the
time after which a silent flow ends.  All these times are among the configured
ones, so none of them is above their maximum, which is what the flow map sizes
its time window by.

Times are in nanoseconds.
-/

namespace ZeroTrace.FlowGenerator

abbrev second : Nat := 10 ^ 9

/-- `TcpTimeout`: the configured timeouts. -/
structure TcpTimeout where
  established : Nat := 300 * second
  closingRst : Nat := 35 * second
  others : Nat := 5 * second
  openingRst : Nat := 1 * second
  deriving DecidableEq

structure FlowTimeout where
  opening : Nat
  established : Nat
  closing : Nat
  establishedRst : Nat
  exception : Nat
  closedFin : Nat
  singleDirection : Nat
  openingRst : Nat
  max : Nat
  deriving DecidableEq

/-- `FlowTimeout::from(TcpTimeout)`, with `update_min_max`. -/
def TcpTimeout.flowTimeout (t : TcpTimeout) : FlowTimeout where
  opening := t.others
  established := t.established
  closing := t.others
  establishedRst := t.closingRst
  exception := t.others
  closedFin := 2 * second
  singleDirection := t.others
  openingRst := t.openingRst
  max :=
    Max.max (Max.max (Max.max (Max.max (Max.max (Max.max (Max.max t.others t.established)
      t.others) t.closingRst) t.others) (2 * second)) t.others) t.openingRst

def FlowTimeout.values (t : FlowTimeout) : List Nat :=
  [t.opening, t.established, t.closing, t.establishedRst, t.exception, t.closedFin,
    t.singleDirection, t.openingRst]

theorem TcpTimeout.le_max (t : TcpTimeout) : ∀ τ ∈ t.flowTimeout.values, τ ≤ t.flowTimeout.max := by
  intro τ hτ
  simp only [FlowTimeout.values, flowTimeout, List.mem_cons, List.not_mem_nil, or_false] at hτ ⊢
  omega

theorem TcpTimeout.max_mem (t : TcpTimeout) : t.flowTimeout.max ∈ t.flowTimeout.values := by
  simp only [FlowTimeout.values, flowTimeout, List.mem_cons]
  omega

inductive FlowState where
  | raw
  | opening1
  | opening2
  | established
  | closingTx1
  | closingTx2
  | closingRx1
  | closingRx2
  | closed
  | reset
  | exception
  | serverReset
  | serverCandidateQueueLack
  | clientL4PortReuse
  | syn1
  | synAck1
  | establishReset
  | openingRst
  deriving DecidableEq

structure StateValue where
  timeout : Nat
  state : FlowState
  closed : Bool
  deriving DecidableEq

namespace TcpFlags

/-- `TcpFlags::MASK`. -/
def mask : BitVec 8 := 0x3f

/-- `FIN`, alone and with `ACK` and `PSH`. -/
def fins : List (BitVec 8) := [1, 1 ||| 16, 1 ||| 8 ||| 16]

def syn : BitVec 8 := 2

def synAck : BitVec 8 := 2 ||| 16

/-- `RST`, alone and with `ACK` and `PSH`. -/
def rsts : List (BitVec 8) := [4, 4 ||| 16, 4 ||| 8 ||| 16]

def ack : BitVec 8 := 16

/-- `ACK`, alone and with `PSH` and `URG`. -/
def acks : List (BitVec 8) := [16, 8 ||| 16, 8 ||| 16 ||| 32]

/-- Every combination of flags that a segment may have. -/
def valid : List (BitVec 8) := [syn, synAck] ++ fins ++ rsts ++ acks

def isInvalid (flags : BitVec 8) : Bool := decide (flags &&& mask ∉ valid)

end TcpFlags

open TcpFlags FlowTimeout

/-- The entries of a table for one state, a group of flags and one value. -/
structure StateRow where
  state : FlowState
  flags : List (BitVec 8)
  value : StateValue
  deriving DecidableEq

/-- `StateMachine`, by its rows. -/
structure StateMachine where
  rows : List StateRow

namespace StateMachine

variable (t : FlowTimeout) (state : FlowState)

def row (flags : List (BitVec 8)) (timeout : Nat) (next : FlowState) : StateRow :=
  { state := state, flags := flags
    value := { timeout := timeout, state := next, closed := false } }

/-- `StateMachine::get`. -/
def get (m : StateMachine) (state : FlowState) (flags : BitVec 8) : Option StateValue :=
  (m.rows.find? fun r => decide (r.state = state ∧ flags &&& mask ∈ r.flags)).map StateRow.value

/-- A state that no flags lead out of. -/
def sink (timeout : Nat) : List StateRow := [row state valid timeout state]

/-- `StateMachine::new_master`. -/
def newMaster : StateMachine where
  rows :=
    [ row .raw [syn] t.opening .opening1,
      row .raw fins t.closing .closingTx1,
      row .raw rsts t.closing .reset,
      row .raw acks t.established .established,
      row .opening1 [syn] t.opening .opening1,
      row .opening1 fins t.closing .closingTx1,
      row .opening1 rsts t.closing .establishReset,
      row .opening1 acks t.established .established,
      row .opening2 [syn] t.opening .opening2,
      row .opening2 fins t.closing .closingTx1,
      row .opening2 rsts t.openingRst .openingRst,
      row .opening2 acks t.established .established,
      row .established [syn] t.established .established,
      row .established fins t.closing .closingTx1,
      row .established rsts t.establishedRst .reset,
      row .established acks t.established .established,
      row .closingTx1 [syn, synAck] t.closing .closingTx1,
      row .closingTx1 fins t.closing .closingTx1,
      row .closingTx1 rsts t.closing .reset,
      row .closingTx1 acks t.closing .closingTx1,
      row .closingTx2 [syn, synAck] t.closing .closingTx2,
      row .closingTx2 fins t.closing .closingTx2,
      row .closingTx2 rsts t.closedFin .reset,
      row .closingTx2 [ack] t.closedFin .closed,
      row .closingRx1 [syn, synAck] t.closing .closingRx1,
      row .closingRx1 fins t.closing .closingRx2,
      row .closingRx1 rsts t.closing .reset,
      row .closingRx1 acks t.closing .closingRx1,
      row .closingRx2 [syn, synAck] t.closing .closingRx2,
      row .closingRx2 fins t.closing .closingRx2,
      row .closingRx2 rsts t.closedFin .reset,
      row .closingRx2 acks t.closing .closingRx2,
      row .closed [ack] t.closedFin .closed,
      row .syn1 [syn] t.opening .opening1,
      row .syn1 rsts t.closing .clientL4PortReuse,
      row .syn1 acks t.established .established,
      row .syn1 fins t.closing .closingTx1,
      row .synAck1 [syn] t.established .established,
      row .synAck1 fins t.closing .closingTx1,
      row .synAck1 rsts t.closing .reset,
      row .synAck1 acks t.established .synAck1 ] ++
    sink .reset t.exception ++ sink .clientL4PortReuse t.exception ++
    sink .serverCandidateQueueLack t.exception ++ sink .serverReset t.exception ++
    sink .establishReset t.exception ++ sink .openingRst t.openingRst

/-- `StateMachine::new_slave`. -/
def newSlave : StateMachine where
  rows :=
    [ row .raw [synAck] t.opening .opening2,
      row .raw fins t.closing .closingRx1,
      row .opening1 [synAck] t.opening .opening2,
      row .opening1 acks t.opening .syn1,
      row .opening1 rsts t.closing .serverReset,
      row .opening1 fins t.closing .closingRx1,
      row .opening2 [synAck] t.opening .opening2,
      row .opening2 fins t.closing .closingRx1,
      row .opening2 rsts t.closing .establishReset,
      row .established [synAck] t.established .synAck1,
      row .established fins t.closing .closingRx1,
      row .closingTx1 fins t.closing .closingTx2,
      row .closingTx2 acks t.closing .closingTx2,
      row .closingRx1 fins t.closing .closingRx1,
      row .closingRx2 [ack] t.closedFin .closed,
      row .closed [ack] t.closedFin .closed,
      row .syn1 [synAck] t.opening .opening2,
      row .syn1 acks t.opening .syn1,
      row .syn1 fins t.closing .closingRx1,
      row .syn1 rsts t.closing .establishReset,
      row .synAck1 [synAck] t.established .synAck1,
      row .synAck1 fins t.closing .closingRx1,
      row .synAck1 rsts t.establishedRst .serverCandidateQueueLack,
      row .synAck1 acks t.established .established ] ++
    sink .openingRst t.openingRst

theorem get_of_rows {m : StateMachine} {P : StateValue → Prop} (h : ∀ r ∈ m.rows, P r.value)
    {state : FlowState} {flags : BitVec 8} {v : StateValue} (hget : m.get state flags = some v) :
    P v := by
  obtain ⟨r, hfind, hv⟩ := Option.map_eq_some_iff.mp hget
  rw [← hv]
  exact h r (List.mem_of_find?_eq_some hfind)

theorem newMaster_value :
    ∀ r ∈ (newMaster t).rows, r.value.timeout ∈ t.values ∧ r.value.closed = false := by
  simp [newMaster, sink, row, values]

theorem newSlave_value :
    ∀ r ∈ (newSlave t).rows, r.value.timeout ∈ t.values ∧ r.value.closed = false := by
  simp [newSlave, sink, row, values]

/-- The value for a packet: the master's, or the exception, and for a packet of
the server the slave's if it has one. -/
def valueFor (flags : BitVec 8) (direction : PacketDirection) : StateValue :=
  let master := ((newMaster t).get state flags).getD
    { timeout := t.exception, state := .exception, closed := false }
  match direction with
  | .clientToServer => master
  | .serverToClient => ((newSlave t).get state flags).getD master

theorem valueFor_value (flags : BitVec 8) (direction : PacketDirection) :
    (valueFor t state flags direction).timeout ∈ t.values ∧
      (valueFor t state flags direction).closed = false := by
  set P : StateValue → Prop := fun v => v.timeout ∈ t.values ∧ v.closed = false with hP
  have hexception : P { timeout := t.exception, state := .exception, closed := false } := by
    simp [hP, values]
  have hmaster : P (((newMaster t).get state flags).getD
      { timeout := t.exception, state := .exception, closed := false }) := by
    cases hget : (newMaster t).get state flags with
    | none => exact hexception
    | some v => exact get_of_rows (P := P) (newMaster_value t) hget
  cases direction with
  | clientToServer => exact hmaster
  | serverToClient =>
    change P (((newSlave t).get state flags).getD _)
    cases hget : (newSlave t).get state flags with
    | none => exact hmaster
    | some v => exact get_of_rows (P := P) (newSlave_value t) hget

/-- How far a connection is: opening, open, closing, or broken off. -/
def phase : FlowState → Nat
  | .raw | .opening1 | .opening2 | .syn1 => 0
  | .established | .synAck1 => 1
  | .closingTx1 | .closingTx2 | .closingRx1 | .closingRx2 | .closed => 2
  | _ => 3

theorem phase_le_getD {m : StateMachine} (h : ∀ r ∈ m.rows, phase r.state ≤ phase r.value.state)
    {v : StateValue} (hv : phase state ≤ phase v.state) (flags : BitVec 8) :
    phase state ≤ phase ((m.get state flags).getD v).state := by
  unfold get
  cases hfind : m.rows.find? _ with
  | none => exact hv
  | some r =>
    have hmem := List.mem_of_find?_eq_some hfind
    grind

/-- **A connection never goes back**, whatever segments either side sends. -/
theorem phase_le_run (segments : List (BitVec 8 × PacketDirection)) :
    phase state ≤ phase (segments.foldl (fun s p => (valueFor t s p.1 p.2).state) state) := by
  induction segments generalizing state with
  | nil => exact le_rfl
  | cons p segments ih =>
    refine le_trans ?_ (ih _)
    have hmaster : phase state ≤ phase (valueFor t state p.1 .clientToServer).state :=
      phase_le_getD state (by simp [newMaster, sink, row, phase])
        (by cases state <;> simp [phase]) p.1
    obtain ⟨flags, _ | _⟩ := p
    · exact hmaster
    · exact phase_le_getD state (by simp [newSlave, sink, row, phase]) hmaster flags

end StateMachine

end ZeroTrace.FlowGenerator
