import ZeroTrace.RunInvariants

/-!
# The overwrite queue

The queue of `queue/overwrite_queue.rs`: a ring of slots that any number of
senders fill under `writer_lock` and one receiver empties under `reader_lock`.
A sender that finds the ring full takes the reader's lock too and drops the
oldest messages.

The threads run interleaved.  A thread is a place in the code of the call it
is in, with the local variables that are live there; one step performs one
access to the shared state (a load, a store, a lock, the copy of one slot) and
the local computation up to the next.  A thread that waits for a lock, or is
parked on the condition variable, stays where it is when it is scheduled.

Beside the fields of the source the queue carries its history: the batches in
the order in which their ends were stored, the messages written to and taken
out of slots, and what the calls have returned.  `head` counts the messages
that `start` has gone past and `seen` those sent when the receiver last looked
at `end`.  No step reads the history.
-/

namespace ZeroTrace.OverwriteQueue

open RustExec

inductive Thread where
  | receiver
  | sender (i : Nat)
  deriving DecidableEq

/-- `struct Counter`. -/
structure Counter where
  input : Nat := 0
  output : Nat := 0
  overwritten : Nat := 0
  pending : Nat := 0
  deriving DecidableEq

/-- What became of a message that has left its slot. -/
inductive Fate where
  | received
  | overwritten
  deriving DecidableEq

/-- What `raw_recv_timeout` returns, with the messages it has copied. -/
inductive RecvResult (T : Type) where
  | ok (msgs : List T)
  | timeout
  | terminated
  deriving DecidableEq

/-- The messages a call hands to its caller. -/
def RecvResult.msgs {T : Type} : RecvResult T → List T
  | .ok msgs => msgs
  | .timeout => []
  | .terminated => []

/-- `struct OverwriteQueue`.  A slot that holds no live message is `none`:
never written, moved out or dropped.  `parked` is the waiting set of `notify`,
which only the receiver enters. -/
structure Queue (T : Type) where
  size : Nat
  buffer : Nat → Option T
  startIndex : Nat := 0
  endIndex : Nat := 0
  readerLock : Option Thread := none
  writerLock : Option Thread := none
  parked : Bool := false
  terminated : Bool := false
  counter : Counter := {}
  totalOverwrittenCount : Nat := 0
  -- history
  head : Nat := 0
  seen : Nat := 0
  sends : List (Thread × List T) := []
  written : List T := []
  taken : List (Fate × T) := []
  completed : List (Thread × List T) := []
  returned : List (RecvResult T) := []

variable {T : Type}

/-- `OverwriteQueue::with_capacity`. -/
def Queue.withCapacity (size : Nat) : Queue T where
  size := size.nextPowerOfTwo
  buffer := fun _ => none

variable (q : Queue T)

/-- The messages sent, in the order of the sends. -/
def Queue.sent : List T := q.sends.flatMap Prod.snd

/-- The value of `end` unwrapped for the comparison with `start`. -/
def unwrapEnd (size start rawEnd : Nat) : Nat :=
  if rawEnd < start then rawEnd + 2 * size else rawEnd

/-- `end - start` with its assertion. -/
def Queue.used (start rawEnd : Nat) : Exec Nat :=
  checkedSub (unwrapEnd q.size start rawEnd) start >>= fun used =>
  assert (used ≤ q.size) >>= fun _ =>
  .ok used

/-- The slot of the `i`-th message of a copy that begins at `index` and is
split where the buffer ends. -/
def slotOf (size index i : Nat) : Nat :=
  let toEnd := size - (index &&& (size - 1))
  if i < toEnd then (index &&& (size - 1)) + i else i - toEnd

def Queue.setSlot (slot : Nat) (msg : Option T) : Queue T :=
  { q with buffer := fun j => if j = slot then msg else q.buffer j }

/-- Move the message out of a slot, or drop it there. -/
def Queue.takeSlot (fate : Fate) (slot : Nat) : Exec (T × Queue T) :=
  unwrap (q.buffer slot) >>= fun msg =>
  .ok (msg, { q.setSlot slot none with taken := q.taken ++ [(fate, msg)] })

def Queue.putSlot (slot : Nat) (msg : T) : Queue T :=
  { q.setSlot slot (some msg) with written := q.written ++ [msg] }

/-- `start.store` that goes `n` messages on. -/
def Queue.storeStart (start n : Nat) : Queue T :=
  { q with startIndex := (start + n) &&& (2 * q.size - 1), head := q.head + n }

/-- `end.store` that publishes a batch. -/
def Queue.storeEnd (me : Thread) (rawEnd : Nat) (msgs : List T) : Queue T :=
  { q with
    endIndex := (rawEnd + msgs.length) &&& (2 * q.size - 1)
    sends := q.sends ++ [(me, msgs)] }

/-- Where a sender is in `raw_send`, once it has the writer's lock. -/
inductive SendPc where
  | loadStart
  | loadEnd (start : Nat)
  | lockReader (rawEnd : Nat)
  | reloadStart (rawEnd : Nat)
  | dropOldest (rawEnd start toOverwrite i : Nat)
  | countOverwritten (rawEnd toOverwrite : Nat)
  | unlockReader (rawEnd : Nat)
  | copy (rawEnd i : Nat)
  | countInput
  | notify
  | unlockWriter
  | returned
  deriving DecidableEq

/-- One step of `raw_send` under the writer's lock. -/
def sendStep (me : Thread) (msgs : List T) (q : Queue T) : SendPc → Exec (SendPc × Queue T)
  | .loadStart => .ok (.loadEnd q.startIndex, q)
  | .loadEnd start =>
    let rawEnd := q.endIndex
    q.used start rawEnd >>= fun used =>
    let pending := max q.counter.pending (min q.size (used + msgs.length))
    let q := { q with counter := { q.counter with pending } }
    if used + msgs.length > q.size then
      .ok (.lockReader rawEnd, q)
    else
      .ok (.copy rawEnd 0, q)
  | .lockReader rawEnd =>
    if q.readerLock = none then
      .ok (.reloadStart rawEnd, { q with readerLock := some me })
    else
      .ok (.lockReader rawEnd, q)
  | .reloadStart rawEnd =>
    -- start could be modified by recv, check again
    let start := q.startIndex
    q.used start rawEnd >>= fun used =>
    let freeSpace := q.size - used
    if freeSpace < msgs.length then
      .ok (.dropOldest rawEnd start (msgs.length - freeSpace) 0, q)
    else
      .ok (.unlockReader rawEnd, q)
  | .dropOldest rawEnd start toOverwrite i =>
    if i < toOverwrite then
      q.takeSlot .overwritten ((start + i) &&& (q.size - 1)) >>= fun taken =>
      .ok (.dropOldest rawEnd start toOverwrite (i + 1), taken.2)
    else
      .ok (.countOverwritten rawEnd toOverwrite, q.storeStart start toOverwrite)
  | .countOverwritten rawEnd toOverwrite =>
    .ok (.unlockReader rawEnd, { q with
      counter := { q.counter with overwritten := q.counter.overwritten + toOverwrite }
      totalOverwrittenCount := q.totalOverwrittenCount + toOverwrite })
  | .unlockReader rawEnd => .ok (.copy rawEnd 0, { q with readerLock := none })
  | .copy rawEnd i =>
    match msgs[i]? with
    | some msg => .ok (.copy rawEnd (i + 1), q.putSlot (slotOf q.size rawEnd i) msg)
    | none => .ok (.countInput, q.storeEnd me rawEnd msgs)
  | .countInput =>
    .ok (.notify, { q with
      counter := { q.counter with input := q.counter.input + msgs.length } })
  | .notify => .ok (.unlockWriter, { q with parked := false })
  | .unlockWriter =>
    .ok (.returned, { q with
      writerLock := none
      completed := q.completed ++ [(me, msgs)] })
  | .returned => .ok (.returned, q)

/-- Where a thread is in `close`. -/
inductive ClosePc where
  | lockReader
  | setTerminated
  | notify
  | unlockReader
  | closed
  deriving DecidableEq

/-- One step of `close`. -/
def closeStep (me : Thread) (q : Queue T) : ClosePc → ClosePc × Queue T
  | .lockReader =>
    if q.readerLock = none then
      (.setTerminated, { q with readerLock := some me })
    else
      (.lockReader, q)
  | .setTerminated => (.notify, { q with terminated := true })
  | .notify => (.unlockReader, { q with parked := false })
  | .unlockReader => (.closed, { q with readerLock := none })
  | .closed => (.closed, q)

/-- The arguments of `raw_recv_timeout`: whether there is a timeout, and the
room in the caller's buffer. -/
structure RecvCall where
  timed : Bool
  bufSize : Nat
  deriving DecidableEq

/-- Where the receiver is: outside a call, in `raw_recv_timeout`, or dropped.
`lastEnd` is the value of `end` it found with nothing to receive. -/
inductive RecvPc (T : Type) where
  | idle
  | lockReader (call : RecvCall)
  | loadStart (call : RecvCall)
  | loadEnd (call : RecvCall) (start : Nat)
  | loadTerminated (call : RecvCall) (lastEnd : Nat)
  | wait (call : RecvCall) (lastEnd : Nat)
  | waiting (call : RecvCall) (lastEnd : Nat)
  | reloadStart (call : RecvCall) (lastEnd : Nat)
  | reloadEnd (call : RecvCall) (lastEnd start : Nat)
  | copy (start recvCount i : Nat) (buf : List T)
  | countOutput (buf : List T)
  | unlockReader (result : RecvResult T)
  | closing (pc : ClosePc)
  deriving DecidableEq

/-- What follows the two loads when there is something to receive. -/
def beginCopy (call : RecvCall) (q : Queue T) (start rawEnd : Nat) :
    Exec (RecvPc T × Queue T) :=
  q.used start rawEnd >>= fun pending =>
  .ok (.copy start (min pending call.bufSize) 0 [], q)

def recvStep : RecvPc T → Exec (RecvPc T × Queue T)
  | .idle => .ok (.idle, q)
  | .lockReader call =>
    if q.readerLock = none then
      .ok (.loadStart call, { q with readerLock := some .receiver })
    else
      .ok (.lockReader call, q)
  | .loadStart call => .ok (.loadEnd call q.startIndex, q)
  | .loadEnd call start =>
    let q := { q with seen := q.sent.length }
    if start = q.endIndex then
      .ok (.loadTerminated call q.endIndex, q)
    else
      beginCopy call q start q.endIndex
  | .loadTerminated call lastEnd =>
    if q.terminated then
      .ok (.unlockReader .terminated, q)
    else
      .ok (.wait call lastEnd, q)
  | .wait call lastEnd =>
    .ok (.waiting call lastEnd, { q with readerLock := none, parked := true })
  | .waiting call lastEnd =>
    if q.parked = false ∧ q.readerLock = none then
      .ok (.reloadStart call lastEnd, { q with readerLock := some .receiver })
    else
      .ok (.waiting call lastEnd, q)
  | .reloadStart call lastEnd => .ok (.reloadEnd call lastEnd q.startIndex, q)
  | .reloadEnd call lastEnd start =>
    let q := { q with seen := q.sent.length }
    -- check for fake notify
    if lastEnd = q.endIndex then
      .ok (.loadTerminated call lastEnd, q)
    else
      beginCopy call q start q.endIndex
  | .copy start recvCount i buf =>
    if i < recvCount then
      q.takeSlot .received (slotOf q.size start i) >>= fun taken =>
      .ok (.copy start recvCount (i + 1) (buf ++ [taken.1]), taken.2)
    else
      .ok (.countOutput buf, q.storeStart start recvCount)
  | .countOutput buf =>
    .ok (.unlockReader (.ok buf), { q with
      counter := { q.counter with output := q.counter.output + buf.length } })
  | .unlockReader result =>
    .ok (.idle, { q with readerLock := none, returned := q.returned ++ [result] })
  | .closing pc => .ok (.closing (closeStep .receiver q pc).1, (closeStep .receiver q pc).2)

/-- Where a sender is.  An `absent` sender has not been cloned yet or is
dropped; the last one to be dropped closes the queue. -/
inductive SenderPc (T : Type) where
  | absent
  | idle
  | lockWriter (msgs : List T)
  | inside (msgs : List T) (pc : SendPc)
  | closing (pc : ClosePc)
  deriving DecidableEq

def SenderPc.alive : SenderPc T → Bool
  | .absent => false
  | .idle => true
  | .lockWriter _ => true
  | .inside _ _ => true
  | .closing _ => false

/-- The place of a sender whose call has come to `pc`. -/
def SenderPc.at (msgs : List T) : SendPc → SenderPc T
  | .returned => .idle
  | pc => .inside msgs pc

/-- The queue and its threads; `handles` is `RefCounter::senders`. -/
structure State (T : Type) where
  queue : Queue T
  handles : Nat
  senders : Nat → SenderPc T
  receiver : RecvPc T

/-- `bounded`: one sender and the receiver, both outside a call. -/
def State.bounded (size : Nat) : State T where
  queue := .withCapacity size
  handles := 1
  senders := fun i => if i = 0 then .idle else .absent
  receiver := .idle

variable (s : State T)

def State.setSender (i : Nat) (pc : SenderPc T) (q : Queue T) : State T :=
  { s with queue := q, senders := fun j => if j = i then pc else s.senders j }

def State.setReceiver (pc : RecvPc T) (q : Queue T) : State T :=
  { s with queue := q, receiver := pc }

/-- What the scheduler can do: begin a call, let a thread take a step, end a
timed wait, wake the receiver for no reason. -/
inductive Action (T : Type) where
  | send (i : Nat) (msgs : List T)
  | sender (i : Nat)
  | clone (i j : Nat)
  | dropSender (i : Nat)
  | recv (call : RecvCall)
  | receiver
  | timeUp
  | wakeSpuriously
  | dropReceiver
  deriving DecidableEq

/-- The thread an action belongs to; a clone is a step of the new sender. -/
def Action.who : Action T → Thread
  | .send i _ => .sender i
  | .sender i => .sender i
  | .clone _ j => .sender j
  | .dropSender i => .sender i
  | .recv _ => .receiver
  | .receiver => .receiver
  | .timeUp => .receiver
  | .wakeSpuriously => .receiver
  | .dropReceiver => .receiver

/-- `send` and `send_all` up to the writer's lock. -/
def beginSend (msgs : List T) : SenderPc T → SenderPc T
  | .idle =>
    if q.terminated then .idle
    else if msgs.length > q.size then .idle
    else .lockWriter msgs
  | pc => pc

def senderStep (me : Thread) (q : Queue T) : SenderPc T → Exec (SenderPc T × Queue T)
  | .absent => .ok (.absent, q)
  | .idle => .ok (.idle, q)
  | .lockWriter msgs =>
    if q.writerLock = none then
      .ok (.inside msgs .loadStart, { q with writerLock := some me })
    else
      .ok (.lockWriter msgs, q)
  | .inside msgs pc =>
    sendStep me msgs q pc >>= fun next =>
    .ok (.at msgs next.1, next.2)
  | .closing pc => .ok (.closing (closeStep me q pc).1, (closeStep me q pc).2)

def State.dropSender (i : Nat) : State T :=
  match s.senders i with
  | .idle =>
    { s.setSender i (if s.handles = 1 then .closing .lockReader else .absent) s.queue with
      handles := s.handles - 1 }
  | _ => s

def State.clone (i j : Nat) : State T :=
  match s.senders j with
  | .absent =>
    if (s.senders i).alive then
      { s.setSender j .idle s.queue with handles := s.handles + 1 }
    else
      s
  | _ => s

/-- A timed wait that has no time left. -/
def RecvPc.timeUp : RecvPc T → RecvPc T
  | .wait call lastEnd => if call.timed then .unlockReader .timeout else .wait call lastEnd
  | pc => pc

def RecvPc.begin (call : RecvCall) : RecvPc T → RecvPc T
  | .idle => .lockReader call
  | pc => pc

def RecvPc.drop : RecvPc T → RecvPc T
  | .idle => .closing .lockReader
  | pc => pc

def step : Action T → Exec (State T)
  | .send i msgs => .ok (s.setSender i (beginSend s.queue msgs (s.senders i)) s.queue)
  | .sender i =>
    senderStep (.sender i) s.queue (s.senders i) >>= fun next =>
    .ok (s.setSender i next.1 next.2)
  | .clone i j => .ok (s.clone i j)
  | .dropSender i => .ok (s.dropSender i)
  | .recv call => .ok (s.setReceiver (s.receiver.begin call) s.queue)
  | .receiver =>
    recvStep s.queue s.receiver >>= fun next =>
    .ok (s.setReceiver next.1 next.2)
  | .timeUp => .ok (s.setReceiver s.receiver.timeUp s.queue)
  | .wakeSpuriously => .ok (s.setReceiver s.receiver { s.queue with parked := false })
  | .dropReceiver => .ok (s.setReceiver s.receiver.drop s.queue)

/-- The live messages between `start` and `end`, oldest first. -/
def Queue.buffered : List T :=
  (List.range (unwrapEnd q.size q.startIndex q.endIndex - q.startIndex)).filterMap
    fun i => q.buffer ((q.startIndex + i) &&& (q.size - 1))

/-- `Drop for OverwriteQueue`: the messages dropped with the queue. -/
def Queue.dropBuffered : Exec (List T) :=
  q.used q.startIndex q.endIndex >>= fun used =>
  (List.range used).mapM fun i => unwrap (q.buffer ((q.startIndex + i) &&& (q.size - 1)))

end ZeroTrace.OverwriteQueue
