import Mathlib.Data.List.Induction
import ZeroTrace.SliceReads

/-!
# The connections of the senders

Several senders share a TCP connection to the ingester, behind a mutex.
`send_buffer` holds the mutex while it connects and while it writes one encoded
buffer, round after round; `update_connection` holds it to drop the stream of a
connection it leaves, or to note a new address. What happens to a connection is
a list of such sections in the order in which the lock was obtained, whichever
senders they belong to and however many these are.

A stream should carry complete buffers, and after them at most the beginning of
one. The write loop can end within a buffer in two ways. After a write error
the stream is dropped. When the sender is stopped the stream stays, and the
next sender writes behind the beginning of the buffer.

The HTTP upload and the throughput limit return before the lock is taken.

`flush_encoder` resets the encoded buffer after `send_buffer`, whatever has become
of it. A buffer that is written is counted in `tx`, and one that is given up in
`dropped`, but not at every exit: nothing is counted when tokens are waited for
in vain, when the sender is stopped, when it is too early to reconnect, and when
the write timeout cannot be set.

Logs are left out, and the counts of bytes and waits.
-/

namespace ZeroTrace.Sender

open Slices List

/-- A TCP stream: the bytes written on it so far, and the buffers they are of,
in the order of the sends. -/
structure Stream where
  bytes : Bytes := []
  frames : List Bytes := []
  deriving DecidableEq

def Stream.write (stream : Stream) (buffer written : Bytes) : Stream where
  bytes := stream.bytes ++ written
  frames := if written = [] then stream.frames else stream.frames ++ [buffer]

/-- `Connection`. The streams that were dropped are kept in `closed`, oldest
first; `locked` is a mutex that its holder does not give back. -/
structure Connection where
  tcpStream : Option Stream := none
  reconnectInterval : Nat := 10
  destIp : String := "127.0.0.1"
  destPort : Nat := 30033
  reconnect : Bool := false
  lastReconnect : Nat := 0
  locked : Bool := false
  closed : List Stream := []

/-- What a round of the write loop meets: that `running` is false, or else the
result of `write`, on a socket that takes up to `size` bytes when it is `ok`. -/
inductive Round
  | stopped
  | ok (size : Nat)
  | wouldBlock
  | error

/-- How the write loop ends; a loop that has not ended is `pending`. -/
inductive Ending
  | transmitted
  | stopped (writeOffset : Nat)
  | failed
  | pending

/-- What the system answers to one `send_buffer`. A connection that is made
comes with whether its write timeout can be set. -/
structure Answers where
  running : Bool := true
  now : Nat
  connect : Option Bool := some true
  random : Nat := 0
  rounds : List Round

/-- The write loop from an offset on: the bytes it writes, and how it ends. -/
def writeLoop (buffer : Bytes) (writeOffset : Nat) : List Round → Bytes × Ending
  | [] => ([], .pending)
  | .stopped :: _ => ([], .stopped writeOffset)
  | .wouldBlock :: rounds => writeLoop buffer writeOffset rounds
  | .error :: _ => ([], .failed)
  | .ok size :: rounds =>
    let sent := (buffer.drop writeOffset).take size
    if writeOffset + sent.length = buffer.length then (sent, .transmitted)
    else
      let (written, ending) := writeLoop buffer (writeOffset + sent.length) rounds
      (sent ++ written, ending)

/-- What a sender does to a connection while it holds the lock. -/
inductive Section
  | take
  | redirect (destIp : String) (destPort : Nat)
  | send (buffer : Bytes) (answers : Answers)

namespace Connection

variable (conn : Connection) (answers : Answers)

def streams : List Stream := conn.closed ++ conn.tcpStream.toList

/-- `tcp_stream.take()`. -/
def take : Connection := { conn with tcpStream := none, closed := conn.streams }

/-- The new address of `update_connection`. -/
def redirect (destIp : String) (destPort : Nat) : Connection :=
  if conn.destIp ≠ destIp ∨ conn.destPort ≠ destPort then
    { conn with reconnect := true, destIp, destPort, lastReconnect := 0 }
  else conn

/-- `send_buffer` up to its write loop: the stream to write on, unless it
returns. -/
def openStream : Connection × Option Stream :=
  match conn.reconnect, conn.tcpStream with
  | false, some stream => (conn, some stream)
  | _, _ =>
    if !answers.running then (conn, none)
    else
      let conn := { conn.take with lastReconnect := min conn.lastReconnect answers.now }
      if conn.lastReconnect + conn.reconnectInterval * 1000000000 > answers.now then (conn, none)
      else
        let conn := { conn with lastReconnect := answers.now }
        match answers.connect with
        | some true =>
          ({ conn with tcpStream := some {}, reconnect := false, reconnectInterval := 0 }, some {})
        | some false => ({ conn with tcpStream := some {} }.take, none)
        | none => ({ conn with reconnectInterval := 10 + answers.random % 5 }, none)

def sendBuffer (buffer : Bytes) : Connection :=
  match conn.openStream answers with
  | (conn, none) => conn
  | (conn, some stream) =>
    let (written, ending) := writeLoop buffer 0 answers.rounds
    let conn := { conn with tcpStream := some (stream.write buffer written) }
    match ending with
    | .failed => conn.take
    | .pending => { conn with locked := true }
    | .transmitted | .stopped _ => conn

/-- A section; where the lock is not given back, it waits for ever. -/
def step (sect : Section) : Connection :=
  if conn.locked then conn
  else
    match sect with
    | .take => conn.take
    | .redirect destIp destPort => conn.redirect destIp destPort
    | .send buffer answers => conn.sendBuffer answers buffer

/-- A new connection after the sections. -/
def run (sections : List Section) : Connection := sections.foldl step {}

end Connection

/-- No sender is stopped in the middle of the buffer. -/
def Section.NotCut : Section → Prop
  | .send buffer answers =>
    ∀ n, (writeLoop buffer 0 answers.rounds).2 = .stopped n → n = 0 ∨ n = buffer.length
  | _ => True

/-- The stream carries complete buffers. -/
def Stream.Whole (stream : Stream) : Prop := stream.bytes = stream.frames.flatten

/-- The stream carries complete buffers and then another, or the beginning of
it. -/
def Stream.Framed (stream : Stream) : Prop :=
  stream.frames.dropLast.flatten <+: stream.bytes ∧ stream.bytes <+: stream.frames.flatten

/-- Every stream is framed, and one that can still be written on is whole. -/
structure Connection.Clean (conn : Connection) : Prop where
  framed : ∀ stream ∈ conn.streams, stream.Framed
  whole : conn.locked = false → ∀ stream ∈ conn.tcpStream, stream.Whole

variable {buffer written : Bytes} {stream : Stream} {conn conn' : Connection} {answers : Answers}

theorem Stream.Whole.framed (h : stream.Whole) : stream.Framed := by
  obtain ⟨last, hlast⟩ := dropLast_prefix stream.frames
  rw [Framed, h]
  exact ⟨⟨last.flatten, by rw [← flatten_append, hlast]⟩, prefix_rfl⟩

theorem Stream.Whole.write_framed (h : stream.Whole) (hw : written <+: buffer) :
    (stream.write buffer written).Framed := by
  unfold write
  split
  next hnil => simpa [hnil] using h.framed
  · rw [Framed, h]
    exact ⟨by simp, by simpa using hw⟩

theorem Stream.Whole.write_whole (h : stream.Whole) : (stream.write buffer buffer).Whole := by
  unfold write
  split
  next hnil => simpa [hnil] using h
  · simp [Whole, h.symm]

/-- What the loop writes is the next part of the buffer. A transmitted buffer
is written to its end, and a stopped one to the offset. -/
theorem writeLoop_spec (buffer : Bytes) (rounds : List Round) (offset : Nat) :
    (writeLoop buffer offset rounds).1 <+: buffer.drop offset ∧
      ((writeLoop buffer offset rounds).2 = .transmitted →
        offset + (writeLoop buffer offset rounds).1.length = buffer.length) ∧
      ∀ n, (writeLoop buffer offset rounds).2 = .stopped n →
        offset + (writeLoop buffer offset rounds).1.length = n := by
  fun_induction writeLoop buffer offset rounds with
  | case1 | case2 | case4 => simp
  | case3 offset rounds ih => exact ih
  | case5 offset rounds size sent hfull => exact ⟨ take_prefix _ _, fun _ => hfull, by simp⟩
  | case6 offset rounds size sent hfull written ending hrec ih =>
    simp only [hrec] at ih
    simp only [length_append, ← Nat.add_assoc]
    refine ⟨?_, ih.2⟩
    have hsplit : sent ++ buffer.drop (offset + sent.length) = buffer.drop offset := by
      rw [← drop_drop]
      exact prefix_iff_eq_append.mp ( take_prefix _ _)
    rw [← hsplit]
    exact (prefix_append_right_inj sent).mpr ih.1

namespace Connection

theorem Clean.of_take (h : conn.Clean)
    (hclosed : conn'.closed = conn.streams ∨ conn'.closed = conn.streams ++ [⟨[], []⟩])
    (hlive : conn'.tcpStream = none ∨ conn'.tcpStream = some ⟨[], []⟩) :
    conn'.Clean ∧ conn.closed <+: conn'.closed := by
  have hempty : (⟨[], []⟩ : Stream).Whole := rfl
  exact ⟨⟨by grind [streams, h.framed, hempty.framed], by grind⟩, by grind [streams]⟩

theorem Clean.openStream (h : conn.Clean) (hl : conn.locked = false) (answers : Answers) :
    ((conn.openStream answers).1.Clean ∧ conn.closed <+: (conn.openStream answers).1.closed) ∧
      ∀ stream, (conn.openStream answers).2 = some stream → stream.Whole := by
  fun_cases Connection.openStream conn answers with
  | case1 stream hstream =>
    exact ⟨⟨h, prefix_rfl⟩, by rintro _ ⟨⟩; exact h.whole hl _ (by assumption)⟩
  | case2 => exact ⟨⟨h, prefix_rfl⟩, by simp⟩
  | case3 | case6 => exact ⟨h.of_take (.inl rfl) (.inl rfl), by simp⟩
  | case4 => exact ⟨h.of_take (.inl rfl) (.inr rfl), by rintro _ ⟨⟩; rfl⟩
  | case5 => exact ⟨h.of_take (.inr rfl) (.inl rfl), by simp⟩

theorem Clean.sendBuffer (h : conn.Clean) (hl : conn.locked = false)
    (hcut : (Section.send buffer answers).NotCut) :
    (conn.sendBuffer answers buffer).Clean ∧
      conn.closed <+: (conn.sendBuffer answers buffer).closed := by
  have hopen := h.openStream hl answers
  have hspec := writeLoop_spec buffer answers.rounds 0
  simp only [Section.NotCut] at hcut
  unfold Connection.sendBuffer
  generalize conn.openStream answers = opened at *
  generalize writeLoop buffer 0 answers.rounds = result at *
  obtain ⟨written, ending⟩ := result
  obtain ⟨conn', _ | stream⟩ := opened
  · exact hopen.1
  obtain ⟨⟨hclean, hclosed⟩, hwhole⟩ := hopen
  have hwhole := hwhole stream rfl
  simp only [drop_zero, Nat.zero_add] at hspec
  obtain ⟨hpart, htransmitted, hstopped⟩ := hspec
  have hframed : ∀ s ∈ conn'.closed ++ [stream.write buffer written], s.Framed := by
    intro s hs
    obtain hs | hs := mem_append.mp hs
    · exact hclean.framed s (mem_append_left _ hs)
    · exact mem_singleton.mp hs ▸ hwhole.write_framed hpart
  have hcomplete (hlen : written.length = buffer.length) : (stream.write buffer written).Whole :=
    hpart.eq_of_length hlen ▸ hwhole.write_whole
  cases ending with
  | failed =>
    exact ⟨⟨by simpa [streams, take] using hframed, by simp [take]⟩,
      hclosed.trans (prefix_append _ _)⟩
  | pending => exact ⟨⟨hframed, by simp⟩, hclosed⟩
  | transmitted =>
    exact ⟨⟨hframed, by simpa using fun _ => hcomplete (htransmitted rfl)⟩, hclosed⟩
  | stopped n =>
    refine ⟨⟨hframed, ?_⟩, hclosed⟩
    rintro - s ⟨⟩
    obtain hzero | hlen := hcut n rfl
    · rw [length_eq_zero_iff.mp ((hstopped n rfl).trans hzero)]
      simpa [Stream.write] using hwhole
    · exact hcomplete ((hstopped n rfl).trans hlen)

theorem Clean.step (h : conn.Clean) {sect : Section} (hcut : sect.NotCut) :
    (conn.step sect).Clean ∧ conn.closed <+: (conn.step sect).closed := by
  unfold Connection.step
  split
  · exact ⟨h, prefix_rfl⟩
  rename_i hl
  cases sect with
  | take => exact h.of_take (.inl rfl) (.inl rfl)
  | redirect destIp destPort =>
    simp only [redirect]
    split
    · exact ⟨⟨h.framed, h.whole⟩, prefix_rfl⟩
    · exact ⟨h, prefix_rfl⟩
  | send buffer answers => exact h.sendBuffer (by simpa using hl) hcut

theorem Clean.foldl (h : conn.Clean) {sections : List Section}
    (hcut : ∀ sect ∈ sections, sect.NotCut) :
    (sections.foldl Connection.step conn).Clean ∧
      conn.closed <+: (sections.foldl Connection.step conn).closed := by
  refine sections.foldlRecOn (motive := fun c => Clean c ∧ conn.closed <+: c.closed) _
    ⟨h, prefix_rfl⟩ fun c hc sect hsect => ?_
  have hstep := hc.1.step (hcut sect hsect)
  exact ⟨hstep.1, hc.2.trans hstep.2⟩

/-- **Whole frames.** Where no sender is stopped in the middle of a buffer, the
streams carry complete buffers in the order of the lock and at most the
beginning of one more, which is then the end: a stream that can be written on
is whole, and what was dropped stays as it is. -/
theorem run_clean {before after : List Section} (hcut : ∀ sect ∈ before ++ after, sect.NotCut) :
    (run before).Clean ∧ (run before).closed <+: (run (before ++ after)).closed := by
  have hnew : ({} : Connection).Clean := ⟨by simp [streams], by simp⟩
  have hbefore := hnew.foldl fun s hs => hcut s (mem_append_left after hs)
  refine ⟨hbefore.1, ?_⟩
  rw [run, run, foldl_append]
  exact (hbefore.1.foldl fun s hs => hcut s (mem_append_right before hs)).2

/-- After a buffer in two writes, with the socket blocked in between, a write
error ends the stream. -/
theorem run_clean_failed :
    let before : List Section :=
      [.send [1, 2] { now := 10000000000, rounds := [.ok 1, .wouldBlock, .ok 4] },
        .send [3, 4] { now := 10000000000, rounds := [.ok 1, .error] }]
    (run before).Clean ∧ (run before).closed <+: (run (before ++ [.take])).closed :=
  run_clean (by simp [Section.NotCut, writeLoop])

/-- A sender that is stopped in the middle of its buffer leaves the beginning of
it to the next one. -/
theorem stopped_sender_splits_frame :
    (run [.send [1, 2] { now := 10000000000, rounds := [.ok 1, .stopped] },
        .send [3] { now := 10000000000, rounds := [.ok 1] }]).tcpStream =
        some ⟨[1, 3], [[1, 2], [3]]⟩ ∧
      ¬ Stream.Framed ⟨[1, 3], [[1, 2], [3]]⟩ := by
  refine ⟨by decide, ?_⟩
  unfold Stream.Framed
  decide

end Connection

/-! ### What a sender counts -/

def maxWaitTimes : Nat := 100

/-- A call of `flush_encoder`: the encoded buffer, what is configured, the
connection as it is when the lock is obtained, and what the system and the other
threads answer. `waiting` is the overflow action `Waiting`, and `acquires` are
the answers of the leaky bucket. -/
structure Flush where
  buffer : Bytes
  dataViaHttp : Bool := false
  waiting : Bool := true
  maxThroughputMbps : Nat := 0
  conn : Connection := {}
  answers : Answers
  forwarder : Bool := true
  upload : Bool := true
  acquires : Nat → Bool := fun _ => true

namespace Flush

variable (flush : Flush)

/-- `is_traffic_overflow`. After the last wait it asks once more, for nothing. -/
def isTrafficOverflow : Bool :=
  flush.maxThroughputMbps != 0 &&
    if flush.waiting then (List.range maxWaitTimes).all (!flush.acquires ·)
    else !flush.acquires 0

/-- `send_buffer` comes to `TcpStream::connect`, which fails. -/
def connectFails : Bool :=
  (flush.conn.reconnect || flush.conn.tcpStream.isNone) && flush.answers.running &&
    decide (min flush.conn.lastReconnect flush.answers.now +
      flush.conn.reconnectInterval * 1000000000 ≤ flush.answers.now) &&
    flush.answers.connect.isNone

/-- The write loop of `send_buffer`, if it comes to it. -/
def writes : Option (Bytes × Ending) :=
  (flush.conn.openStream flush.answers).2.map fun _ =>
    writeLoop flush.buffer 0 flush.answers.rounds

/-- Whether the call counts the buffer, if it discards one. -/
def counted : Bool :=
  flush.buffer.isEmpty || flush.dataViaHttp ||
    if flush.isTrafficOverflow then !flush.waiting
    else
      match flush.writes with
      | none => flush.connectFails
      | some (_, .stopped _) => false
      | some _ => true

variable {flush}

theorem whole_of_transmitted {written : Bytes}
    (h : flush.writes = some (written, .transmitted)) : written = flush.buffer := by
  obtain ⟨stream, -, hloop⟩ := Option.map_eq_some_iff.mp h
  obtain ⟨hpart, hall, -⟩ := writeLoop_spec flush.buffer flush.answers.rounds 0
  rw [hloop] at hpart hall
  exact hpart.eq_of_length (by simpa using hall rfl)

end Flush

/-- The counters of a sender, with the buffers that were discarded and those
that were written to their end. -/
structure Counter where
  httpForwarder : Bool := false
  tx : Nat := 0
  dropped : Nat := 0
  discarded : Nat := 0
  whole : Nat := 0

namespace Counter

variable (s : Counter) (flush : Flush)

/-- A buffer of which this part was written is counted in `tx`. -/
def transmit (written : Bytes) : Counter :=
  { s with tx := s.tx + 1, whole := if written = flush.buffer then s.whole + 1 else s.whole }

/-- A buffer is counted in `dropped`. -/
def drop : Counter := { s with dropped := s.dropped + 1 }

def sendBufferHttp : Counter :=
  if !s.httpForwarder && !flush.forwarder then s.drop
  else
    let s := { s with httpForwarder := true }
    if flush.upload then s.transmit flush flush.buffer else s.drop

/-- `send_buffer`, or nothing while its write loop has not ended. -/
def sendBuffer : Option Counter :=
  if flush.dataViaHttp then some (s.sendBufferHttp flush)
  else if flush.isTrafficOverflow then some (if flush.waiting then s else s.drop)
  else
    match flush.writes with
    | none => some (if flush.connectFails then s.drop else s)
    | some (written, .transmitted) => some (s.transmit flush written)
    | some (_, .stopped _) => some s
    | some (_, .failed) => some s.drop
    | some (_, .pending) => none

def flushEncoder : Counter :=
  if flush.buffer.isEmpty then s
  else
    match s.sendBuffer flush with
    | some s => { s with discarded := s.discarded + 1 }
    | none => s

/-- The counters after the calls. -/
def run (flushes : List Flush) : Counter := flushes.foldl flushEncoder {}

variable {s}

theorem flushEncoder_spec (hwhole : s.whole = s.tx) (flush : Flush) :
    (s.flushEncoder flush).discarded + (s.tx + s.dropped) =
        s.discarded + ((s.flushEncoder flush).tx + (s.flushEncoder flush).dropped) +
          (if flush.counted then 0 else 1) ∧
      (s.flushEncoder flush).whole = (s.flushEncoder flush).tx := by
  unfold flushEncoder Flush.counted
  cases hempty : flush.buffer.isEmpty with
  | true => simp [hwhole]
  | false =>
    simp only [Bool.false_or, Bool.false_eq_true, if_false, sendBuffer]
    cases hhttp : flush.dataViaHttp with
    | true =>
      simp only [if_true, Bool.true_or, sendBufferHttp]
      split_ifs <;> simp [transmit, drop, hwhole] <;> omega
    | false =>
      simp only [Bool.false_or, Bool.false_eq_true, if_false]
      by_cases hover : flush.isTrafficOverflow = true
      · cases hwait : flush.waiting <;> simp [hover, drop, hwhole] <;> omega
      rw [if_neg hover, if_neg hover]
      -- no stream to write on, or the four endings of the write loop
      rcases hwrites : flush.writes with _ | ⟨written, _ | _ | _ | _⟩
      · cases hfails : flush.connectFails <;> simp [drop, hwhole] <;> omega
      · simp [transmit, Flush.whole_of_transmitted hwrites, hwhole]
        omega
      · simp [hwhole]
        omega
      · simp [drop, hwhole]
        omega
      · simp [hwhole]

theorem run_balance (flushes : List Flush) :
    (run flushes).discarded =
        (run flushes).tx + (run flushes).dropped + flushes.countP (!·.counted) ∧
      (run flushes).whole = (run flushes).tx := by
  induction flushes using reverseRecOn with
  | nil => exact ⟨rfl, rfl⟩
  | append_singleton flushes flush ih =>
    rw [run, foldl_append, ← run, foldl_cons, foldl_nil, countP_append, countP_singleton]
    obtain ⟨hstep, hwhole⟩ := flushEncoder_spec ih.2 flush
    refine ⟨?_, hwhole⟩
    cases hcounted : flush.counted <;> simp [hcounted] at hstep ⊢ <;> omega

/-- **Buffers are counted, except at the exits that do not count.** Each buffer
was counted once when it was discarded if and only if no call left at such an
exit; and what is in `tx` was completely written. -/
theorem buffers_counted_iff (flushes : List Flush) :
    ((∀ calls, calls <+: flushes →
        (run calls).discarded = (run calls).tx + (run calls).dropped) ↔
      ∀ flush ∈ flushes, flush.counted = true) ∧ (run flushes).whole = (run flushes).tx := by
  have hcalls : ∀ calls, (run calls).discarded = (run calls).tx + (run calls).dropped ↔
      ∀ flush ∈ calls, flush.counted = true := by
    intro calls
    rw [(run_balance calls).1, Nat.add_eq_left, countP_eq_zero]
    simp
  refine ⟨⟨fun h => (hcalls _).mp (h _ prefix_rfl), fun h calls hle => ?_⟩, (run_balance _).2⟩
  exact (hcalls calls).mpr fun flush hflush => h flush (hle.subset hflush)

/-- A buffer that is flushed a second after a connection was tried is in no
counter. -/
theorem early_flush_uncounted :
    run [{ buffer := [1], conn := { lastReconnect := 1000000000 }
           answers := { now := 2000000000, rounds := [] } }] = { discarded := 1 } :=
  rfl

end Counter

end ZeroTrace.Sender
