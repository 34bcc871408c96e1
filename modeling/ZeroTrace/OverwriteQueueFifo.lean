import ZeroTrace.OverwriteQueueOutline

/-!
# The overwrite queue is a bounded FIFO that drops the oldest

What the outline says about the messages.  The batches are ordered by the
stores of `end`; what has left its slot is a prefix of that order, each message
once and with one fate, and the rest is in the buffer.  The counters agree
whenever the lock under which they are kept is free, so at quiescence the sends
are the receives, the overwritten and the pending messages.
-/

namespace ZeroTrace.OverwriteQueue

open Runs

variable {T : Type} {pc : RecvPc T}

/-- The messages a receive has copied and not returned yet. -/
def RecvPc.inHand : RecvPc T → List T
  | .copy _ _ _ buf => buf
  | .countOutput buf => buf
  | .unlockReader result => result.msgs
  | _ => []

/-- No thread is between taking a lock and giving it back: every call has
returned, or waits for a lock or for a message. -/
def Quiescent (s : State T) : Prop :=
  s.receiver.holdsReader = false ∧
    ∀ i, (s.senders i).holdsReader = false ∧ (s.senders i).holdsWriter = false

/-- What holds of the messages in every state. -/
structure BoundedFifo (s : State T) : Prop where
  /-- Every message sent is taken out once or is still in the buffer. -/
  sent_eq : s.queue.sent = s.queue.taken.map Prod.snd ++ s.queue.buffered
  /-- The messages received are those taken out by the receiver. -/
  received_eq : handedOut s.queue.returned ++ s.receiver.inHand = receivedOf s.queue.taken
  /-- They are a subsequence of the messages sent. -/
  in_order : (handedOut s.queue.returned ++ s.receiver.inHand).Sublist s.queue.sent
  bounded : s.queue.buffered.length ≤ s.queue.size
  /-- No sender writes a slot that the receiver is copying. -/
  exclusive : ∀ i msgs rawEnd a start recvCount b buf,
    s.senders i = .inside msgs (.copy rawEnd a) →
    s.receiver = .copy start recvCount b buf →
    ∀ j < msgs.length, ∀ k < recvCount,
      slotOf s.queue.size rawEnd j ≠ slotOf s.queue.size start k
  /-- Every overwritten message is counted, once its sender has let go of the
  reader's lock. -/
  overwritten_eq : s.queue.readerLock = none →
    s.queue.counter.overwritten = (overwrittenOf s.queue.taken).length
  /-- At quiescence all the sends have returned, and the counters balance. -/
  balanced : Quiescent s →
    s.queue.completed = s.queue.sends ∧
    s.queue.counter.input = s.queue.sent.length ∧
    s.queue.counter.output = (handedOut s.queue.returned).length ∧
    s.queue.counter.input =
      s.queue.counter.output + s.queue.counter.overwritten + s.queue.buffered.length
  /-- Dropping the queue then drops what is in the buffer. -/
  dropped : Quiescent s → s.queue.dropBuffered = .ok s.queue.buffered

theorem RecvPc.Asserts.exists_at {tail : Nat} {r : ReaderPart T}
    (h : pc.Asserts tail r) (hheld : pc.holdsReader = true) :
    ∃ ahead uncounted unposted, r.At ahead uncounted unposted pc.inHand := by
  cases pc with
  | loadEnd call start | reloadEnd call lastEnd start => exact ⟨0, 0, 0, h.1⟩
  | copy start recvCount i buf =>
    obtain ⟨-, -, -, -, hat⟩ := h
    exact ⟨i, 0, i, hat⟩
  | countOutput buf => exact ⟨0, 0, buf.length, h⟩
  | closing pc => exact ⟨0, 0, 0, h hheld⟩
  | idle | lockReader call | waiting call lastEnd => cases hheld
  | _ => exact ⟨0, 0, 0, h⟩

theorem RecvPc.inHand_eq_nil (hfree : pc.holdsReader = false) : pc.inHand = [] := by
  cases pc with
  | idle => rfl
  | lockReader call => rfl
  | waiting call lastEnd => rfl
  | closing pc => rfl
  | _ => cases hfree

theorem SenderPc.Asserts.exists_at {me : Thread} {q : Queue T} {pc : SenderPc T}
    (h : pc.Asserts me q) (hheld : pc.holdsReader = true) :
    ∃ ahead uncounted unposted, q.readerPart.At ahead uncounted unposted [] := by
  cases pc with
  | closing pc => exact ⟨0, 0, 0, h hheld⟩
  | inside msgs pc =>
    obtain ⟨-, hsend⟩ := h
    cases pc with
    | reloadStart rawEnd => exact ⟨0, 0, 0, hsend.2.2⟩
    | dropOldest rawEnd start toOverwrite k =>
      obtain ⟨-, -, -, -, -, -, hat⟩ := hsend
      exact ⟨k, k, 0, hat⟩
    | countOverwritten rawEnd toOverwrite => exact ⟨0, toOverwrite, 0, hsend.2.2.2⟩
    | unlockReader rawEnd => exact ⟨0, 0, 0, hsend.2.2.2⟩
    | _ => cases hheld
  | _ => cases hheld

variable {s : State T}

section

variable (h : (outline T).Holds s)

include h

theorem readerPart_at :
    ∃ ahead uncounted unposted,
      s.queue.readerPart.At ahead uncounted unposted s.receiver.inHand := by
  obtain ⟨hshared, hown⟩ := h
  have hrecv : RecvOwn s.queue s.receiver := hown .receiver
  cases hheld : s.receiver.holdsReader with
  | true => exact hrecv.asserts.exists_at hheld
  | false =>
    rw [RecvPc.inHand_eq_nil hheld]
    cases hlock : s.queue.readerLock with
    | none => exact ⟨0, 0, 0, hshared.reader_free hlock⟩
    | some t =>
      cases t with
      | receiver =>
        rw [hrecv.reader_iff.mp hlock] at hheld
        cases hheld
      | sender i =>
        have hsender : SenderOwn (.sender i) s.queue (s.senders i) := hown (.sender i)
        exact hsender.asserts.exists_at (hsender.reader_iff.mp hlock)

theorem Quiescent.locks_free (hquiet : Quiescent s) :
    s.queue.readerLock = none ∧ s.queue.writerLock = none := by
  have hrecv : RecvOwn s.queue s.receiver := h.2 .receiver
  have hsender : ∀ i, SenderOwn (.sender i) s.queue (s.senders i) := fun i => h.2 (.sender i)
  constructor
  · cases hlock : s.queue.readerLock with
    | none => rfl
    | some t =>
      cases t with
      | receiver =>
        have hheld := hrecv.reader_iff.mp hlock
        rw [hquiet.1] at hheld
        cases hheld
      | sender i =>
        have hheld := (hsender i).reader_iff.mp hlock
        rw [(hquiet.2 i).1] at hheld
        cases hheld
  · cases hlock : s.queue.writerLock with
    | none => rfl
    | some t =>
      cases t with
      | receiver => exact (hrecv.writer_ne hlock).elim
      | sender i =>
        have hheld := (hsender i).writer_iff.mp hlock
        rw [(hquiet.2 i).2] at hheld
        cases hheld

theorem slots_disjoint {i : Nat} {msgs : List T} {rawEnd a start recvCount b : Nat} {buf : List T}
    (hsender : s.senders i = .inside msgs (.copy rawEnd a))
    (hrecv : s.receiver = .copy start recvCount b buf) {j k : Nat} (hj : j < msgs.length)
    (hk : k < recvCount) : slotOf s.queue.size rawEnd j ≠ slotOf s.queue.size start k := by
  have hlaid := h.1.laid
  have hsend : SenderOwn (.sender i) s.queue (s.senders i) := h.2 (.sender i)
  have hreceive : RecvOwn s.queue s.receiver := h.2 .receiver
  rw [hsender] at hsend
  rw [hrecv] at hreceive
  obtain ⟨hfits, -, hend, hroom, -⟩ := hsend.asserts
  obtain ⟨hstart, hlive, -⟩ := hreceive.asserts
  have hend' : rawEnd = s.queue.sent.length % (2 * s.queue.size) := hend.trans hlaid.end_eq
  have hstart' : start = s.queue.head % (2 * s.queue.size) := hstart.trans hlaid.start_eq
  have hroom' : s.queue.sent.length + msgs.length ≤ s.queue.head + s.queue.size := hroom
  have hlive' : s.queue.head + recvCount ≤ s.queue.sent.length := hlive
  rw [hend', hstart', hlaid.slotOf_eq (by omega), hlaid.slotOf_eq (by omega)]
  intro heq
  have hsame := RingIndex.eq_of_mod_eq (by omega) (by omega) heq.symm
  omega

theorem boundedFifo_of_holds : BoundedFifo s := by
  have hlaid := h.1.laid
  have hsent := Queue.sent_eq hlaid
  obtain ⟨ahead, uncounted, unposted, hread⟩ := readerPart_at h
  have hreceived : handedOut s.queue.returned ++ s.receiver.inHand = receivedOf s.queue.taken :=
    hread.received.symm
  have hlength := Queue.length_buffered hlaid
  have hfits := hlaid.sent_fits
  have hhead := hlaid.head_le
  have htaken := hlaid.taken_le
  constructor
  case sent_eq => exact hsent
  case received_eq => exact hreceived
  case in_order =>
    rw [hreceived, hsent]
    exact (List.filter_sublist.map Prod.snd).trans (List.sublist_append_left _ _)
  case bounded => omega
  case exclusive =>
    intro i msgs rawEnd a start recvCount b buf hsender hrecv j hj k hk
    exact slots_disjoint h hsender hrecv hj hk
  case overwritten_eq =>
    intro hfree
    exact (h.1.reader_free hfree).overwritten.symm
  case balanced =>
    intro hquiet
    obtain ⟨hreader, hwriter⟩ := hquiet.locks_free h
    have hw := h.1.writer_free hwriter
    have hr := h.1.reader_free hreader
    have hinput : s.queue.sent.length = s.queue.counter.input := hw.counted
    have houtput : (receivedOf s.queue.taken).length = s.queue.counter.output := hr.output
    have hover : (overwrittenOf s.queue.taken).length = s.queue.counter.overwritten :=
      hr.overwritten
    have hfates := length_taken s.queue.taken
    have hgiven : receivedOf s.queue.taken = handedOut s.queue.returned :=
      hr.received.trans (List.append_nil _)
    refine ⟨(hw.calls.trans (List.append_nil _)).symm, hinput.symm, ?_, by omega⟩
    rw [← hgiven, houtput]
  case dropped =>
    intro hquiet
    have hr := h.1.reader_free (hquiet.locks_free h).1
    exact Queue.dropBuffered_eq hlaid hr.taken

end

end ZeroTrace.OverwriteQueue
