import ZeroTrace.OverwriteQueueSends
import ZeroTrace.ThreadOutline

/-!
# An outline for the overwrite queue

The receiver's side of the assertions, with the steps of `raw_recv_timeout`,
and the outline of the whole system: whichever thread is scheduled, its step
does not panic, keeps what the locks protect and leaves the assertions of the
other threads true.
-/

namespace ZeroTrace.OverwriteQueue

open RustExec Queue State Nat RecvPc

variable {T : Type}

/-! ## The receiver -/

def RecvPc.holdsReader : RecvPc T → Bool
  | .idle => false
  | .lockReader _ => false
  | .waiting _ _ => false
  | .closing pc => pc.holdsReader
  | _ => true

/-- What the receiver asserts of the reader's part, when `tail` messages have
been sent. -/
def RecvPc.Asserts (tail : Nat) (r : ReaderPart T) : RecvPc T → Prop
  | .loadStart _ => r.At 0 0 0 []
  | .loadEnd _ start => r.At 0 0 0 [] ∧ start = r.startIndex
  | .loadTerminated _ _ => r.At 0 0 0 []
  | .wait _ _ => r.At 0 0 0 []
  | .reloadStart _ _ => r.At 0 0 0 []
  | .reloadEnd _ _ start => r.At 0 0 0 [] ∧ start = r.startIndex
  | .copy start recvCount i buf =>
    start = r.startIndex ∧ r.head + recvCount ≤ tail ∧ i ≤ recvCount ∧ buf.length = i ∧
      r.At i 0 i buf
  | .countOutput buf => r.At 0 0 buf.length buf
  | .unlockReader result => r.At 0 0 0 result.msgs
  | .closing pc => pc.holdsReader = true → r.At 0 0 0 []
  | _ => True

/-- The assertion of the receiver. -/
structure RecvOwn (q : Queue T) (pc : RecvPc T) : Prop where
  writer_ne : q.writerLock ≠ some .receiver
  reader_iff : q.readerLock = some .receiver ↔ pc.holdsReader = true
  asserts : pc.Asserts q.sent.length q.readerPart

variable {pc : RecvPc T} {q' : Queue T} {pc' : RecvPc T} {t : Thread}

theorem RecvPc.Asserts.mono {tail tail' : Nat} {r : ReaderPart T} (hle : tail ≤ tail')
    (h : pc.Asserts tail r) : pc.Asserts tail' r := by
  cases pc with
  | copy start recvCount i buf =>
    obtain ⟨hstart, hlive, hrest⟩ := h
    exact ⟨hstart, hlive.trans hle, hrest⟩
  | _ => exact h

theorem RecvOwn.stable {q q' : Queue T} (hne : .receiver ≠ t) (hleaves : Leaves t q q')
    (h : RecvOwn q pc) : RecvOwn q' pc := by
  have hrl := hleaves.reader_lock.other hne
  refine ⟨?_, hrl.trans h.reader_iff, ?_⟩
  · intro hlock
    exact h.writer_ne ((hleaves.writer_lock.other hne).mp hlock)
  · cases hpc : pc.holdsReader with
    | true =>
      have hlock : q.readerLock ≠ some t := by
        rw [h.reader_iff.mpr hpc]
        intro heq
        exact hne (Option.some.inj heq)
      rw [hleaves.reader.resolve_right hlock]
      exact h.asserts.mono hleaves.sent_le
    | false =>
      cases pc with
      | idle | lockReader call | waiting call lastEnd => trivial
      | closing pc =>
        intro hheld
        change pc.holdsReader = false at hpc
        rw [hheld] at hpc
        cases hpc
      | _ => cases hpc

/-- What a step of the receiver must achieve. -/
structure RecvPost (q : Queue T) (pc' : RecvPc T) (q' : Queue T) : Prop where
  shared : Shared q'
  own : RecvOwn q' pc'
  leaves : Leaves .receiver q q'

section Receiving

variable {q : Queue T} (hshared : Shared q) (hwriter : q.writerLock ≠ some .receiver)
include hshared hwriter

theorem recvPost_of_parts (hlaid : q'.Laid) (hsize : q'.size = q.size)
    (hwp : q'.writerPart = q.writerPart) (hrp : q'.readerPart = q.readerPart)
    (hwl : q'.writerLock = q.writerLock) (hrl : q'.readerLock = q.readerLock)
    (hiff : q.readerLock = some .receiver ↔ pc'.holdsReader = true)
    (hasserts : pc'.Asserts q.sent.length q.readerPart) : RecvPost q pc' q' where
  shared := by
    refine ⟨hlaid, ?_, ?_⟩
    · rw [hwl, hwp]
      exact hshared.writer_free
    · rw [hrl, hrp]
      exact hshared.reader_free
  own := by
    have hsent : q'.sent = q.sent := congrArg WriterPart.sent hwp
    refine ⟨?_, ?_, ?_⟩
    · rw [hwl]
      exact hwriter
    · rw [hrl]
      exact hiff
    · rw [hsent, hrp]
      exact hasserts
  leaves := .of_parts hsize hwp hrp hwl (.inl hrl)

theorem beginCopy_post (hreader : q.readerLock = some .receiver) (call : RecvCall)
    (hat : q.readerPart.At 0 0 0 []) :
    ∃ pc' q', beginCopy call { q with seen := q.sent.length } q.startIndex q.endIndex =
      .ok (pc', q') ∧ RecvPost q pc' q' := by
  have hlaid := hshared.laid
  have hle : q.head ≤ q.sent.length := hlaid.head_le.trans hlaid.taken_le
  have hused : used { q with seen := q.sent.length } q.startIndex q.endIndex =
      .ok (q.sent.length - q.head) := by
    rw [hlaid.end_eq, hlaid.start_eq]
    exact used_eq hlaid.size_pos hle hlaid.sent_fits
  unfold beginCopy
  rw [hused, ok_bind]
  refine ⟨_, _, rfl, recvPost_of_parts hshared hwriter hlaid rfl rfl rfl rfl rfl
    (iff_of_true hreader rfl) ?_⟩
  have hlive : q.head + min (q.sent.length - q.head) call.bufSize ≤ q.sent.length := by omega
  exact ⟨rfl, hlive, zero_le _, rfl, hat⟩

/-- The messages are copied out one by one, then `start` is stored. -/
theorem recv_copy (hreader : q.readerLock = some .receiver) {start recvCount i : Nat} {buf : List T}
    (hown : (copy start recvCount i buf).Asserts q.sent.length q.readerPart) :
    ∃ pc' q', recvStep q (.copy start recvCount i buf) = .ok (pc', q') ∧ RecvPost q pc' q' := by
  obtain ⟨rfl, hlive, hi, hbuf, hread⟩ := hown
  have hlaid := hshared.laid
  have hfits := hlaid.sent_fits
  have htaken : q.taken.length = q.head + i := hread.taken
  have hlive' : q.head + recvCount ≤ q.sent.length := hlive
  simp only [recvStep]
  split_ifs with hmore
  · have hslot : slotOf q.size q.readerPart.startIndex i = q.taken.length % q.size := by
      change slotOf q.size q.startIndex i = _
      rw [htaken, hlaid.start_eq]
      exact hlaid.slotOf_eq (by omega)
    obtain ⟨msg, q', hok, hlaid', hq'⟩ := takeSlot_ok hlaid .received (by omega) hslot
    rw [hok, ok_bind]
    refine ⟨_, _, rfl, ?_, ?_, ?_⟩
    · rw [hq'] at hlaid' ⊢
      exact ⟨hlaid', hshared.writer_free, by simp [hreader]⟩
    · rw [hq']
      refine ⟨hwriter, iff_of_true hreader rfl, rfl, hlive, hmore, by simp [hbuf], ?_⟩
      refine ⟨?_, ?_, ?_, ?_⟩
      · simp [readerPart, htaken]
        omega
      · simpa [readerPart] using hread.overwritten
      · simpa [readerPart, ← add_assoc] using hread.output
      · have hreceived := hread.received
        simp only [readerPart] at hreceived
        simp [readerPart, hreceived]
    · rw [hq']
      exact ⟨rfl, le_rfl, le_rfl, .inl rfl, .inl rfl, .inr hreader, .inl rfl⟩
  · obtain rfl : i = recvCount := by omega
    refine ⟨_, _, rfl, ?_, ?_, ?_⟩
    · exact ⟨hlaid.advance htaken, hshared.writer_free, by simp [storeStart, hreader]⟩
    · refine ⟨hwriter, iff_of_true hreader rfl, ?_⟩
      refine ⟨htaken, hread.overwritten, ?_, hread.received⟩
      rw [hbuf]
      exact hread.output
    · exact ⟨rfl, le_add_right _ _, le_rfl, .inl rfl, .inl rfl, .inr hreader, .inl rfl⟩

/-- **A step of the receiver** does not panic and keeps the outline. -/
theorem recvStep_post (hown : RecvOwn q pc) :
    ∃ pc' q', recvStep q pc = .ok (pc', q') ∧ RecvPost q pc' q' := by
  have hlaid := hshared.laid
  have hiff := hown.reader_iff
  have hasserts := hown.asserts
  cases pc with
  | idle => exact ⟨_, _, rfl, hshared, hown, .refl _ q⟩
  | lockReader call =>
    simp only [recvStep]
    split_ifs with hfree
    · refine ⟨_, _, rfl, ⟨hlaid, hshared.writer_free, by simp⟩, ⟨hwriter, iff_of_true rfl rfl,
        hshared.reader_free hfree⟩, .of_parts rfl rfl rfl rfl (.inr (.inl ⟨hfree, rfl⟩))⟩
    · exact ⟨_, _, rfl, hshared, hown, .refl _ q⟩
  | loadEnd call start | reloadEnd call lastEnd start =>
    obtain ⟨hat, rfl⟩ := hasserts
    simp only [recvStep]
    split_ifs
    · exact ⟨_, _, rfl, recvPost_of_parts hshared hwriter hlaid rfl rfl rfl rfl rfl hiff hat⟩
    · exact beginCopy_post hshared hwriter (hiff.mpr rfl) call hat
  | loadTerminated call lastEnd =>
    simp only [recvStep]
    split_ifs <;>
      exact ⟨_, _, rfl, recvPost_of_parts hshared hwriter hlaid rfl rfl rfl rfl rfl hiff hasserts⟩
  | wait call lastEnd =>
    exact ⟨_, _, rfl, ⟨hlaid, hshared.writer_free, fun _ => hasserts⟩,
      ⟨hwriter, iff_of_false (by simp) (by simp [holdsReader]), trivial⟩,
      .of_parts rfl rfl rfl rfl (.inr (.inr ⟨hiff.mpr rfl, rfl⟩))⟩
  | waiting call lastEnd =>
    simp only [recvStep]
    split_ifs with hfree
    · refine ⟨_, _, rfl, ⟨hlaid, hshared.writer_free, by simp⟩, ⟨hwriter, iff_of_true rfl rfl,
        hshared.reader_free hfree.2⟩, .of_parts rfl rfl rfl rfl (.inr (.inl ⟨hfree.2, rfl⟩))⟩
    · exact ⟨_, _, rfl, hshared, hown, .refl _ q⟩
  | copy start recvCount i buf => exact recv_copy hshared hwriter (hiff.mpr rfl) hasserts
  | countOutput buf =>
    have hreader := hiff.mpr rfl
    refine ⟨_, _, rfl, ⟨hlaid, hshared.writer_free, by simp [hreader]⟩,
      ⟨hwriter, hiff, ?_⟩, ?_⟩
    · exact ⟨hasserts.taken, hasserts.overwritten, hasserts.output, hasserts.received⟩
    · exact ⟨rfl, le_rfl, le_rfl, .inl rfl, .inl rfl, .inr hreader, .inl rfl⟩
  | unlockReader result =>
    have hreader := hiff.mpr rfl
    refine ⟨_, _, rfl, ⟨hlaid, hshared.writer_free, fun _ => ?_⟩,
      ⟨hwriter, iff_of_false (by simp) (by simp [holdsReader]), trivial⟩, ?_⟩
    · refine ⟨hasserts.taken, hasserts.overwritten, hasserts.output, ?_⟩
      have hreceived := hasserts.received
      simp only [readerPart, handedOut] at hreceived
      simp [readerPart, handedOut, hreceived]
    · exact ⟨rfl, le_rfl, le_rfl, .inl rfl, .inl rfl, .inr hreader, .inr (.inr ⟨hreader, rfl⟩)⟩
  | closing pc =>
    obtain ⟨hshared', hleaves, hwl, hiff', hat⟩ := closeStep_post hshared hiff hasserts
    refine ⟨_, _, rfl, hshared', ⟨?_, hiff', hat⟩, hleaves⟩
    rw [hwl]
    exact hwriter
  | _ =>
    exact ⟨_, _, rfl, recvPost_of_parts hshared hwriter hlaid rfl rfl rfl rfl rfl hiff
      ⟨hasserts, rfl⟩⟩

end Receiving

/-! ## The system -/

/-- The assertion of a thread. -/
def Own (s : State T) : Thread → Prop
  | .receiver => RecvOwn s.queue s.receiver
  | .sender i => SenderOwn (.sender i) s.queue (s.senders i)

/-- What a step of `t` leaves: the queue as said, and the other threads where
they are. -/
def SystemLeaves (t : Thread) (s s' : State T) : Prop :=
  Leaves t s.queue s'.queue ∧ (.receiver ≠ t → s'.receiver = s.receiver) ∧
    ∀ i, .sender i ≠ t → s'.senders i = s.senders i

theorem Own.stable {t t' : Thread} {s s' : State T} (hne : t' ≠ t) (h : SystemLeaves t s s')
    (hown : Own s t') : Own s' t' := by
  obtain ⟨hleaves, hrecv, hsenders⟩ := h
  cases t' with
  | receiver =>
    simp only [Own, hrecv hne]
    exact RecvOwn.stable hne hleaves hown
  | sender i =>
    simp only [Own, hsenders i hne]
    exact SenderOwn.stable hne hleaves hown

variable {s : State T} {i : Nat}

theorem setSender_post {pc' : SenderPc T} (h : SenderPost (.sender i) s.queue pc' q') :
    Shared (s.setSender i pc' q').queue ∧ Own (s.setSender i pc' q') (.sender i) ∧
      SystemLeaves (.sender i) s (s.setSender i pc' q') := by
  refine ⟨h.shared, ?_, h.leaves, fun _ => rfl, ?_⟩
  · simp only [Own, setSender, if_true]
    exact h.own
  · intro j hj
    have hne : j ≠ i := fun heq => hj (congrArg Thread.sender heq)
    simp only [setSender, if_neg hne]

theorem setReceiver_post (h : RecvPost s.queue pc' q') :
    Shared (s.setReceiver pc' q').queue ∧ Own (s.setReceiver pc' q') .receiver ∧
      SystemLeaves .receiver s (s.setReceiver pc' q') :=
  ⟨h.shared, h.own, h.leaves, fun hne => (hne rfl).elim, fun _ _ => rfl⟩

variable {q : Queue T} {me : Thread}

theorem senderPost_outside {pc pc' : SenderPc T} (hshared : Shared q)
    (hown : SenderOwn me q pc) (hwriter : pc'.holdsWriter = pc.holdsWriter)
    (hreader : pc'.holdsReader = pc.holdsReader) (hasserts : pc'.Asserts me q) :
    SenderPost me q pc' q where
  shared := hshared
  own := by
    refine ⟨?_, ?_, hasserts⟩
    · rw [hwriter]
      exact hown.writer_iff
    · rw [hreader]
      exact hown.reader_iff
  leaves := .refl me q

theorem beginSend_post {pc : SenderPc T} (hshared : Shared q)
    (hown : SenderOwn me q pc) (msgs : List T) : SenderPost me q (beginSend q msgs pc) q := by
  cases pc with
  | idle =>
    simp only [beginSend]
    split
    · exact ⟨hshared, hown, .refl me q⟩
    · split
      · exact ⟨hshared, hown, .refl me q⟩
      next hfits => exact senderPost_outside hshared hown rfl rfl (Nat.le_of_not_lt hfits)
  | _ => exact ⟨hshared, hown, .refl me q⟩

theorem stay_post (hshared : Shared s.queue) (hown : Own s t) :
    Shared s.queue ∧ Own s t ∧ SystemLeaves t s s :=
  ⟨hshared, hown, .refl t s.queue, fun _ => rfl, fun _ _ => rfl⟩

theorem dropSender_post (hshared : Shared s.queue) (hown : Own s (.sender i)) :
    Shared (s.dropSender i).queue ∧ Own (s.dropSender i) (.sender i) ∧
      SystemLeaves (.sender i) s (s.dropSender i) := by
  have hsender : SenderOwn (.sender i) s.queue (s.senders i) := hown
  unfold dropSender
  split
  next hidle =>
    rw [hidle] at hsender
    split_ifs
    · exact setSender_post (senderPost_outside hshared hsender rfl rfl (by
        intro hheld
        cases hheld))
    · exact setSender_post (senderPost_outside hshared hsender rfl rfl trivial)
  · exact stay_post hshared hown

theorem clone_post {i j : Nat} (hshared : Shared s.queue) (hown : Own s (.sender j)) :
    Shared (s.clone i j).queue ∧ Own (s.clone i j) (.sender j) ∧
      SystemLeaves (.sender j) s (s.clone i j) := by
  have hsender : SenderOwn (.sender j) s.queue (s.senders j) := hown
  unfold clone
  split
  next habsent =>
    rw [habsent] at hsender
    split
    · exact setSender_post (senderPost_outside hshared hsender rfl rfl trivial)
    · exact stay_post hshared hown
  · exact stay_post hshared hown

theorem recvPost_outside {pc pc' : RecvPc T} (hshared : Shared q) (hown : RecvOwn q pc)
    (hreader : pc'.holdsReader = pc.holdsReader)
    (hasserts : pc'.Asserts q.sent.length q.readerPart) :
    RecvPost q pc' q where
  shared := hshared
  own := by
    refine ⟨hown.writer_ne, ?_, hasserts⟩
    rw [hreader]
    exact hown.reader_iff
  leaves := .refl _ q

theorem begin_post (hshared : Shared q) (hown : RecvOwn q pc) (call : RecvCall) :
    RecvPost q (pc.begin call) q := by
  cases pc with
  | idle => exact recvPost_outside hshared hown rfl trivial
  | _ => exact ⟨hshared, hown, .refl _ q⟩

theorem drop_post (hshared : Shared q) (hown : RecvOwn q pc) : RecvPost q pc.drop q := by
  cases pc with
  | idle =>
    refine recvPost_outside hshared hown rfl ?_
    intro hheld
    cases hheld
  | _ => exact ⟨hshared, hown, .refl _ q⟩

theorem timeUp_post (hshared : Shared q) (hown : RecvOwn q pc) : RecvPost q pc.timeUp q := by
  cases pc with
  | wait call lastEnd =>
    simp only [timeUp]
    split
    · exact recvPost_outside hshared hown rfl hown.asserts
    · exact ⟨hshared, hown, .refl _ q⟩
  | _ => exact ⟨hshared, hown, .refl _ q⟩

/-- The outline of the system: every action meets it. -/
def outline (T : Type) : Threads.Outline (step (T := T)) Action.who where
  shared := fun s => Shared s.queue
  own := fun t s => Own s t
  leaves := SystemLeaves
  stable := fun _ _ _ _ hne hleaves hown => hown.stable hne hleaves
  step_ok := by
    intro s a hshared hown
    cases a with
    | send i msgs => exact ⟨_, rfl, setSender_post (beginSend_post hshared hown msgs)⟩
    | sender i =>
      obtain ⟨pc', q', hok, hpost⟩ := senderStep_post hshared hown
      refine ⟨s.setSender i pc' q', ?_, setSender_post hpost⟩
      simp only [step, hok, ok_bind]
    | clone i j => exact ⟨_, rfl, clone_post hshared hown⟩
    | dropSender i => exact ⟨_, rfl, dropSender_post hshared hown⟩
    | recv call => exact ⟨_, rfl, setReceiver_post (begin_post hshared hown call)⟩
    | receiver =>
      obtain ⟨pc', q', hok, hpost⟩ := recvStep_post hshared hown.writer_ne hown
      refine ⟨s.setReceiver pc' q', ?_, setReceiver_post hpost⟩
      simp only [step, hok, ok_bind]
    | timeUp => exact ⟨_, rfl, setReceiver_post (timeUp_post hshared hown)⟩
    | wakeSpuriously =>
      have hrecv : RecvOwn s.queue s.receiver := hown
      exact ⟨_, rfl, setReceiver_post (recvPost_of_parts hshared hrecv.writer_ne hshared.laid rfl
        rfl rfl rfl rfl hrecv.reader_iff hrecv.asserts)⟩
    | dropReceiver => exact ⟨_, rfl, setReceiver_post (drop_post hshared hown)⟩

theorem bounded_holds (size : Nat) : (outline T).Holds (State.bounded size) := by
  have hpower : ∃ k, size.nextPowerOfTwo = 2 ^ k := isPowerOfTwo_nextPowerOfTwo size
  refine ⟨⟨?_, ?_, ?_⟩, ?_⟩
  · refine ⟨hpower, ?_, ?_, le_rfl, le_rfl, List.prefix_rfl, zero_le _, rfl, ?_⟩
    · exact (zero_mod _).symm
    · exact (zero_mod _).symm
    · intro p _ _
      simp [bounded, withCapacity]
  · intro _
    exact ⟨rfl, rfl, rfl⟩
  · intro _
    exact ⟨rfl, rfl, rfl, rfl⟩
  · intro t
    cases t with
    | receiver =>
      exact ⟨by simp [bounded, withCapacity], by
        simp [bounded, withCapacity, holdsReader], trivial⟩
    | sender i =>
      change SenderOwn _ _ (if i = 0 then .idle else .absent)
      split <;> exact ⟨by simp [bounded, withCapacity, SenderPc.holdsWriter], by
        simp [bounded, withCapacity, SenderPc.holdsReader], trivial⟩

end ZeroTrace.OverwriteQueue
