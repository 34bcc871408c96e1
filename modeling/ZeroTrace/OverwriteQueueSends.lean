import ZeroTrace.OverwriteQueueLayout

/-!
# What the threads of the overwrite queue assert: the senders

Each lock owns a part of the queue while it is free: the writer's lock the end
of the ring and the account of the sends, the reader's lock its start and the
account of what was taken out.  A thread that takes a lock takes over the part
and must give it back in order.  A thread may hold on to what it has read of
the other part only as a bound: `start` can only have gone further since a
sender loaded it, and `end` since the receiver did.

The steps of `raw_send` and of `close` are checked against this one by one.
-/

namespace ZeroTrace.OverwriteQueue

open RustExec List Queue SendPc Nat

variable {T : Type} {pc : SenderPc T}

/-- What the writer's lock protects. -/
structure WriterPart (T : Type) where
  endIndex : Nat
  sends : List (Thread × List T)
  written : List T
  completed : List (Thread × List T)
  input : Nat

/-- What the reader's lock protects. -/
structure ReaderPart (T : Type) where
  startIndex : Nat
  head : Nat
  taken : List (Fate × T)
  returned : List (RecvResult T)
  overwritten : Nat
  output : Nat

def Queue.writerPart (q : Queue T) : WriterPart T where
  endIndex := q.endIndex
  sends := q.sends
  written := q.written
  completed := q.completed
  input := q.counter.input

def Queue.readerPart (q : Queue T) : ReaderPart T where
  startIndex := q.startIndex
  head := q.head
  taken := q.taken
  returned := q.returned
  overwritten := q.counter.overwritten
  output := q.counter.output

def WriterPart.sent (w : WriterPart T) : List T := w.sends.flatMap Prod.snd

/-- The messages that receives have returned. -/
def handedOut (returned : List (RecvResult T)) : List T := returned.flatMap RecvResult.msgs

/-- The writer's part, with messages copied in but not published, messages
published but not counted, and calls that have published but not returned. -/
structure WriterPart.At (w : WriterPart T) (copied : List T) (uncounted : Nat)
    (unreturned : List (Thread × List T)) : Prop where
  written : w.written = w.sent ++ copied
  counted : w.sent.length = w.input + uncounted
  calls : w.sends = w.completed ++ unreturned

/-- The reader's part, with messages taken out since `start` was stored,
overwritten and received ones not counted yet, and messages in the hands of
the receiver. -/
structure ReaderPart.At (r : ReaderPart T) (ahead uncounted unposted : Nat) (hand : List T) :
    Prop where
  taken : r.taken.length = r.head + ahead
  overwritten : (overwrittenOf r.taken).length = r.overwritten + uncounted
  output : (receivedOf r.taken).length = r.output + unposted
  received : receivedOf r.taken = handedOut r.returned ++ hand

structure Shared (q : Queue T) : Prop where
  laid : q.Laid
  writer_free : q.writerLock = none → q.writerPart.At [] 0 []
  reader_free : q.readerLock = none → q.readerPart.At 0 0 0 []

/-- A lock that only `t` has taken or given back. -/
def Passes (t : Thread) (lock lock' : Option Thread) : Prop :=
  lock' = lock ∨ (lock = none ∧ lock' = some t) ∨ (lock = some t ∧ lock' = none)

theorem Passes.other {t t' : Thread} {lock lock' : Option Thread} (h : Passes t lock lock')
    (ht : t' ≠ t) : lock' = some t' ↔ lock = some t' := by
  rcases h with rfl | ⟨rfl, rfl⟩ | ⟨rfl, rfl⟩
  · exact Iff.rfl
  · simp [ht.symm]
  · simp [ht.symm]

/-- What a step of `t` leaves of the queue. -/
structure Leaves (t : Thread) (q q' : Queue T) : Prop where
  size : q'.size = q.size
  head_le : q.head ≤ q'.head
  sent_le : q.sent.length ≤ q'.sent.length
  writer : q'.writerPart = q.writerPart ∨ q.writerLock = some t
  writer_lock : Passes t q.writerLock q'.writerLock
  reader : q'.readerPart = q.readerPart ∨ q.readerLock = some t
  reader_lock : Passes t q.readerLock q'.readerLock

theorem Leaves.of_parts {t : Thread} {q q' : Queue T} (hsize : q'.size = q.size)
    (hwriter : q'.writerPart = q.writerPart) (hreader : q'.readerPart = q.readerPart)
    (hwl : q'.writerLock = q.writerLock) (hrl : Passes t q.readerLock q'.readerLock) :
    Leaves t q q' where
  size := hsize
  head_le := (congrArg ReaderPart.head hreader).ge
  sent_le := (congrArg (length ∘ WriterPart.sent) hwriter).ge
  writer := .inl hwriter
  writer_lock := .inl hwl
  reader := .inl hreader
  reader_lock := hrl

theorem Leaves.refl (t : Thread) (q : Queue T) : Leaves t q q :=
  .of_parts rfl rfl rfl rfl (.inl rfl)

/-! ## The senders -/

def SendPc.holdsReader : SendPc → Bool
  | .reloadStart _ => true
  | .dropOldest _ _ _ _ => true
  | .countOverwritten _ _ => true
  | .unlockReader _ => true
  | _ => false

/-- The assertion of a sender in its critical section. -/
def SendOwn (size : Nat) (me : Thread) (msgs : List T) (w : WriterPart T) (r : ReaderPart T) :
    SendPc → Prop
  | .loadStart => w.At [] 0 []
  | .loadEnd start =>
    w.At [] 0 [] ∧ ∃ h ≤ r.head, start = h % (2 * size) ∧ h ≤ w.sent.length ∧
      w.sent.length ≤ h + size
  | .lockReader rawEnd => w.At [] 0 [] ∧ rawEnd = w.endIndex
  | .reloadStart rawEnd => w.At [] 0 [] ∧ rawEnd = w.endIndex ∧ r.At 0 0 0 []
  | .dropOldest rawEnd start toOverwrite i =>
    w.At [] 0 [] ∧ rawEnd = w.endIndex ∧ start = r.startIndex ∧ i ≤ toOverwrite ∧
      r.head + toOverwrite ≤ w.sent.length ∧
      w.sent.length + msgs.length ≤ r.head + toOverwrite + size ∧ r.At i i 0 []
  | .countOverwritten rawEnd toOverwrite =>
    w.At [] 0 [] ∧ rawEnd = w.endIndex ∧ w.sent.length + msgs.length ≤ r.head + size ∧
      r.At 0 toOverwrite 0 []
  | .unlockReader rawEnd =>
    w.At [] 0 [] ∧ rawEnd = w.endIndex ∧ w.sent.length + msgs.length ≤ r.head + size ∧
      r.At 0 0 0 []
  | .copy rawEnd i =>
    w.At (msgs.take i) 0 [] ∧ rawEnd = w.endIndex ∧
      w.sent.length + msgs.length ≤ r.head + size ∧ i ≤ msgs.length
  | .countInput => w.At [] msgs.length [(me, msgs)]
  | .notify => w.At [] 0 [(me, msgs)]
  | .unlockWriter => w.At [] 0 [(me, msgs)]
  | .returned => False

theorem SendOwn.mono {size : Nat} {me : Thread} {msgs : List T} {w : WriterPart T}
    {r r' : ReaderPart T} {pc : SendPc} (hle : r.head ≤ r'.head) (hpc : pc.holdsReader = false)
    (h : SendOwn size me msgs w r pc) : SendOwn size me msgs w r' pc := by
  cases pc with
  | loadEnd start =>
    obtain ⟨hat, p, hp, hrest⟩ := h
    exact ⟨hat, p, hp.trans hle, hrest⟩
  | copy rawEnd i =>
    obtain ⟨hat, hend, hroom, hi⟩ := h
    exact ⟨hat, hend, by omega, hi⟩
  | loadStart | lockReader rawEnd | countInput | notify | unlockWriter | returned => exact h
  | _ => cases hpc

def ClosePc.holdsReader : ClosePc → Bool
  | .lockReader => false
  | .setTerminated => true
  | .notify => true
  | .unlockReader => true
  | .closed => false

def SenderPc.holdsWriter : SenderPc T → Bool
  | .inside _ _ => true
  | _ => false

def SenderPc.holdsReader : SenderPc T → Bool
  | .inside _ pc => pc.holdsReader
  | .closing pc => pc.holdsReader
  | _ => false

def SenderPc.Asserts (me : Thread) (q : Queue T) : SenderPc T → Prop
  | .lockWriter msgs => msgs.length ≤ q.size
  | .inside msgs pc =>
    msgs.length ≤ q.size ∧ SendOwn q.size me msgs q.writerPart q.readerPart pc
  | .closing pc => pc.holdsReader = true → q.readerPart.At 0 0 0 []
  | _ => True

structure SenderOwn (me : Thread) (q : Queue T) (pc : SenderPc T) : Prop where
  writer_iff : q.writerLock = some me ↔ pc.holdsWriter = true
  reader_iff : q.readerLock = some me ↔ pc.holdsReader = true
  asserts : pc.Asserts me q

theorem SenderOwn.stable {t me : Thread} {q q' : Queue T} (hne : me ≠ t)
    (hleaves : Leaves t q q') (h : SenderOwn me q pc) : SenderOwn me q' pc := by
  have hwl := hleaves.writer_lock.other hne
  have hrl := hleaves.reader_lock.other hne
  have hother : ∀ {lock : Option Thread}, lock = some me → lock ≠ some t := by
    intro lock hme ht
    rw [hme] at ht
    exact hne (Option.some.inj ht)
  refine ⟨hwl.trans h.writer_iff, hrl.trans h.reader_iff, ?_⟩
  have hasserts := h.asserts
  cases pc with
  | lockWriter msgs =>
    simp only [SenderPc.Asserts, hleaves.size] at hasserts ⊢
    exact hasserts
  | closing pc =>
    intro hpc
    have hlock := h.reader_iff.mpr hpc
    rw [hleaves.reader.resolve_right (hother hlock)]
    exact hasserts hpc
  | inside msgs pc =>
    have hpart := hleaves.writer.resolve_right (hother (h.writer_iff.mpr rfl))
    obtain ⟨hfits, hown⟩ := hasserts
    simp only [SenderPc.Asserts, hleaves.size, hpart]
    refine ⟨hfits, ?_⟩
    cases hpc : pc.holdsReader with
    | true =>
      have hlock := h.reader_iff.mpr hpc
      rw [hleaves.reader.resolve_right (hother hlock)]
      exact hown
    | false => exact hown.mono hleaves.head_le hpc
  | _ => trivial

/-- What a step of a sender must achieve. -/
structure SenderPost (me : Thread) (q : Queue T) (pc' : SenderPc T) (q' : Queue T) : Prop where
  shared : Shared q'
  own : SenderOwn me q' pc'
  leaves : Leaves me q q'

/-- A step of `raw_send` under the writer's lock does not panic and keeps the outline. -/
def SendPc.Keeps (me : Thread) (msgs : List T) (q : Queue T) (pc : SendPc) : Prop :=
  (q.readerLock = some me ↔ pc.holdsReader = true) →
    SendOwn q.size me msgs q.writerPart q.readerPart pc →
      ∃ pc' q', sendStep me msgs q pc = .ok (pc', q') ∧ SenderPost me q (.at msgs pc') q'

section Sending

variable {me : Thread} {msgs : List T} {q : Queue T} (hshared : Shared q)
  (hwriter : q.writerLock = some me) (hfits : msgs.length ≤ q.size)
include hshared hwriter hfits

theorem senderPost_of_parts {pc' : SendPc} {q' : Queue T} (hlaid : q'.Laid)
    (hsize : q'.size = q.size) (hwp : q'.writerPart = q.writerPart)
    (hrp : q'.readerPart = q.readerPart) (hwl : q'.writerLock = q.writerLock)
    (hrl : q'.readerLock = q.readerLock) (hiff : q.readerLock = some me ↔ pc'.holdsReader = true)
    (hown : SendOwn q.size me msgs q.writerPart q.readerPart pc') :
    SenderPost me q (.inside msgs pc') q' where
  shared := by
    refine ⟨hlaid, ?_, ?_⟩
    · rw [hwl, hwp]
      exact hshared.writer_free
    · rw [hrl, hrp]
      exact hshared.reader_free
  own := by
    refine ⟨?_, ?_, ?_⟩
    · rw [hwl]
      exact iff_of_true hwriter rfl
    · rw [hrl]
      exact hiff
    · simp only [SenderPc.Asserts, hsize, hwp, hrp]
      exact ⟨hfits, hown⟩
  leaves := .of_parts hsize hwp hrp hwl (.inl hrl)

theorem send_loadStart : loadStart.Keeps me msgs q := by
  intro hiff hown
  have hlaid := hshared.laid
  refine ⟨_, _, rfl, senderPost_of_parts hshared hwriter hfits hlaid rfl rfl rfl rfl rfl hiff ?_⟩
  exact ⟨hown, q.head, le_rfl, hlaid.start_eq, hlaid.head_le.trans hlaid.taken_le, hlaid.sent_fits⟩

/-- The first assertion holds, for a `start` that may be out of date. -/
theorem send_loadEnd (start : Nat) : (loadEnd start).Keeps me msgs q := by
  rintro hiff ⟨hat, h, hhead, rfl, hle, hfit⟩
  have hlaid := hshared.laid
  have hused : q.used (h % (2 * q.size)) q.endIndex = .ok (q.sent.length - h) := by
    rw [hlaid.end_eq]
    exact used_eq hlaid.size_pos hle hfit
  simp only [sendStep, hused, ok_bind]
  split_ifs
  · exact ⟨_, _, rfl, senderPost_of_parts hshared hwriter hfits hlaid rfl rfl rfl rfl rfl hiff
      ⟨hat, rfl⟩⟩
  refine ⟨_, _, rfl, senderPost_of_parts hshared hwriter hfits hlaid rfl rfl rfl rfl rfl hiff ?_⟩
  have hroom : q.sent.length + msgs.length ≤ q.head + q.size := by
    have hhead' : h ≤ q.head := hhead
    omega
  exact ⟨hat, rfl, hroom, zero_le _⟩

theorem send_lockReader (rawEnd : Nat) : (lockReader rawEnd).Keeps me msgs q := by
  intro hiff hown
  simp only [sendStep]
  split_ifs with hfree
  · refine ⟨_, _, rfl, ?_, ?_, ?_⟩
    · exact ⟨hshared.laid, hshared.writer_free, by simp⟩
    · refine ⟨iff_of_true hwriter rfl, iff_of_true rfl rfl, hfits, hown.1, hown.2, ?_⟩
      exact hshared.reader_free hfree
    · exact .of_parts rfl rfl rfl rfl (.inr (.inl ⟨hfree, rfl⟩))
  · exact ⟨_, _, rfl, senderPost_of_parts hshared hwriter hfits hshared.laid rfl rfl rfl rfl rfl
      hiff hown⟩

/-- The second assertion holds, for the `start` of the moment. -/
theorem send_reloadStart (rawEnd : Nat) : (reloadStart rawEnd).Keeps me msgs q := by
  rintro hiff ⟨hat, rfl, hread⟩
  have hlaid := hshared.laid
  have hle : q.head ≤ q.sent.length := hlaid.head_le.trans hlaid.taken_le
  have hfit : q.sent.length ≤ q.head + q.size := hlaid.sent_fits
  have hused : q.used q.startIndex q.writerPart.endIndex = .ok (q.sent.length - q.head) := by
    change q.used q.startIndex q.endIndex = _
    rw [hlaid.end_eq, hlaid.start_eq]
    exact used_eq hlaid.size_pos hle hfit
  simp only [sendStep, hused, ok_bind]
  split_ifs
  · refine ⟨_, _, rfl, senderPost_of_parts hshared hwriter hfits hlaid rfl rfl rfl rfl rfl hiff ?_⟩
    have hlive : q.head + (msgs.length - (q.size - (q.sent.length - q.head))) ≤
        q.sent.length := by omega
    have hroom : q.sent.length + msgs.length ≤
        q.head + (msgs.length - (q.size - (q.sent.length - q.head))) + q.size := by omega
    exact ⟨hat, rfl, rfl, zero_le _, hlive, hroom, hread⟩
  · refine ⟨_, _, rfl, senderPost_of_parts hshared hwriter hfits hlaid rfl rfl rfl rfl rfl hiff ?_⟩
    have hroom : q.sent.length + msgs.length ≤ q.head + q.size := by omega
    exact ⟨hat, rfl, hroom, hread⟩

/-- The oldest messages are dropped one by one, then `start` is stored. -/
theorem send_dropOldest (rawEnd start toOverwrite i : Nat) :
    (dropOldest rawEnd start toOverwrite i).Keeps me msgs q := by
  rintro hiff ⟨hat, hend, rfl, hi, hlive, hroom, hread⟩
  have hreader : q.readerLock = some me := hiff.mpr rfl
  have hlaid := hshared.laid
  have htaken : q.taken.length = q.head + i := hread.taken
  have hlive' : q.head + toOverwrite ≤ q.sent.length := hlive
  simp only [sendStep]
  split_ifs with hmore
  · have hslot : (q.readerPart.startIndex + i) &&& (q.size - 1) = q.taken.length % q.size := by
      rw [htaken]
      exact hlaid.mask_slot i
    obtain ⟨msg, q', hok, hlaid', hq'⟩ := takeSlot_ok hlaid .overwritten (by omega) hslot
    rw [hok, ok_bind]
    refine ⟨_, _, rfl, ?_, ?_, ?_⟩
    · rw [hq'] at hlaid' ⊢
      exact ⟨hlaid', hshared.writer_free, by simp [hreader]⟩
    · rw [hq']
      refine ⟨iff_of_true hwriter rfl, hiff, hfits, hat, hend, rfl, hmore, hlive, hroom, ?_⟩
      refine ⟨?_, ?_, ?_, ?_⟩
      · simp [readerPart, htaken]
        omega
      · simpa [readerPart, ← add_assoc] using hread.overwritten
      · simpa [readerPart] using hread.output
      · simpa [readerPart] using hread.received
    · rw [hq']
      exact ⟨rfl, le_rfl, le_rfl, .inl rfl, .inl rfl, .inr hreader, .inl rfl⟩
  · obtain rfl : i = toOverwrite := by omega
    refine ⟨_, _, rfl, ?_, ?_, ?_⟩
    · exact ⟨hlaid.advance htaken, hshared.writer_free, by simp [storeStart, hreader]⟩
    · refine ⟨iff_of_true hwriter rfl, hiff, hfits, hat, hend, hroom, ?_⟩
      exact ⟨htaken, hread.overwritten, hread.output, hread.received⟩
    · exact ⟨rfl, le_add_right _ _, le_rfl, .inl rfl, .inl rfl, .inr hreader, .inl rfl⟩

theorem send_countOverwritten (rawEnd toOverwrite : Nat) :
    (countOverwritten rawEnd toOverwrite).Keeps me msgs q := by
  rintro hiff ⟨hat, hend, hroom, hread⟩
  have hreader : q.readerLock = some me := hiff.mpr rfl
  refine ⟨_, _, rfl, ?_, ?_, ?_⟩
  · exact ⟨hshared.laid, hshared.writer_free, by simp [hreader]⟩
  · refine ⟨iff_of_true hwriter rfl, hiff, hfits, hat, hend, hroom, ?_⟩
    exact ⟨hread.taken, hread.overwritten, hread.output, hread.received⟩
  · exact ⟨rfl, le_rfl, le_rfl, .inl rfl, .inl rfl, .inr hreader, .inl rfl⟩

theorem send_unlockReader (rawEnd : Nat) : (unlockReader rawEnd).Keeps me msgs q := by
  rintro hiff ⟨hat, hend, hroom, hread⟩
  refine ⟨_, _, rfl, ?_, ?_, ?_⟩
  · exact ⟨hshared.laid, hshared.writer_free, fun _ => hread⟩
  · exact ⟨iff_of_true hwriter rfl, iff_of_false (by simp) (by simp [SenderPc.holdsReader,
      SenderPc.at, holdsReader]), hfits, hat, hend, hroom, zero_le _⟩
  · exact .of_parts rfl rfl rfl rfl (.inr (.inr ⟨hiff.mpr rfl, rfl⟩))

/-- The batch is copied in message by message, then `end` is stored. -/
theorem send_copy (rawEnd i : Nat) : (copy rawEnd i).Keeps me msgs q := by
  rintro hiff ⟨hat, rfl, hroom, hi⟩
  have hlaid := hshared.laid
  have hroom' : q.sent.length + msgs.length ≤ q.head + q.size := hroom
  have hwritten : q.written = q.sent ++ msgs.take i := hat.written
  simp only [sendStep]
  by_cases hmore : i < msgs.length
  · rw [getElem?_eq_getElem hmore]
    have hlength : q.written.length = q.sent.length + i := by
      rw [hwritten, length_append, length_take, min_eq_left hi]
    have hslot : slotOf q.size q.writerPart.endIndex i = q.written.length % q.size := by
      rw [hlength, ← hlaid.slotOf_eq (by omega : i < q.size), ← hlaid.end_eq]
      rfl
    rw [hslot]
    refine ⟨_, _, rfl, ?_, ?_, ?_⟩
    · refine ⟨hlaid.put (by omega) _, by simp [putSlot, setSlot, hwriter],
        hshared.reader_free⟩
    · refine ⟨iff_of_true hwriter rfl, hiff, hfits, ?_, rfl, hroom, hmore⟩
      refine ⟨?_, hat.counted, hat.calls⟩
      change q.written ++ _ = q.sent ++ _
      rw [hwritten, take_add_one, getElem?_eq_getElem hmore, append_assoc]
      rfl
    · exact ⟨rfl, le_rfl, le_rfl, .inr hwriter, .inl rfl, .inl rfl, .inl rfl⟩
  · rw [getElem?_eq_none (by omega)]
    rw [take_of_length_le (by omega)] at hat hwritten
    have hsent : (q.storeEnd me q.writerPart.endIndex msgs).sent = q.sent ++ msgs := by
      simp [sent, storeEnd]
    refine ⟨_, _, rfl, ?_, ?_, ?_⟩
    · refine ⟨?_, by simp [storeEnd, hwriter], hshared.reader_free⟩
      unfold Queue.Laid
      rw [hsent]
      exact hlaid.publish hwritten
    · refine ⟨iff_of_true hwriter rfl, hiff, hfits, ?_⟩
      have hcounted : q.sent.length = q.counter.input := hat.counted
      have hcalls : q.sends = q.completed := hat.calls.trans (append_nil _)
      refine ⟨?_, ?_, ?_⟩
      · change q.written = (q.storeEnd me q.writerPart.endIndex msgs).sent ++ []
        rw [hsent, append_nil, hwritten]
      · change (q.storeEnd me q.writerPart.endIndex msgs).sent.length = q.counter.input + _
        rw [hsent, length_append, hcounted]
      · change q.sends ++ _ = q.completed ++ _
        rw [hcalls]
    · refine ⟨rfl, le_rfl, ?_, .inr hwriter, .inl rfl, .inl rfl, .inl rfl⟩
      rw [hsent, length_append]
      exact le_add_right _ _

theorem send_countInput : countInput.Keeps me msgs q := by
  intro hiff hown
  refine ⟨_, _, rfl, ?_, ?_, ?_⟩
  · exact ⟨hshared.laid, by simp [hwriter], hshared.reader_free⟩
  · refine ⟨iff_of_true hwriter rfl, hiff, hfits, ?_⟩
    exact ⟨hown.written, hown.counted, hown.calls⟩
  · exact ⟨rfl, le_rfl, le_rfl, .inr hwriter, .inl rfl, .inl rfl, .inl rfl⟩

omit hfits in
theorem send_unlockWriter : unlockWriter.Keeps me msgs q := by
  intro hiff hown
  refine ⟨_, _, rfl, ?_, ?_, ?_⟩
  · refine ⟨hshared.laid, fun _ => ?_, hshared.reader_free⟩
    exact ⟨hown.written, hown.counted, hown.calls.trans (append_nil _).symm⟩
  · exact ⟨iff_of_false (by simp) (by simp [SenderPc.at, SenderPc.holdsWriter]), hiff, trivial⟩
  · exact ⟨rfl, le_rfl, le_rfl, .inr hwriter, .inr (.inr ⟨hwriter, rfl⟩), .inl rfl, .inl rfl⟩

/-- **A step of `raw_send`**, at each of its points. -/
theorem sendStep_post (pc : SendPc) : pc.Keeps me msgs q := by
  cases pc with
  | loadStart => exact send_loadStart hshared hwriter hfits
  | loadEnd start => exact send_loadEnd hshared hwriter hfits start
  | lockReader rawEnd => exact send_lockReader hshared hwriter hfits rawEnd
  | reloadStart rawEnd => exact send_reloadStart hshared hwriter hfits rawEnd
  | dropOldest rawEnd start toOverwrite i =>
    exact send_dropOldest hshared hwriter hfits rawEnd start toOverwrite i
  | countOverwritten rawEnd toOverwrite =>
    exact send_countOverwritten hshared hwriter hfits rawEnd toOverwrite
  | unlockReader rawEnd => exact send_unlockReader hshared hwriter hfits rawEnd
  | copy rawEnd i => exact send_copy hshared hwriter hfits rawEnd i
  | countInput => exact send_countInput hshared hwriter hfits
  | notify =>
    intro hiff hown
    exact ⟨_, _, rfl, senderPost_of_parts hshared hwriter hfits hshared.laid rfl rfl rfl rfl rfl
      hiff hown⟩
  | unlockWriter => exact send_unlockWriter hshared hwriter
  | returned => exact fun _ hown => hown.elim

end Sending

/-- **A step of `close`** by either side. -/
theorem closeStep_post {me : Thread} {q : Queue T} (hshared : Shared q) {pc : ClosePc}
    (hiff : q.readerLock = some me ↔ pc.holdsReader = true)
    (hown : pc.holdsReader = true → q.readerPart.At 0 0 0 []) :
    Shared (closeStep me q pc).2 ∧ Leaves me q (closeStep me q pc).2 ∧
      ((closeStep me q pc).2.writerLock = q.writerLock) ∧
      ((closeStep me q pc).2.readerLock = some me ↔ (closeStep me q pc).1.holdsReader = true) ∧
      ((closeStep me q pc).1.holdsReader = true →
        (closeStep me q pc).2.readerPart.At 0 0 0 []) := by
  cases pc with
  | lockReader =>
    simp only [closeStep]
    split_ifs with hfree
    · have hat := hshared.reader_free hfree
      exact ⟨⟨hshared.laid, hshared.writer_free, by simp⟩,
        .of_parts rfl rfl rfl rfl (.inr (.inl ⟨hfree, rfl⟩)), rfl, iff_of_true rfl rfl,
        fun _ => hat⟩
    · exact ⟨hshared, .refl me q, rfl, hiff, hown⟩
  | unlockReader =>
    exact ⟨⟨hshared.laid, hshared.writer_free, fun _ => hown rfl⟩,
      .of_parts rfl rfl rfl rfl (.inr (.inr ⟨hiff.mpr rfl, rfl⟩)), rfl,
      iff_of_false (by simp [closeStep]) (by simp [closeStep, ClosePc.holdsReader]),
      by simp [closeStep, ClosePc.holdsReader]⟩
  | closed => exact ⟨hshared, .refl me q, rfl, hiff, hown⟩
  | _ =>
    exact ⟨⟨hshared.laid, hshared.writer_free, hshared.reader_free⟩,
      .of_parts rfl rfl rfl rfl (.inl rfl), rfl, hiff, hown⟩

/-- **A step of a sender**, inside a call or outside, does not panic and keeps
the outline. -/
theorem senderStep_post {me : Thread} {q : Queue T} (hshared : Shared q)
    (hown : SenderOwn me q pc) :
    ∃ pc' q', senderStep me q pc = .ok (pc', q') ∧ SenderPost me q pc' q' := by
  cases pc with
  | lockWriter msgs =>
    simp only [senderStep]
    split_ifs with hfree
    · have hreader : q.readerLock ≠ some me := by
        intro hlock
        cases hown.reader_iff.mp hlock
      refine ⟨_, _, rfl, ?_, ?_, ?_⟩
      · exact ⟨hshared.laid, by simp, hshared.reader_free⟩
      · exact ⟨iff_of_true rfl rfl, iff_of_false hreader (by simp [SenderPc.holdsReader,
          holdsReader]), hown.asserts, hshared.writer_free hfree⟩
      · exact ⟨rfl, le_rfl, le_rfl, .inl rfl, .inr (.inl ⟨hfree, rfl⟩), .inl rfl, .inl rfl⟩
    · exact ⟨_, _, rfl, hshared, hown, .refl me q⟩
  | inside msgs pc =>
    obtain ⟨pc', q', hok, hpost⟩ := sendStep_post hshared (hown.writer_iff.mpr rfl)
      hown.asserts.1 pc hown.reader_iff hown.asserts.2
    refine ⟨.at msgs pc', q', ?_, hpost⟩
    simp only [senderStep, hok, ok_bind]
  | closing pc =>
    obtain ⟨hshared', hleaves, hwl, hiff, hat⟩ :=
      closeStep_post hshared hown.reader_iff hown.asserts
    refine ⟨_, _, rfl, hshared', ⟨?_, hiff, hat⟩, hleaves⟩
    rw [hwl]
    exact hown.writer_iff
  | _ => exact ⟨_, _, rfl, hshared, hown, .refl me q⟩

end ZeroTrace.OverwriteQueue
