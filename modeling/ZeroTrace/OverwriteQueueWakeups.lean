import Mathlib.Data.Finset.Card
import ZeroTrace.OverwriteQueueOutline

/-!
# Wakeups of the overwrite queue

A receiver that finds nothing between `start` and `end` waits on the condition
variable until a sender notifies it.  A sender notifies without the lock that
the receiver waits with, so a notification can fall between the receiver's load
of `end` and its wait, where it wakes nobody; and a receiver that wakes up
takes an `end` equal to the one it has seen for a sign that nothing was sent,
also when the ring has gone round.

`prompt` excludes these two, and runs that are prompt lose no wakeup and end
only when empty.  The invariant is that as long as the receiver is about to
wait or is parked, anything sent since its last look at `end` was sent by a
sender that has yet to notify.
-/

namespace ZeroTrace.OverwriteQueue

open RustExec Runs State Finset

variable {T : Type} {pc pc' : SenderPc T}

/-- The sender has stored `end` and not notified yet. -/
def SenderPc.published : SenderPc T → Bool
  | .inside _ .countInput => true
  | .inside _ .notify => true
  | _ => false

def SenderPc.atNotify : SenderPc T → Bool
  | .inside _ .notify => true
  | _ => false

def SenderPc.isClosing : SenderPc T → Bool
  | .closing _ => true
  | _ => false

/-- A notification of this sender is still to come, for a message that it has
sent or for the end of the queue. -/
def SenderPc.willNotify : SenderPc T → Bool
  | .closing .notify => true
  | pc => pc.published

/-- Between the load of `end` and the wait. -/
def RecvPc.inWindow : RecvPc T → Bool
  | .loadTerminated _ _ => true
  | .wait _ _ => true
  | _ => false

def RecvPc.isWaiting : RecvPc T → Bool
  | .waiting _ _ => true
  | _ => false

def RecvPc.atReload : RecvPc T → Bool
  | .reloadEnd _ _ _ => true
  | _ => false

def RecvPc.isClosing : RecvPc T → Bool
  | .closing _ => true
  | _ => false

/-- The receive is about to return `Terminated`. -/
def RecvPc.saysTerminated : RecvPc T → Bool
  | .unlockReader .terminated => true
  | _ => false

/-- The value of `end` that a wakeup is compared with. -/
def RecvPc.lastEnd? : RecvPc T → Option Nat
  | .loadTerminated _ lastEnd => some lastEnd
  | .wait _ lastEnd => some lastEnd
  | .waiting _ lastEnd => some lastEnd
  | .reloadStart _ lastEnd => some lastEnd
  | .reloadEnd _ lastEnd _ => some lastEnd
  | _ => none

/-- A message is in the buffer, the receiver waits, and every notification has
been consumed. -/
def Stranded (s : State T) : Prop :=
  s.queue.buffered ≠ [] ∧ s.receiver.isWaiting = true ∧ s.queue.parked = true ∧
    ∀ i, (s.senders i).willNotify = false

/-- A receive returns `Terminated` with a message in the buffer. -/
def EndsEarly (s : State T) : Prop :=
  s.queue.buffered ≠ [] ∧ s.receiver.saysTerminated = true

/-- What a schedule must avoid: a sender that notifies while the receiver is
between its load of `end` and its wait, with something sent since the load; and
a receiver that looks at `end` again after a positive multiple of `2 * size`
messages. -/
def prompt (s : State T) : Action T → Bool
  | .sender i =>
    !((s.senders i).atNotify && s.receiver.inWindow) || s.queue.sent.length == s.queue.seen
  | .receiver =>
    !s.receiver.atReload || s.queue.sent.length == s.queue.seen ||
      (s.queue.sent.length - s.queue.seen) % (2 * s.queue.size) != 0
  | _ => true

/-! ## What a step of a sender can do to the receiver -/

/-- What a step of a sender, from the place `pc`, does to what the receiver
waits for. -/
structure SenderMove (pc : SenderPc T) (q : Queue T) (pc' : SenderPc T) (q' : Queue T) :
    Prop where
  seen : q'.seen = q.seen
  parked : q'.parked = true → q.parked = true
  alive : pc'.alive = pc.alive
  closing : pc'.isClosing = pc.isClosing
  terminated : q'.terminated = q.terminated ∨ (pc.isClosing = true ∧ q'.terminated = true)
  publishes : q'.sent = q.sent ∨ pc'.published = true
  keeps : pc.published = true →
    pc'.published = true ∨ (pc.atNotify = true ∧ q'.parked = false)

theorem SenderMove.of_same {q q' : Queue T}
    (hseen : q'.seen = q.seen := by rfl) (hparked : q'.parked = q.parked := by rfl)
    (hterm : q'.terminated = q.terminated := by rfl) (hsends : q'.sends = q.sends := by rfl)
    (halive : pc'.alive = pc.alive := by rfl)
    (hclosing : pc'.isClosing = pc.isClosing := by rfl)
    (hpub : pc.published = false := by rfl) : SenderMove pc q pc' q' where
  seen := hseen
  parked := fun h => hparked ▸ h
  alive := halive
  closing := hclosing
  terminated := .inl hterm
  publishes := .inl (congrArg (List.flatMap Prod.snd) hsends)
  keeps := fun h => by
    rw [hpub] at h
    cases h

variable {q q' : Queue T} {me : Thread}

theorem takeSlot_eq_ok {fate : Fate} {slot : Nat} {msg : T}
    (h : q.takeSlot fate slot = .ok (msg, q')) :
    q' = { q.setSlot slot none with taken := q.taken ++ [(fate, msg)] } := by
  obtain ⟨m, -, hm⟩ := bind_eq_ok h
  cases hm
  rfl

theorem sendStep_move {msgs : List T} {pc pc' : SendPc}
    (h : sendStep me msgs q pc = .ok (pc', q')) :
    SenderMove (.inside msgs pc) q (.at msgs pc') q' := by
  cases pc with
  | loadEnd start | reloadStart rawEnd =>
    obtain ⟨used, -, h⟩ := bind_eq_ok h
    dsimp only at h
    split at h
    all_goals
      cases h
      exact .of_same
  | lockReader rawEnd =>
    simp only [sendStep] at h
    split at h
    all_goals
      cases h
      exact .of_same
  | dropOldest rawEnd start toOverwrite i =>
    simp only [sendStep] at h
    split at h
    · obtain ⟨⟨msg, q₁⟩, htake, h⟩ := bind_eq_ok h
      cases h
      rw [takeSlot_eq_ok htake]
      exact .of_same
    · cases h
      exact .of_same
  | copy rawEnd i =>
    simp only [sendStep] at h
    split at h
    · cases h
      exact .of_same
    · cases h
      exact ⟨rfl, id, rfl, rfl, .inl rfl, .inr rfl, (by cases ·)⟩
  | countInput =>
    cases h
    exact ⟨rfl, id, rfl, rfl, .inl rfl, .inl rfl, fun _ => .inl rfl⟩
  | notify =>
    cases h
    exact ⟨rfl, (by cases ·), rfl, rfl, .inl rfl, .inl rfl, fun _ => .inr ⟨rfl, rfl⟩⟩
  | _ =>
    cases h
    exact .of_same

theorem senderStep_move (h : senderStep me q pc = .ok (pc', q')) : SenderMove pc q pc' q' := by
  cases pc with
  | lockWriter msgs =>
    simp only [senderStep] at h
    split at h
    all_goals
      cases h
      exact .of_same
  | inside msgs pc =>
    obtain ⟨⟨pc₁, q₁⟩, hsend, h⟩ := bind_eq_ok h
    cases h
    exact sendStep_move hsend
  | closing pc =>
    cases h
    cases pc with
    | lockReader =>
      simp only [closeStep]
      split <;> exact .of_same
    | setTerminated => exact ⟨rfl, id, rfl, rfl, .inr ⟨rfl, rfl⟩, .inl rfl, (by cases ·)⟩
    | notify => exact ⟨rfl, (by cases ·), rfl, rfl, .inl rfl, .inl rfl, (by cases ·)⟩
    | _ => exact .of_same
  | _ =>
    cases h
    exact .of_same

theorem beginSend_move {q : Queue T} {msgs : List T} {pc : SenderPc T} :
    SenderMove pc q (beginSend q msgs pc) q := by
  cases pc with
  | idle =>
    simp only [beginSend]
    split
    · exact .of_same
    · split
      · exact .of_same
      · exact .of_same
  | inside msgs pc => exact ⟨rfl, id, rfl, rfl, .inl rfl, .inl rfl, .inl⟩
  | _ => exact .of_same

theorem beginSend_published {q : Queue T} {msgs : List T} {pc : SenderPc T}
    (h : pc.atNotify = true) : (beginSend q msgs pc).published = true := by
  cases pc with
  | inside msgs pc =>
    cases pc with
    | notify => rfl
    | _ => cases h
  | _ => cases h

/-! ## The invariant -/

/-- The receiver is about to wait, or is parked. -/
def Awaits (s : State T) : Prop :=
  s.receiver.inWindow = true ∨ (s.receiver.isWaiting = true ∧ s.queue.parked = true)

/-- What prompt runs keep. -/
structure Awake (s : State T) : Prop where
  lastEnd_eq : ∀ e, s.receiver.lastEnd? = some e →
    e = s.queue.seen % (2 * s.queue.size) ∧ s.queue.seen ≤ s.queue.head
  notified : Awaits s → s.queue.sent.length ≠ s.queue.seen →
    ∃ i, (s.senders i).published = true
  ended : s.queue.terminated = true →
    s.receiver.isClosing = true ∨ ∀ i, (s.senders i).alive = false
  closing : ∀ i, (s.senders i).isClosing = true → ∀ j, (s.senders j).alive = false
  handles : ∃ live : Finset Nat, live.card = s.handles ∧
    ∀ i, i ∈ live ↔ (s.senders i).alive = true
  told : s.receiver.saysTerminated = true →
    s.queue.terminated = true ∧ s.queue.head = s.queue.sent.length

theorem published_alive {pc : SenderPc T} (h : pc.published = true) : pc.alive = true := by
  cases pc with
  | inside msgs pc => rfl
  | _ => cases h

theorem saysTerminated_not_closing {pc : RecvPc T} (h : pc.saysTerminated = true) :
    pc.isClosing = false := by
  cases pc with
  | closing pc => cases h
  | _ => rfl

variable {s : State T} {s' : State T} {i : Nat}

theorem setSender_keeps {β : Type} (f : SenderPc T → β) (hf : f pc' = f (s.senders i)) (j : Nat) :
    f ((s.setSender i pc' q').senders j) = f (s.senders j) := by
  simp only [setSender]
  split
  next hj => rw [hj, hf]
  · rfl

theorem setSender_ne {j : Nat} (hj : j ≠ i) : (s.setSender i pc' q').senders j = s.senders j :=
  if_neg hj

theorem not_awaits (h : s.receiver.lastEnd? = none) : ¬ Awaits s := by
  unfold Awaits
  cases hpc : s.receiver with
  | loadTerminated call e | wait call e | waiting call e =>
    rw [hpc] at h
    cases h
  | _ => simp [RecvPc.inWindow, RecvPc.isWaiting]

section

variable (h : Awake s)

include h

theorem Awake.no_sender (hterm : s.queue.terminated = true)
    (hclosing : s.receiver.isClosing = false) (i : Nat) : (s.senders i).alive = false := by
  rcases h.ended hterm with hclosed | hall
  · rw [hclosing] at hclosed
    cases hclosed
  · exact hall i

theorem Awake.sender {pc' : SenderPc T} {q' : Queue T}
    (hmove : SenderMove (s.senders i) s.queue pc' q') (hleaves : Leaves (.sender i) s.queue q')
    (hlaid : q'.Laid) (hprompt : (s.senders i).atNotify = true → pc'.published = false →
      s.receiver.inWindow = true → s.queue.sent.length = s.queue.seen) :
    Awake (s.setSender i pc' q') := by
  have halive := @setSender_keeps T pc' q' s i _ SenderPc.alive hmove.alive
  have hclosing := @setSender_keeps T pc' q' s i _ SenderPc.isClosing hmove.closing
  have hself : (s.setSender i pc' q').senders i = pc' := by simp only [setSender, if_true]
  constructor
  case lastEnd_eq =>
    intro e he
    obtain ⟨heq, hle⟩ := h.lastEnd_eq e he
    change e = q'.seen % (2 * q'.size) ∧ q'.seen ≤ q'.head
    rw [hmove.seen, hleaves.size]
    exact ⟨heq, hle.trans hleaves.head_le⟩
  case notified =>
    intro hawaits hsent
    change q'.sent.length ≠ q'.seen at hsent
    rw [hmove.seen] at hsent
    have hawaits' : Awaits s := hawaits.imp id fun hw => ⟨hw.1, hmove.parked hw.2⟩
    cases hpub : pc'.published with
    | true =>
      refine ⟨i, ?_⟩
      rw [hself]
      exact hpub
    | false =>
      -- nothing new was published, so somebody else has, or this step was the notification
      have hsame : q'.sent = s.queue.sent := by
        rcases hmove.publishes with hsame | hnew
        · exact hsame
        · rw [hpub] at hnew
          cases hnew
      rw [hsame] at hsent
      obtain ⟨j, hj⟩ := h.notified hawaits' hsent
      by_cases hji : j = i
      · rw [hji] at hj
        rcases hmove.keeps hj with hkeep | ⟨hnotify, hwoken⟩
        · rw [hpub] at hkeep
          cases hkeep
        rcases hawaits with hwindow | ⟨-, hparked⟩
        · exact (hsent (hprompt hnotify hpub hwindow)).elim
        · change q'.parked = true at hparked
          rw [hwoken] at hparked
          cases hparked
      · refine ⟨j, ?_⟩
        rw [setSender_ne hji]
        exact hj
  case ended =>
    intro hterm
    change q'.terminated = true at hterm
    rcases hmove.terminated with hsame | ⟨hself, -⟩
    · rw [hsame] at hterm
      refine (h.ended hterm).imp id fun hall j => ?_
      rw [halive]
      exact hall j
    · refine .inr fun j => ?_
      rw [halive]
      exact h.closing i hself j
  case closing =>
    intro j hj k
    rw [hclosing] at hj
    rw [halive]
    exact h.closing j hj k
  case handles =>
    obtain ⟨live, hcard, hlive⟩ := h.handles
    refine ⟨live, hcard, fun j => ?_⟩
    rw [halive]
    exact hlive j
  case told =>
    intro hterminal
    obtain ⟨hterm, hempty⟩ := h.told hterminal
    have hdead := h.no_sender hterm (saysTerminated_not_closing hterminal) i
    have hsame : q'.sent = s.queue.sent := by
      rcases hmove.publishes with hsame | hnew
      · exact hsame
      · have hlive := published_alive hnew
        rw [hmove.alive, hdead] at hlive
        cases hlive
    have hhead := hleaves.head_le
    have hle := hlaid.head_le.trans hlaid.taken_le
    change q'.terminated = true ∧ q'.head = q'.sent.length
    rw [hsame] at hle ⊢
    refine ⟨?_, by omega⟩
    rcases hmove.terminated with heq | ⟨-, heq⟩
    · rw [heq]
      exact hterm
    · exact heq

theorem Awake.outside {pc' : RecvPc T} {q' : Queue T} (hlast : pc'.lastEnd? = none)
    (hterminal : pc'.saysTerminated = false)
    (hclosing : s.receiver.isClosing = true → pc'.isClosing = true)
    (hterm : q'.terminated = s.queue.terminated ∨ pc'.isClosing = true) :
    Awake (s.setReceiver pc' q') where
  lastEnd_eq := by
    intro e he
    change pc'.lastEnd? = some e at he
    rw [hlast] at he
    cases he
  notified hawaits := absurd hawaits (not_awaits hlast)
  ended := by
    intro hend
    change q'.terminated = true at hend
    rcases hterm with hsame | hnow
    · rw [hsame] at hend
      exact (h.ended hend).imp hclosing id
    · exact .inl hnow
  closing := h.closing
  handles := h.handles
  told := by
    intro htold
    change pc'.saysTerminated = true at htold
    rw [hterminal] at htold
    cases htold

theorem Awake.looking {pc' : RecvPc T} {q' : Queue T} (hlast : pc'.lastEnd? = s.receiver.lastEnd?)
    (hterminal : pc'.saysTerminated = false) (hclosing : s.receiver.isClosing = false)
    (hsize : q'.size = s.queue.size) (hseen : q'.seen = s.queue.seen)
    (hhead : q'.head = s.queue.head) (hsent : q'.sent = s.queue.sent)
    (hterm : q'.terminated = s.queue.terminated)
    (hawaits : Awaits (s.setReceiver pc' q') → Awaits s) : Awake (s.setReceiver pc' q') where
  lastEnd_eq := by
    intro e he
    change pc'.lastEnd? = some e at he
    change e = q'.seen % (2 * q'.size) ∧ q'.seen ≤ q'.head
    rw [hlast] at he
    rw [hseen, hsize, hhead]
    exact h.lastEnd_eq e he
  notified := by
    intro haw hne
    change q'.sent.length ≠ q'.seen at hne
    rw [hsent, hseen] at hne
    exact h.notified (hawaits haw) hne
  ended := by
    intro hend
    change q'.terminated = true at hend
    rw [hterm] at hend
    exact .inr (h.no_sender hend hclosing)
  closing := h.closing
  handles := h.handles
  told := by
    intro htold
    change pc'.saysTerminated = true at htold
    rw [hterminal] at htold
    cases htold

theorem Awake.nothing_new {call : RecvCall} {e : Nat} (hclosing : s.receiver.isClosing = false)
    (hend : e = s.queue.sent.length % (2 * s.queue.size))
    (hempty : s.queue.sent.length ≤ s.queue.head) :
    Awake (s.setReceiver (.loadTerminated call e)
      { s.queue with seen := s.queue.sent.length }) where
  lastEnd_eq := by
    intro e' he'
    cases he'
    exact ⟨hend, hempty⟩
  notified := by
    intro _ hne
    exact (hne rfl).elim
  ended hterm := .inr (h.no_sender hterm hclosing)
  closing := h.closing
  handles := h.handles
  told := by
    intro htold
    cases htold

omit h in
/-- What a step of the receiver does to what it waits for: it is elsewhere; it
goes on with the same `end`; it has looked and found the `end` of before, or
nothing between `start` and `end`; it is told that the queue has ended. -/
theorem recvStep_move {pc pc' : RecvPc T} (h : recvStep q pc = .ok (pc', q')) :
    (pc'.lastEnd? = none ∧ pc'.saysTerminated = false ∧
      (pc.isClosing = true → pc'.isClosing = true) ∧
      (q'.terminated = q.terminated ∨ pc'.isClosing = true)) ∨
    (pc'.lastEnd? = pc.lastEnd? ∧ pc'.saysTerminated = false ∧ pc.isClosing = false ∧
      q' = { q with readerLock := q'.readerLock, parked := q'.parked } ∧
      (pc'.inWindow = true ∨ (pc'.isWaiting = true ∧ q'.parked = true) →
        pc.inWindow = true ∨ (pc.isWaiting = true ∧ q.parked = true))) ∨
    (∃ call start, (pc = .loadEnd call start ∧ start = q.endIndex ∨
        pc = .reloadEnd call q.endIndex start) ∧
      pc' = .loadTerminated call q.endIndex ∧ q' = { q with seen := q.sent.length }) ∨
    ((∃ call e, pc = .loadTerminated call e) ∧ q.terminated = true ∧
      pc' = .unlockReader .terminated ∧ q' = q) := by
  cases pc with
  | idle | loadStart call =>
    cases h
    exact .inl ⟨rfl, rfl, id, .inl rfl⟩
  | lockReader call =>
    simp only [recvStep] at h
    split at h
    all_goals
      cases h
      exact .inl ⟨rfl, rfl, id, .inl rfl⟩
  | loadEnd call start =>
    simp only [recvStep] at h
    split at h
    next hempty =>
      cases h
      exact .inr (.inr (.inl ⟨call, start, .inl ⟨rfl, hempty⟩, rfl, rfl⟩))
    · obtain ⟨pending, -, h⟩ := bind_eq_ok h
      cases h
      exact .inl ⟨rfl, rfl, (by cases ·), .inl rfl⟩
  | loadTerminated call e =>
    simp only [recvStep] at h
    split at h
    next hterm =>
      cases h
      exact .inr (.inr (.inr ⟨⟨call, e, rfl⟩, hterm, rfl, rfl⟩))
    · cases h
      exact .inr (.inl ⟨rfl, rfl, rfl, rfl, fun _ => .inl rfl⟩)
  | wait call e =>
    cases h
    exact .inr (.inl ⟨rfl, rfl, rfl, rfl, fun _ => .inl rfl⟩)
  | waiting call e =>
    simp only [recvStep] at h
    split at h
    · cases h
      refine .inr (.inl ⟨rfl, rfl, rfl, rfl, ?_⟩)
      rintro (hwindow | ⟨hwaiting, -⟩)
      · cases hwindow
      · cases hwaiting
    · cases h
      exact .inr (.inl ⟨rfl, rfl, rfl, rfl, id⟩)
  | reloadStart call e =>
    cases h
    refine .inr (.inl ⟨rfl, rfl, rfl, rfl, ?_⟩)
    rintro (hwindow | ⟨hwaiting, -⟩)
    · cases hwindow
    · cases hwaiting
  | reloadEnd call e start =>
    simp only [recvStep] at h
    split at h
    next hsame =>
      cases h
      rw [hsame]
      exact .inr (.inr (.inl ⟨call, start, .inr rfl, rfl, rfl⟩))
    · obtain ⟨pending, -, h⟩ := bind_eq_ok h
      cases h
      exact .inl ⟨rfl, rfl, (by cases ·), .inl rfl⟩
  | copy start recvCount i buf =>
    simp only [recvStep] at h
    split at h
    · obtain ⟨⟨msg, q₁⟩, htake, h⟩ := bind_eq_ok h
      cases h
      rw [takeSlot_eq_ok htake]
      exact .inl ⟨rfl, rfl, (by cases ·), .inl rfl⟩
    · cases h
      exact .inl ⟨rfl, rfl, (by cases ·), .inl rfl⟩
  | closing pc =>
    cases h
    exact .inl ⟨rfl, rfl, id, .inr rfl⟩
  | _ =>
    cases h
    exact .inl ⟨rfl, rfl, (by cases ·), .inl rfl⟩

theorem Awake.receiver (hholds : (outline T).Holds s)
    (hprompt : prompt s .receiver = true) (hok : step s .receiver = .ok s') : Awake s' := by
  obtain ⟨⟨pc', q'⟩, hrecv, hs'⟩ := bind_eq_ok hok
  cases hs'
  have hlaid := hholds.1.laid
  have hown : RecvOwn s.queue s.receiver := hholds.2 .receiver
  have hle := hlaid.head_le.trans hlaid.taken_le
  rcases recvStep_move hrecv with hout | hlook | ⟨call, start, hpc, rfl, rfl⟩ |
    ⟨⟨call, e, hpc⟩, hterm, rfl, rfl⟩
  · obtain ⟨hlast, hterminal, hclosing, hend⟩ := hout
    exact h.outside hlast hterminal hclosing hend
  · obtain ⟨hlast, hterminal, hclosing, hq', hawaits⟩ := hlook
    rw [hq'] at hawaits ⊢
    exact h.looking hlast hterminal hclosing rfl rfl rfl rfl rfl hawaits
  · rcases hpc with ⟨hpc, hstart⟩ | hpc
    · -- the first look: nothing between `start` and `end`
      rw [hpc] at hown
      have hempty : s.queue.head = s.queue.sent.length :=
        hlaid.index_eq_iff.mp (hown.asserts.2.symm.trans hstart)
      exact h.nothing_new (by rw [hpc]; rfl) hlaid.end_eq hempty.ge
    -- a later look: the same index, hence the same position
    obtain ⟨hsame, hhead⟩ := h.lastEnd_eq s.queue.endIndex (by rw [hpc]; rfl)
    rw [hlaid.end_eq] at hsame
    have hnew : s.queue.sent.length = s.queue.seen := by
      simp only [prompt, hpc, RecvPc.atReload, Bool.not_true, Bool.false_or, Bool.or_eq_true,
        beq_iff_eq, bne_iff_ne] at hprompt
      rcases hprompt with heq | hmod
      · exact heq
      · exact (hmod (Nat.sub_mod_eq_zero_of_mod_eq hsame)).elim
    exact h.nothing_new (by rw [hpc]; rfl) hlaid.end_eq (by omega)
  · have hall := h.no_sender hterm (by rw [hpc]; rfl)
    have hnew : s.queue.sent.length = s.queue.seen := by
      by_contra hne
      obtain ⟨i, hi⟩ := h.notified (.inl (by rw [hpc]; rfl)) hne
      have hlive := published_alive hi
      rw [hall i] at hlive
      cases hlive
    obtain ⟨-, hhead⟩ := h.lastEnd_eq e (by rw [hpc]; rfl)
    have hempty : s.queue.head = s.queue.sent.length := by omega
    exact ⟨(by intro e' he'; cases he'), fun hawaits => absurd hawaits (not_awaits rfl),
      fun _ => .inr hall, h.closing, h.handles, fun _ => ⟨hterm, hempty⟩⟩

/-! ## Senders come and go -/

theorem Awake.clone (i j : Nat) : Awake (s.clone i j) := by
  unfold State.clone
  split
  next habsent =>
    split
    next hi =>
      have hsome : ¬ ∀ k, (s.senders k).alive = false := by
        intro hall
        rw [hall i] at hi
        cases hi
      refine ⟨h.lastEnd_eq, ?_, ?_, ?_, ?_, h.told⟩
      · intro hawaits hsent
        obtain ⟨k, hk⟩ := h.notified hawaits hsent
        refine ⟨k, ?_⟩
        rw [setSender_keeps SenderPc.published (by rw [habsent]; rfl)]
        exact hk
      · intro hterm
        exact (h.ended hterm).imp id fun hall => (hsome hall).elim
      · intro k hk
        rw [setSender_keeps SenderPc.isClosing (by rw [habsent]; rfl)] at hk
        exact (hsome (h.closing k hk)).elim
      · obtain ⟨live, hcard, hlive⟩ := h.handles
        have hj : j ∉ live := by
          rw [hlive j, habsent]
          simp [SenderPc.alive]
        refine ⟨insert j live, ?_, fun k => ?_⟩
        · rw [card_insert_of_notMem hj, hcard]
        rw [mem_insert, hlive k]
        simp only [setSender]
        by_cases hkj : k = j
        · simp [hkj, SenderPc.alive]
        · simp [hkj]
    · exact h
  · exact h

theorem Awake.dropTo (hidle : s.senders i = .idle) {pc' : SenderPc T}
    (halive : pc'.alive = false) (hlast : pc'.isClosing = true → s.handles = 1) :
    Awake { s.setSender i pc' s.queue with handles := s.handles - 1 } := by
  obtain ⟨live, hcard, hlive⟩ := h.handles
  have hi : i ∈ live := by
    rw [hlive i, hidle]
    rfl
  have hdead : ∀ k, (s.senders k).alive = false →
      ((s.setSender i pc' s.queue).senders k).alive = false := by
    intro k hk
    simp only [setSender]
    split
    · exact halive
    · exact hk
  refine ⟨h.lastEnd_eq, ?_, ?_, ?_, ?_, h.told⟩
  · intro hawaits hsent
    obtain ⟨k, hk⟩ := h.notified hawaits hsent
    refine ⟨k, ?_⟩
    have hki : k ≠ i := by
      intro heq
      rw [heq, hidle] at hk
      cases hk
    rw [setSender_ne hki]
    exact hk
  · intro hterm
    exact (h.ended hterm).imp id fun hall k => hdead k (hall k)
  · intro k hk j
    by_cases hki : k = i
    · -- the last handle goes, and no sender is left
      rw [hki] at hk
      simp only [setSender, if_true] at hk
      have hone : live = {i} := by
        obtain ⟨x, hx⟩ := card_eq_one.mp (hcard.trans (hlast hk))
        rw [hx, mem_singleton] at hi
        rw [hx, hi]
      by_cases hji : j = i
      · simp only [setSender, hji, if_true]
        exact halive
      rw [setSender_ne hji]
      cases hj : (s.senders j).alive with
      | false => rfl
      | true =>
        have hmem := (hlive j).mpr hj
        rw [hone, mem_singleton] at hmem
        exact (hji hmem).elim
    · rw [setSender_ne hki] at hk
      exact hdead j (h.closing k hk j)
  · refine ⟨live.erase i, ?_, fun k => ?_⟩
    · rw [card_erase_of_mem hi, hcard]
    rw [mem_erase, hlive k]
    by_cases hki : k = i
    · simp [hki, setSender, halive]
    · simp [hki, setSender]

theorem Awake.dropSender (i : Nat) : Awake (s.dropSender i) := by
  unfold State.dropSender
  split
  next hidle =>
    split_ifs with hlast
    · exact h.dropTo hidle rfl fun _ => hlast
    · exact h.dropTo hidle rfl nofun
  · exact h

theorem Awake.begin (call : RecvCall) : Awake (s.setReceiver (s.receiver.begin call) s.queue) := by
  cases hpc : s.receiver with
  | idle => exact h.outside rfl rfl (by rw [hpc]; exact id) (.inl rfl)
  | _ =>
    simp only [RecvPc.begin, ← hpc]
    exact h

theorem Awake.drop : Awake (s.setReceiver s.receiver.drop s.queue) := by
  cases hpc : s.receiver with
  | idle => exact h.outside rfl rfl (fun _ => rfl) (.inl rfl)
  | _ =>
    simp only [RecvPc.drop, ← hpc]
    exact h

theorem Awake.timeUp : Awake (s.setReceiver s.receiver.timeUp s.queue) := by
  cases hpc : s.receiver with
  | wait call e =>
    simp only [RecvPc.timeUp]
    split
    · exact h.outside rfl rfl (by rw [hpc]; exact id) (.inl rfl)
    · rw [← hpc]
      exact h
  | _ =>
    simp only [RecvPc.timeUp, ← hpc]
    exact h

theorem Awake.wakeSpuriously :
    Awake (s.setReceiver s.receiver { s.queue with parked := false }) := by
  refine ⟨h.lastEnd_eq, ?_, h.ended, h.closing, h.handles, h.told⟩
  rintro (hwindow | ⟨-, hparked⟩)
  · exact h.notified (.inl hwindow)
  · cases hparked

/-! ## Prompt runs -/

/-- **A prompt step** keeps the invariant. -/
theorem Awake.step (hholds : (outline T).Holds s) {a : Action T}
    (hprompt : prompt s a = true) (hok : step s a = .ok s') : Awake s' := by
  obtain ⟨hshared, hown⟩ := hholds
  cases a with
  | send i msgs =>
    cases hok
    refine h.sender (beginSend_move) (.refl _ _) hshared.laid ?_
    intro hnotify hpub _
    rw [beginSend_published hnotify] at hpub
    cases hpub
  | sender i =>
    obtain ⟨pc', q', hsend, hpost⟩ := senderStep_post hshared (hown (.sender i))
    simp only [OverwriteQueue.step, hsend, ok_bind] at hok
    cases hok
    refine h.sender (senderStep_move hsend) hpost.leaves hpost.shared.laid ?_
    intro hnotify _ hwindow
    simpa [prompt, hnotify, hwindow] using hprompt
  | clone i j =>
    cases hok
    exact h.clone i j
  | dropSender i =>
    cases hok
    exact h.dropSender i
  | recv call =>
    cases hok
    exact h.begin call
  | receiver => exact h.receiver ⟨hshared, hown⟩ hprompt hok
  | timeUp =>
    cases hok
    exact h.timeUp
  | wakeSpuriously =>
    cases hok
    exact h.wakeSpuriously
  | dropReceiver =>
    cases hok
    exact h.drop

omit h in
theorem bounded_awake (size : Nat) : Awake (bounded size : State T) := by
  have halive : ∀ i, ((bounded size : State T).senders i).alive = true ↔ i = 0 := by
    intro i
    simp only [bounded]
    by_cases hi : i = 0 <;> simp [hi, SenderPc.alive]
  refine ⟨(by intro e he; cases he), fun hawaits => absurd hawaits (not_awaits rfl),
    (by intro hterm; cases hterm), ?_, ?_, (by cases ·)⟩
  · intro i hi
    simp only [bounded] at hi
    split at hi
    · cases hi
    · cases hi
  · refine ⟨{0}, rfl, fun i => ?_⟩
    rw [halive, mem_singleton]

omit h in
theorem head_lt_of_buffered {q : Queue T} (h : q.Laid) (hne : q.buffered ≠ []) :
    q.head < q.sent.length := by
  have hlength := Queue.length_buffered h
  have hpos := List.length_pos_of_ne_nil hne
  have hhead := h.head_le
  omega

theorem Awake.no_failure (hholds : (outline T).Holds s) : ¬ Stranded s ∧ ¬ EndsEarly s := by
  have hlaid := hholds.1.laid
  constructor
  · rintro ⟨hbuffered, hwaiting, hparked, hquiet⟩
    have hlive := head_lt_of_buffered hlaid hbuffered
    obtain ⟨e, he⟩ : ∃ e, s.receiver.lastEnd? = some e := by
      cases hpc : s.receiver with
      | waiting call e => exact ⟨e, rfl⟩
      | _ =>
        rw [hpc] at hwaiting
        cases hwaiting
    obtain ⟨-, hseen⟩ := h.lastEnd_eq e he
    obtain ⟨i, hi⟩ := h.notified (.inr ⟨hwaiting, hparked⟩) (by omega)
    have hnone := hquiet i
    have hwill : (s.senders i).willNotify = true := by
      cases hpc : s.senders i with
      | inside msgs pc =>
        rw [hpc] at hi
        exact hi
      | _ =>
        rw [hpc] at hi
        cases hi
    rw [hnone] at hwill
    cases hwill
  · rintro ⟨hbuffered, hterminal⟩
    have hlive := head_lt_of_buffered hlaid hbuffered
    have hempty := (h.told hterminal).2
    omega

end

/-- **Prompt runs lose no wakeup and end only when empty.** -/
theorem prompt_runs_wake (size : Nat) (acts : List (Action T))
    (h : StepsObey step (fun s a => prompt s a = true) (bounded size) acts) :
    StatesHold step (fun s => ¬ Stranded s ∧ ¬ EndsEarly s) (bounded size) acts := by
  have hrun : StatesHold step (fun s => (outline T).Holds s ∧ Awake s) (bounded size)
      acts := by
    refine statesHold_of_invariant ?_ ⟨bounded_holds size, bounded_awake size⟩ h
    rintro s a ⟨hholds, hawake⟩ hprompt
    obtain ⟨s', hok, hholds'⟩ := (outline T).step_holds hholds a
    exact ⟨s', hok, hholds', hawake.step hholds hprompt hok⟩
  exact hrun.mono fun s hs => hs.2.no_failure hs.1

/-- The steps of a batch of one message into a queue with room. -/
def sendOne (i : Nat) (msg : T) : List (Action T) :=
  .send i [msg] :: List.replicate 8 (.sender i)

def lookOnce (T : Type) : List (Action T) :=
  [.recv ⟨false, 1⟩, .receiver, .receiver, .receiver]

/-- A receiver parks, is woken by a message, and takes it. -/
def promptRun : List (Action Nat) :=
  lookOnce Nat ++ [.receiver, .receiver] ++ sendOne 0 7 ++ List.replicate 7 .receiver

theorem prompt_runs_wake_one :
    StatesHold step (fun s => ¬ Stranded s ∧ ¬ EndsEarly s) (bounded 1) promptRun :=
  prompt_runs_wake 1 promptRun (stepsObey_of_check (fun _ _ h => h) (by decide +kernel))

theorem willNotify_eq_false (h : (outline T).Holds s) (hreader : s.queue.readerLock = none)
    (hwriter : s.queue.writerLock = none) (i : Nat) : (s.senders i).willNotify = false := by
  have hsender : SenderOwn (.sender i) s.queue (s.senders i) := h.2 (.sender i)
  have hw := hsender.writer_iff
  have hr := hsender.reader_iff
  rw [hwriter] at hw
  rw [hreader] at hr
  cases hpc : s.senders i with
  | inside msgs pc =>
    rw [hpc] at hw
    cases hw.mpr rfl
  | closing pc =>
    cases pc with
    | notify =>
      rw [hpc] at hr
      cases hr.mpr rfl
    | _ => rfl
  | _ => rfl

/-- The notification falls between the receiver's look and its wait. -/
def windowRun : List (Action Nat) :=
  lookOnce Nat ++ sendOne 0 7 ++ [.receiver, .receiver]

/-- Two messages go through a queue of one slot while the receiver waits, and
then the sender is dropped. -/
def lapRun : List (Action Nat) :=
  lookOnce Nat ++ [.receiver, .receiver] ++ sendOne 0 7 ++
    .send 0 [8] :: List.replicate 14 (.sender 0) ++
    .dropSender 0 :: List.replicate 4 (.sender 0) ++ List.replicate 4 .receiver

def isStranded (s : State Nat) : Bool :=
  s.queue.buffered == [7] && s.receiver.isWaiting && s.queue.parked &&
    s.queue.readerLock == none && s.queue.writerLock == none

def endsEarly (s : State Nat) : Bool :=
  s.queue.buffered == [8] && s.receiver.saysTerminated

theorem wakeup_lost :
    (∃ s, run step (bounded 1) windowRun = .ok s ∧ Stranded s) ∧
      ∃ s, run step (bounded 1) lapRun = .ok s ∧ EndsEarly s := by
  constructor
  · obtain ⟨s, hrun, htest⟩ := eq_ok_of_delivers
      (by decide +kernel : delivers (run step (bounded 1) windowRun) isStranded = true)
    obtain ⟨s₁, hrun₁, hholds⟩ := ((outline Nat).statesHold (bounded_holds 1) windowRun).run_ok
    rw [hrun] at hrun₁
    cases hrun₁
    simp only [isStranded, Bool.and_eq_true, beq_iff_eq] at htest
    obtain ⟨⟨⟨⟨hbuffered, hwaiting⟩, hparked⟩, hreader⟩, hwriter⟩ := htest
    refine ⟨s, hrun, ?_, hwaiting, hparked, willNotify_eq_false hholds hreader hwriter⟩
    rw [hbuffered]
    exact List.cons_ne_nil _ _
  · obtain ⟨s, hrun, htest⟩ := eq_ok_of_delivers
      (by decide +kernel : delivers (run step (bounded 1) lapRun) endsEarly = true)
    simp only [endsEarly, Bool.and_eq_true, beq_iff_eq] at htest
    refine ⟨s, hrun, ?_, htest.2⟩
    rw [htest.1]
    exact List.cons_ne_nil _ _

end ZeroTrace.OverwriteQueue
