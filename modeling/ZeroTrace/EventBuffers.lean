import Mathlib.Data.Nat.Bits
import Mathlib.Data.List.Perm.Basic

/-!
# A queue of events with two buffers

A send reads which buffer is active and then takes the lock of that one; a drain flips
the two and then empties the one that was active.  Between the two halves of a call any
other call may come, so a send may land in a buffer that is active no more.

No event is lost or delivered twice by that.  Two drains behind all sends empty both
buffers if one took each, that is, if an even number of drains flipped between them.
-/

namespace ZeroTrace.EventQueue

open List Function

/-- The queue and the calls on their way: sends with the buffer they read, and drains with
the one they found, numbered in the order of their flips.  `results` are by these numbers.
`since` is the number of flips when the last send returned, and `sent` all that was sent. -/
structure Events (T : Type) where
  active : Bool := false
  buffers : Bool → List T := fun _ => []
  sends : List (Bool × List T) := []
  drains : List (Nat × Bool) := []
  results : List (Nat × List T) := []
  flips : Nat := 0
  since : Nat := 0
  sent : List T := []

/-- The halves of the calls. -/
inductive Step (T : Type) where
  | send (events : List T)
  | push (i : Nat)
  | drain
  | take (i : Nat)

variable {T : Type}

namespace Events

variable (s : Events T)

/-- A send pushes to the buffer that it read, and returns. -/
def push (i : Nat) (call : Bool × List T) : Events T :=
  { s with
    buffers := update s.buffers call.1 (s.buffers call.1 ++ call.2)
    sends := s.sends.eraseIdx i
    since := s.flips }

/-- A drain takes the buffer that was active, and returns. -/
def take (i : Nat) (call : Nat × Bool) : Events T :=
  { s with
    buffers := update s.buffers call.2 []
    drains := s.drains.eraseIdx i
    results := s.results ++ [(call.1, s.buffers call.2)] }

def step : Step T → Events T
  | .send events =>
    { s with sends := s.sends ++ [(s.active, events)], sent := s.sent ++ events }
  | .push i => s.sends[i]?.elim s (s.push i)
  | .drain =>
    { s with
      active := !s.active
      drains := s.drains ++ [(s.flips, s.active)]
      flips := s.flips + 1 }
  | .take i => s.drains[i]?.elim s (s.take i)

def held : List T :=
  s.results.flatMap Prod.snd ++ s.buffers false ++ s.buffers true ++ s.sends.flatMap Prod.snd

/-- Two drains that began when all sends had returned, and that took both buffers, have
left both empty. -/
def Emptied : Prop :=
  s.sends = [] → ∀ d ∈ s.results, ∀ d' ∈ s.results, s.since ≤ d.1 → s.since ≤ d'.1 →
    d.1.bodd ≠ d'.1.bodd → ∀ i, s.buffers i = []

/-- A drain empties the buffer that its number says, and it stays empty until something
is pushed. -/
structure Sound : Prop where
  active : s.active = s.flips.bodd
  drains : ∀ d ∈ s.drains, d.1 < s.flips ∧ d.2 = d.1.bodd
  results : ∀ d ∈ s.results, d.1 < s.flips ∧ (s.since ≤ d.1 → s.buffers d.1.bodd = [])
  held : s.held.Perm s.sent

variable {s} {i : Nat}

theorem held_push {call : Bool × List T} (h : s.sends[i]? = some call) :
    (s.push i call).held.Perm s.held := by
  classical
  obtain ⟨hi, rfl⟩ := List.getElem?_eq_some_iff.mp h
  rw [perm_iff_count]
  intro event
  have hsends := ((getElem_cons_eraseIdx_perm hi).flatMap_right Prod.snd).count_eq event
  cases htarget : s.sends[i].1 <;>
    simp only [flatMap_cons, count_append, held, push, htarget, update_self, ne_eq,
      reduceCtorEq, not_false_eq_true, update_of_ne] at hsends ⊢ <;> omega

theorem held_take (call : Nat × Bool) : (s.take i call).held.Perm s.held := by
  classical
  rw [perm_iff_count]
  intro event
  cases hprev : call.2 <;> simp [held, take, hprev, Nat.add_comm, Nat.add_left_comm]

theorem Sound.step (h : s.Sound) (a : Step T) : (s.step a).Sound := by
  have hlater : ∀ {k}, k < s.flips → k < s.flips + 1 := fun hk => Nat.lt_succ_of_lt hk
  cases a with
  | send events =>
    refine ⟨h.active, h.drains, h.results, ?_⟩
    have hheld : (s.step (.send events)).held = s.held ++ events := by
      simp [Events.step, Events.held]
    rw [hheld]
    exact h.held.append_right events
  | drain =>
    refine ⟨by simp [Events.step, h.active], forall_mem_append.mpr ⟨fun d hd => ?_, ?_⟩,
      fun d hd => ⟨hlater (h.results d hd).1, (h.results d hd).2⟩, h.held⟩
    · exact ⟨hlater (h.drains d hd).1, (h.drains d hd).2⟩
    · simp [Events.step, h.active]
  | push i =>
    rw [Events.step]
    cases hcall : s.sends[i]? with
    | none => exact h
    | some call =>
      -- no drain that has returned began behind this send
      exact ⟨h.active, h.drains, fun d hd => ⟨(h.results d hd).1, fun hle =>
        absurd (h.results d hd).1 (Nat.not_lt.mpr hle)⟩, (held_push hcall).trans h.held⟩
  | take i =>
    rw [Events.step]
    cases hcall : s.drains[i]? with
    | none => exact h
    | some call =>
      obtain ⟨hlt, hprev⟩ := h.drains call (mem_of_getElem? hcall)
      refine ⟨h.active, fun d hd => h.drains d (mem_of_mem_eraseIdx hd),
        forall_mem_append.mpr ⟨fun d hd => ⟨(h.results d hd).1, fun hle => ?_⟩, ?_⟩,
        (held_take call).trans h.held⟩
      · have hempty := (h.results d hd).2 hle
        by_cases hsame : d.1.bodd = call.2 <;> simp [Events.take, update, hsame, hempty]
      · simp [Events.take, hlt, ← hprev]

theorem Sound.emptied (h : s.Sound) : s.Emptied := by
  intro _ d hd d' hd' hle hle' hne i
  have hempty := (h.results d hd).2 hle
  have hempty' := (h.results d' hd').2 hle'
  by_cases hi : i = d.1.bodd
  · rw [hi, hempty]
  have hi' : i = d'.1.bodd := by
    revert hi hne
    cases i <;> cases d.1.bodd <;> cases d'.1.bodd <;> decide
  rw [hi', hempty']

end Events

inductive Call (T : Type) where
  | send (events : List T)
  | drain

def Call.steps : Call T → List (Step T)
  | send events => [.send events, .push 0]
  | drain => [.drain, .take 0]

/-- What calls return if each drain returns what was sent since the one before. -/
def drained (pending : List T) : List (Call T) → List (List T)
  | [] => []
  | .send events :: calls => drained (pending ++ events) calls
  | .drain :: calls => pending :: drained [] calls

theorem results_foldl {s : Events T} {pending : List T} (calls : List (Call T))
    (hsends : s.sends = []) (hdrains : s.drains = []) (hactive : s.buffers s.active = pending)
    (hother : s.buffers (!s.active) = []) :
    ((calls.flatMap Call.steps).foldl Events.step s).results.map Prod.snd =
      s.results.map Prod.snd ++ drained pending calls := by
  induction calls generalizing s pending with
  | nil => exact (append_nil _).symm
  | cons call calls ih =>
    rw [flatMap_cons, foldl_append]
    cases call with
    | send events | drain =>
      refine (ih ?_ ?_ rfl ?_).trans ?_ <;> simp [Call.steps, Events.step, Events.push,
        Events.take, hsends, hdrains, hactive, hother, drained]

/-- **Events of a queue.**  However the halves of the calls are interleaved, every event
that was sent is in one result, in a buffer or with its sender; two drains behind all sends
that took one buffer each leave none; and without concurrency each drain returns what was
sent since the one before, in order. -/
theorem events_conserved (steps : List (Step T)) (calls : List (Call T)) :
    (steps.foldl Events.step {}).held.Perm (steps.foldl Events.step {}).sent ∧
      (steps.foldl Events.step {}).Emptied ∧
      ((calls.flatMap Call.steps).foldl Events.step {}).results.map Prod.snd =
        drained [] calls := by
  have hnew : ({} : Events T).Sound := ⟨by simp, by simp, by simp, Perm.nil⟩
  have hsound : (steps.foldl Events.step {}).Sound :=
    foldlRecOn steps Events.step hnew fun s hs a _ => hs.step a
  exact ⟨hsound.held, hsound.emptied, results_foldl calls rfl rfl rfl rfl⟩

/-- Three drains behind all sends, of which the second has not returned yet: the other two
have taken the same buffer, and the event is in the other one. -/
theorem two_drains_leave_event :
    let s := [.send [7], .drain, .take 0, .push 0, .drain, .drain, .drain, .take 0, .take 1].foldl
      Events.step ({} : Events Nat)
    s.sends = [] ∧ s.since = 1 ∧ s.results = [(0, []), (1, []), (3, [])] ∧
      s.buffers false = [7] := by
  decide

end ZeroTrace.EventQueue
