import Mathlib.Data.List.Basic

/-!
# The commands of systems

A system pushes commands into a queue of the world.  `run` applies them after
every exclusive or sync system that returns Ok and clears them after one that
fails.  `run_async` does the latter after async systems too, but not the former:
the commands of an async system that returns Ok stay in the queue for whatever
runs next.

A trace records when systems start and when commands are applied.  It is as it
should be if behind every start there are exactly the commands of that system.
-/

namespace ZeroTrace.Scheduler

open List

/-- One execution of a system: what it pushes and whether it returns Ok. -/
structure System (C : Type) where
  pushes : List C
  ok : Bool
  deriving DecidableEq

inductive Event (C : Type) where
  | started (system : System C)
  | applied (command : C)
  deriving DecidableEq

structure World (C : Type) where
  buffer : List C := []
  trace : List (Event C) := []

variable {C : Type} {s : System C}

namespace World

variable (w : World C)

def execute (s : System C) : World C :=
  ⟨w.buffer ++ s.pushes, w.trace ++ [.started s]⟩

def clearCommands : World C := { w with buffer := [] }

def applyCommands : World C := ⟨[], w.trace ++ w.buffer.map .applied⟩

end World

/-- What follows is done unless there was an error. -/
def andThen (r : World C × Bool) (next : World C → World C × Bool) : World C × Bool :=
  if r.2 then next r.1 else r

/-- Systems one after the other, up to one that fails; `after` is what is done behind
one that returns Ok. -/
def runSystems (after : World C → World C) : List (System C) → World C → World C × Bool
  | [], w => (w, true)
  | s :: systems, w =>
    if s.ok then runSystems after systems (after (w.execute s))
    else ((w.execute s).clearCommands, false)

/-- The stages of `run`, each in the order that `resolve_ordering` leaves it in: where the
constraints have a cycle, that is the order of registration. -/
def runStages : List (List (System C)) → World C → World C × Bool
  | [], w => (w, true)
  | systems :: stages, w =>
    andThen (runSystems World.applyCommands systems w) (runStages stages)

/-- What is to be executed in a call: the systems that are enabled. -/
structure Schedule (C : Type) where
  exclusive : List (System C)
  stages : List (List (System C))
  asyncStages : List (List (System C))

def run (schedule : Schedule C) (w : World C) : World C × Bool :=
  andThen (runSystems World.applyCommands schedule.exclusive w) (runStages schedule.stages)

def runAsync (schedule : Schedule C) (w : World C) : World C × Bool :=
  andThen (run schedule w) (runSystems id schedule.asyncStages.flatten)

inductive Call (C : Type) where
  | run (schedule : Schedule C)
  | runAsync (schedule : Schedule C)

def Call.outcome (w : World C) : Call C → World C
  | .run schedule => (Scheduler.run schedule w).1
  | .runAsync schedule => (Scheduler.runAsync schedule w).1

/-- No async system that returns Ok has pushed a command. -/
def Call.Quiet : Call C → Prop
  | .run _ => True
  | .runAsync schedule =>
    ∀ s ∈ schedule.asyncStages.flatten, s.ok = true → s.pushes = []

/-! ### In time -/

def Event.system? : Event C → Option (System C)
  | .started s => some s
  | .applied _ => none

/-- A start, with the commands that are to be applied behind it. -/
def System.events (s : System C) : List (Event C) :=
  .started s :: if s.ok then s.pushes.map .applied else []

/-- No command is left over, and behind the start of a system there are its commands in the
order in which it pushed them, each once, if it returned Ok, and none if it did not. -/
structure InTime (w : World C) : Prop where
  empty : w.buffer = []
  trace : w.trace = (w.trace.filterMap Event.system?).flatMap System.events

theorem System.events_systems (s : System C) : s.events.filterMap Event.system? = [s] := by
  have hnone : (s.pushes.map Event.applied).filterMap Event.system? = [] := by
    rw [filterMap_map]
    exact filterMap_eq_nil_iff.mpr fun _ _ => rfl
  unfold System.events
  split
  · exact congrArg (s :: ·) hnone
  · rfl

section Runs

variable {w : World C}

theorem InTime.concat (h : InTime w) (s : System C) : InTime ⟨[], w.trace ++ s.events⟩ := by
  refine ⟨rfl, ?_⟩
  rw [filterMap_append, s.events_systems, flatMap_append, ← h.trace,
    flatMap_singleton]

theorem InTime.applied (h : InTime w) (hok : s.ok = true) : InTime (w.execute s).applyCommands := by
  have hs := h.concat s
  rw [System.events, if_pos hok, append_cons] at hs
  unfold World.execute World.applyCommands
  rwa [h.empty, nil_append]

theorem InTime.cleared (h : InTime w) (hnone : s.ok = true → s.pushes = []) :
    InTime ⟨[], (w.execute s).trace⟩ := by
  have hs := h.concat s
  unfold System.events at hs
  split at hs
  · next hok => rwa [hnone hok] at hs
  · exact hs

theorem InTime.andThen {r : World C × Bool} {next : World C → World C × Bool} (h : InTime r.1)
    (hnext : ∀ w, InTime w → InTime (next w).1) : InTime (andThen r next).1 := by
  unfold Scheduler.andThen
  split
  · exact hnext r.1 h
  · exact h

theorem InTime.runSystems {after : World C → World C} {systems : List (System C)}
    (hafter : ∀ w, InTime w → ∀ s ∈ systems, s.ok = true → InTime (after (w.execute s)))
    (h : InTime w) : InTime (runSystems after systems w).1 := by
  induction systems generalizing w with
  | nil => exact h
  | cons s systems ih =>
    unfold Scheduler.runSystems
    split
    · next hok =>
      exact ih (fun w hw s hs => hafter w hw s (mem_cons_of_mem _ hs))
        (hafter w h s mem_cons_self hok)
    · next hfailed => exact h.cleared fun hok => absurd hok hfailed

theorem InTime.runStages (h : InTime w) (stages : List (List (System C))) :
    InTime (runStages stages w).1 := by
  induction stages generalizing w with
  | nil => exact h
  | cons systems stages ih =>
    exact (h.runSystems fun _ hw _ _ => hw.applied).andThen fun _ hw => ih hw

theorem InTime.run (h : InTime w) (schedule : Schedule C) : InTime (run schedule w).1 :=
  (h.runSystems fun _ hw _ _ => hw.applied).andThen fun _ hw => hw.runStages schedule.stages

/-- **A call** leaves no command over. -/
theorem InTime.call (h : InTime w) {call : Call C} (hquiet : call.Quiet) :
    InTime (call.outcome w) := by
  cases call with
  | run schedule => exact h.run schedule
  | runAsync schedule =>
    refine (h.run schedule).andThen fun w hw => hw.runSystems fun w hw s hs hok => ?_
    have hnone := hquiet s hs hok
    have hstays : w.execute s = ⟨[], (w.execute s).trace⟩ := by
      simp [World.execute, hw.empty, hnone]
    rw [id, hstays]
    exact hw.cleared fun _ => hnone

end Runs

/-- **Commands in time.**  Whatever is called, if no async system that returns Ok pushes a
command, then after every call no command is left over, and every system's commands were
applied behind it, before the next system started, or not at all if it failed. -/
theorem commands_in_time (calls : List (Call C)) (hquiet : ∀ call ∈ calls, call.Quiet) :
    InTime (calls.foldl Call.outcome {}) := by
  refine foldlRecOn calls Call.outcome ⟨rfl, rfl⟩ ?_
  exact fun w hw call hcall => hw.call (hquiet call hcall)

/-- An exclusive and a sync system with commands, and an async one without. -/
theorem commands_in_time_quiet :
    InTime ([.runAsync ⟨[⟨[1], true⟩], [[⟨[2, 3], true⟩]], [[⟨[], true⟩]]⟩].foldl
      Call.outcome ({} : World Nat)) :=
  commands_in_time _ (forall_mem_singleton.mpr (forall_mem_singleton.mpr fun _ => rfl))

/-- The command of an async system is still in the queue when `run_async` returns Ok, and
the next call, whose first system fails, throws it away. -/
theorem async_command_lost :
    let first := runAsync ⟨[], [], [[⟨[7], true⟩]]⟩ ({} : World Nat)
    let second := run ⟨[⟨[], false⟩], [], []⟩ first.1
    first.2 = true ∧ first.1.buffer = [7] ∧ second.1.buffer = [] ∧ .applied 7 ∉ second.1.trace := by
  decide

end ZeroTrace.Scheduler
