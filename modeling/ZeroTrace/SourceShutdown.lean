import Mathlib.Data.List.Induction

/-!
# Shutting sources down

A source lies in a slot that the two closures of its `BoxedSource` share.  The future of
`run` takes it out of the slot when it is first polled, and keeps it; `shutdown` looks into
the slot.  So the source whose run is in progress is the one that `shutdown` does not find.
-/

namespace ZeroTrace.Pipeline

/-- What a poll of `select!` meets: `shutdown.changed()` is pending or ready, with the value
that is borrowed then, and the source's own `run` is ready or not when it is polled. -/
structure Poll where
  changed : Option Bool
  done : Bool

/-- The future that `BoxedSource::run` returned: not polled yet, with the source inside, or
the one that refuses a second run. -/
inductive RunFuture where
  | created
  | running
  | refused

/-- The task of a source.  `shutdowns` counts the calls of `Source::shutdown`. -/
structure SourceTask where
  slot : Bool := true
  runFn : Bool := true
  shutdownFn : Bool := true
  future : Option RunFuture := none
  shutdowns : Nat := 0
  ended : Bool := false

namespace SourceTask

variable (t : SourceTask)

/-- `BoxedSource::run`. -/
def run : SourceTask :=
  if t.runFn then { t with runFn := false, future := some .created }
  else { t with future := some .refused }

/-- `BoxedSource::shutdown`. -/
def shutdown : SourceTask :=
  if t.shutdownFn then
    { t with shutdownFn := false, shutdowns := if t.slot then t.shutdowns + 1 else t.shutdowns }
  else t

/-- The task's `select!` holds the future of `run`. -/
def select : SourceTask := if t.future.isNone then t.run else t

/-- A poll of the future of `run`; an empty slot is a panic, which ends the task. -/
def pollRun (done : Bool) : SourceTask :=
  match t.future with
  | some .created =>
    if t.slot then { t with slot := false, future := some .running, ended := done }
    else { t with ended := true }
  | some .running => { t with ended := done }
  | _ => { t with ended := true }

/-- A poll of the task.  `select!` drops its futures before it runs the code of a branch. -/
def poll (p : Poll) : SourceTask :=
  if t.ended then t
  else
    match p.changed with
    | some true => { ({ t.select with future := none } : SourceTask).shutdown with ended := true }
    | some false => { t.select with future := none }
    | none => t.select.pollRun p.done

/-- The tasks of a pipeline with the sources `S`, after polls of any of them. -/
def tasks {S : Type} [DecidableEq S] (polls : List (S × Poll)) : S → SourceTask :=
  polls.foldl (fun ts p => Function.update ts p.1 ((ts p.1).poll p.2)) fun _ => {}

variable {S : Type} [DecidableEq S] {t}

def InProgress (t : SourceTask) : Prop := t.future = some .running ∧ t.ended = false

/-- A task that has not ended has not shut its source down, and a source that runs is not in
its slot. -/
structure Live (t : SourceTask) : Prop where
  fresh : t.ended = false → t.shutdownFn = true ∧ t.shutdowns = 0
  moved : t.future = some .running → t.slot = false

theorem Live.select (h : t.Live) :
    t.select.Live ∧ t.select.slot = t.slot ∧ t.select.ended = t.ended := by
  unfold SourceTask.select run
  split_ifs
  · exact ⟨⟨h.fresh, by simp⟩, rfl, rfl⟩
  · exact ⟨⟨h.fresh, by simp⟩, rfl, rfl⟩
  · exact ⟨h, rfl, rfl⟩

theorem Live.pollRun (h : t.Live) (hended : t.ended = false) (done : Bool) :
    (t.pollRun done).Live := by
  unfold SourceTask.pollRun
  split
  · split_ifs
    · exact ⟨fun _ => h.fresh hended, fun _ => rfl⟩
    · exact ⟨by simp, h.moved⟩
  · exact ⟨fun _ => h.fresh hended, h.moved⟩
  · exact ⟨by simp, h.moved⟩

theorem Live.poll (h : t.Live) (p : Poll) : (t.poll p).Live := by
  unfold SourceTask.poll
  split_ifs with hended
  · exact h
  obtain ⟨hselect, -, hlasts⟩ := h.select
  split
  · refine ⟨by simp, ?_⟩
    unfold shutdown
    split_ifs <;> simp
  · exact ⟨hselect.fresh, by simp⟩
  · exact hselect.pollRun (hlasts.trans (eq_false_of_ne_true hended)) p.done

theorem live_tasks (polls : List (S × Poll)) (source : S) :
    (tasks polls source).Live := by
  induction polls using List.reverseRecOn with
  | nil => exact ⟨fun _ => ⟨rfl, rfl⟩, by simp [tasks]⟩
  | append_singleton polls p ih =>
    rw [tasks, List.foldl_append, List.foldl_cons, List.foldl_nil, ← tasks, Function.update_apply]
    split_ifs with heq
    · exact heq ▸ ih.poll p.2
    · exact ih

/-- **Shutdown misses the sources that run.**  Whatever polls came before, the signal reaches
the source of a task if and only if its run was never polled; so it never reaches one whose run
is in progress. -/
theorem shutdown_reaches_iff (polls : List (S × Poll)) (source : S) (done : Bool) :
    ((tasks polls source).ended = false ∧
          ((tasks polls source).poll ⟨some true, done⟩).shutdowns = 1 ↔
        (tasks polls source).ended = false ∧ (tasks polls source).slot = true) ∧
      ((tasks polls source).InProgress →
        ((tasks polls source).poll ⟨some true, done⟩).shutdowns = 0) := by
  have hlive := live_tasks polls source
  generalize tasks polls source = t at hlive ⊢
  have hsignal : t.ended = false →
      (t.poll ⟨some true, done⟩).shutdowns = if t.slot then 1 else 0 := by
    intro hended
    obtain ⟨hselect, hslot, hlasts⟩ := hlive.select
    obtain ⟨hfn, hzero⟩ := hselect.fresh (hlasts.trans hended)
    simp [poll, shutdown, hended, hfn, hzero, hslot]
  refine ⟨and_congr_right fun hended => ?_, fun hrun => ?_⟩
  · simp [hsignal hended]
  · simp [hsignal hrun.2, hlive.moved hrun.1]

/-- A source that is polled once runs, and is not shut down. -/
theorem running_source_missed :
    (tasks [((), ⟨none, false⟩)] ()).InProgress ∧
      (tasks [((), ⟨none, false⟩), ((), ⟨some true, false⟩)] ()).ended = true ∧
      (tasks [((), ⟨none, false⟩), ((), ⟨some true, false⟩)] ()).shutdowns = 0 :=
  ⟨⟨rfl, rfl⟩, rfl, rfl⟩

end SourceTask

end ZeroTrace.Pipeline
