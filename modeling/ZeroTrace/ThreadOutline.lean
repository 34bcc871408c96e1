import ZeroTrace.RunInvariants

/-!
# Proof outlines for threads

Threads that share a state take their steps in any order.  An outline gives
each thread an assertion of its own, says what holds of the shared state, and
says what a step of one thread leaves to the others.  A step of a thread may
rely on the shared assertion and on its own; it must restore both, and what it
leaves must be enough for every other thread to keep its assertion.

`Outline.statesHold` is the rule: no interleaving panics, and all the
assertions hold in all the states it passes through.
-/

namespace Threads

open RustExec Runs

universe u v w

variable {σ : Type u} {α : Type v} {ι : Type w}

/-- An outline for the threads `ι`, where `who a` is the thread that takes the
step `a`. -/
structure Outline (step : σ → α → Exec σ) (who : α → ι) where
  shared : σ → Prop
  own : ι → σ → Prop
  leaves : ι → σ → σ → Prop
  step_ok : ∀ s a, shared s → own (who a) s →
    ∃ s', step s a = .ok s' ∧ shared s' ∧ own (who a) s' ∧ leaves (who a) s s'
  stable : ∀ t t' s s', t' ≠ t → leaves t s s' → own t' s → own t' s'

variable {step : σ → α → Exec σ} {who : α → ι} (O : Outline step who)

def Outline.Holds (O : Outline step who) (s : σ) : Prop :=
  O.shared s ∧ ∀ t, O.own t s

theorem Outline.step_holds {s : σ} (h : O.Holds s) (a : α) :
    ∃ s', step s a = .ok s' ∧ O.Holds s' := by
  obtain ⟨s', hok, hshared, hown, hleaves⟩ := O.step_ok s a h.1 (h.2 (who a))
  refine ⟨s', hok, hshared, fun t => ?_⟩
  by_cases ht : t = who a
  · rw [ht]
    exact hown
  · exact O.stable (who a) t s s' ht hleaves (h.2 t)

/-- **Interleaving rule.**  From a state in which all the assertions hold, no
interleaving panics and they hold in all its states. -/
theorem Outline.statesHold {s : σ} (h : O.Holds s) (as : List α) : StatesHold step O.Holds s as :=
  statesHold_of_invariant (fun _ a hs _ => O.step_holds hs a) h (stepsObey_true s as)

end Threads
