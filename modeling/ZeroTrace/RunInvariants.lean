import ZeroTrace.RustExec

/-!
# Invariants over whole runs

A state machine is a step function `σ → α → Exec σ`; a run feeds it a list of
inputs.  `StatesHold` says that the run never panics and that a property holds
in every state it passes through, the first one included.  `StepsObey` says
that every step the run takes starts from a state and an input that meet a
condition.

`statesHold_of_invariant` is the usual invariant rule.  `statesHold_iff` is
its exact form: when the condition is, from any state that carries the
invariant, precisely what a step needs in order to reach a good state, then
the runs that stay good are precisely the runs whose steps all meet it.
`total` sums a quantity over the steps of a run, and `run_balance` turns a
balance of single steps into one of the whole run.
-/

namespace Runs

open RustExec

universe u v

variable {σ : Type u} {α : Type v}

/-- Feed the inputs one after the other. -/
def run (step : σ → α → Exec σ) : σ → List α → Exec σ
  | s, [] => .ok s
  | s, a :: as => step s a >>= fun s' => run step s' as

/-- The run does not panic and `P` holds in each of its states. -/
def StatesHold (step : σ → α → Exec σ) (P : σ → Prop) : σ → List α → Prop
  | s, [] => P s
  | s, a :: as => P s ∧ ∃ s', step s a = .ok s' ∧ StatesHold step P s' as

/-- Each step of the run starts where `C` holds. -/
def StepsObey (step : σ → α → Exec σ) (C : σ → α → Prop) : σ → List α → Prop
  | _, [] => True
  | s, a :: as => C s a ∧ ∀ s', step s a = .ok s' → StepsObey step C s' as

variable {step : σ → α → Exec σ} {P J : σ → Prop} {C : σ → α → Prop}

theorem run_append (s : σ) (as bs : List α) :
    run step s (as ++ bs) = run step s as >>= fun s' => run step s' bs := by
  induction as generalizing s with
  | nil => rfl
  | cons a as ih =>
    rw [List.cons_append, run, run]
    cases step s a with
    | error e => rfl
    | ok s' => exact ih s'

/-- Past a step that succeeds, the rest of the run starts where it leads. -/
theorem stepsObey_cons {s s' : σ} {a : α} (h : step s a = .ok s') (as : List α) :
    StepsObey step C s (a :: as) ↔ C s a ∧ StepsObey step C s' as := by
  rw [StepsObey]
  constructor
  · intro hobey
    exact ⟨hobey.1, hobey.2 s' h⟩
  intro hobey
  refine ⟨hobey.1, ?_⟩
  intro s₁ hs₁
  rw [h] at hs₁
  cases hs₁
  exact hobey.2

variable {as : List α} {s : σ} {Q : α → Prop}

/-- The states of a good run are what `run` computes on the prefixes of its
input. -/
theorem StatesHold.run_take (h : StatesHold step P s as) :
    ∀ k, ∃ s', run step s (as.take k) = .ok s' ∧ P s' := by
  induction as generalizing s with
  | nil => intro k; exact ⟨s, by simp [run], h⟩
  | cons a as ih =>
    intro k
    obtain ⟨hs, s₁, hstep, hrest⟩ := h
    cases k with
    | zero => exact ⟨s, rfl, hs⟩
    | succ k =>
      obtain ⟨s', hrun, hP⟩ := ih hrest k
      exact ⟨s', by simpa [run, hstep] using hrun, hP⟩

/-- A good run arrives somewhere, and the property holds there. -/
theorem StatesHold.run_ok (h : StatesHold step P s as) : ∃ s', run step s as = .ok s' ∧ P s' := by
  simpa using h.run_take as.length

/-- A condition on the inputs alone is one on the steps. -/
theorem StepsObey.and_forall (hC : StepsObey step C s as) (hQ : ∀ a ∈ as, Q a) :
    StepsObey step (fun s a => Q a ∧ C s a) s as := by
  induction as generalizing s with
  | nil => trivial
  | cons a as ih =>
    obtain ⟨ha, has⟩ := List.forall_mem_cons.mp hQ
    exact ⟨⟨ha, hC.1⟩, fun s' hs' => ih (hC.2 s' hs') has⟩

/-- A property that holds in every state may be weakened. -/
theorem StatesHold.mono {Q : σ → Prop} (hPQ : ∀ s, P s → Q s) (h : StatesHold step P s as) :
    StatesHold step Q s as := by
  induction as generalizing s with
  | nil => exact hPQ s h
  | cons a as ih =>
    obtain ⟨hs, s', hstep, hrest⟩ := h
    exact ⟨hPQ s hs, s', hstep, ih hrest⟩

/-- **Invariant rule, for runs that end.**  What every successful step keeps is
kept by every run that comes to its end. -/
theorem run_induction (hstep : ∀ s a s', J s → Q a → step s a = .ok s' → J s')
    {s s' : σ} (hs : J s) (hQ : ∀ a ∈ as, Q a) (hrun : run step s as = .ok s') : J s' := by
  induction as generalizing s with
  | nil =>
    cases hrun
    exact hs
  | cons a as ih =>
    obtain ⟨t, hok, hrest⟩ := bind_eq_ok hrun
    obtain ⟨ha, has⟩ := List.forall_mem_cons.mp hQ
    exact ih (hstep s a t hs ha hok) has hrest

/-- **Invariant rule.**  If every step that obeys `C` keeps the invariant `J`,
then `J` holds in every state of a run whose steps all obey `C`. -/
theorem statesHold_of_invariant (hstep : ∀ s a, J s → C s a → ∃ s', step s a = .ok s' ∧ J s')
    (hs : J s) (hC : StepsObey step C s as) : StatesHold step J s as := by
  induction as generalizing s with
  | nil => exact hs
  | cons a as ih =>
    obtain ⟨s', hok, hJ⟩ := hstep s a hs hC.1
    exact ⟨hs, s', hok, ih hJ (hC.2 s' hok)⟩

/-- **Exact invariant rule.**  On runs whose steps obey `D`, let `C` be what a
step from a state in `J` needs in order to arrive in `P` without a panic, and
then it also arrives in `J`.  So a run from `J` stays in `P` exactly when all
its steps obey `C`. -/
theorem statesHold_iff_of_stepsObey {D : σ → α → Prop} (hJP : ∀ s, J s → P s)
    (hgood : ∀ s a, J s → D s a → C s a → ∃ s', step s a = .ok s' ∧ J s')
    (hbad : ∀ s a, J s → D s a → ¬ C s a → ∀ s', step s a = .ok s' → ¬ P s') (hs : J s)
    (hD : StepsObey step D s as) : StatesHold step P s as ↔ StepsObey step C s as := by
  induction as generalizing s with
  | nil => exact iff_of_true (hJP s hs) trivial
  | cons a as ih =>
    by_cases hC : C s a
    · obtain ⟨s', hok, hJ⟩ := hgood s a hs hD.1 hC
      rw [stepsObey_cons hok, StatesHold, ← ih hJ (hD.2 s' hok)]
      constructor
      · intro h
        obtain ⟨-, s₁, hok₁, hrest⟩ := h
        rw [hok] at hok₁
        cases hok₁
        exact ⟨hC, hrest⟩
      · intro h
        exact ⟨hJP s hs, s', hok, h.2⟩
    · apply iff_of_false
      · intro h
        obtain ⟨-, s', hok, hrest⟩ := h
        refine hbad s a hs hD.1 hC s' hok ?_
        cases as with
        | nil => exact hrest
        | cons b bs => exact hrest.1
      · intro h
        exact hC h.1

/-- **Dichotomy rule.**  Let steps that obey `C` keep the good states good, let
any other step from a good state go bad, and let bad states stay bad.  Then a
run from a good state ends good or bad according to whether its steps all obey
`C`. -/
theorem run_dichotomy {B : σ → Prop} (hgood : ∀ s a s', J s → C s a → step s a = .ok s' → J s')
    (hbad : ∀ s a s', J s → ¬ C s a → step s a = .ok s' → B s')
    (hstay : ∀ s a s', B s → step s a = .ok s' → B s') {s s' : σ} (hs : J s)
    (hrun : run step s as = .ok s') :
    (StepsObey step C s as ∧ J s') ∨ (¬ StepsObey step C s as ∧ B s') := by
  induction as generalizing s with
  | nil =>
    cases hrun
    exact .inl ⟨trivial, hs⟩
  | cons a as ih =>
    obtain ⟨t, hok, hrest⟩ := bind_eq_ok hrun
    rw [stepsObey_cons hok]
    by_cases hC : C s a
    · rcases ih (hgood s a t hs hC hok) hrest with ⟨hobey, hend⟩ | ⟨hnot, hend⟩
      · exact .inl ⟨⟨hC, hobey⟩, hend⟩
      · exact .inr ⟨fun h => hnot h.2, hend⟩
    · refine .inr ⟨fun h => hC h.1, ?_⟩
      exact run_induction (fun x b x' hx _ => hstay x b x' hx) (hbad s a t hs hC hok)
        (fun _ _ => trivial) hrest

theorem stepsObey_true (s : σ) (as : List α) : StepsObey step (fun _ _ => True) s as := by
  induction as generalizing s with
  | nil => trivial
  | cons a as ih => exact ⟨trivial, fun s' _ => ih s'⟩

theorem statesHold_iff (hJP : ∀ s, J s → P s)
    (hgood : ∀ s a, J s → C s a → ∃ s', step s a = .ok s' ∧ J s')
    (hbad : ∀ s a, J s → ¬ C s a → ∀ s', step s a = .ok s' → ¬ P s') (hs : J s) :
    StatesHold step P s as ↔ StepsObey step C s as :=
  statesHold_iff_of_stepsObey hJP (fun s a hJ _ => hgood s a hJ)
    (fun s a hJ _ => hbad s a hJ) hs (stepsObey_true s as)

/-- A computable form of `StepsObey`. -/
def checkSteps (step : σ → α → Exec σ) (test : σ → α → Bool) : σ → List α → Bool
  | _, [] => true
  | s, a :: as =>
    test s a &&
      match step s a with
      | .ok s' => checkSteps step test s' as
      | .error _ => true

theorem stepsObey_of_check {test : σ → α → Bool} (htest : ∀ s a, test s a = true → C s a)
    (h : checkSteps step test s as = true) : StepsObey step C s as := by
  induction as generalizing s with
  | nil => trivial
  | cons a as ih =>
    rw [checkSteps, Bool.and_eq_true] at h
    refine ⟨htest s a h.1, fun s' hs' => ?_⟩
    rw [hs'] at h
    exact ih h.2

/-- The sum of a quantity over the steps of a run. -/
def total (step : σ → α → Exec σ) (μ : σ → α → Nat) : σ → List α → Nat
  | _, [] => 0
  | s, a :: as =>
    μ s a +
      match step s a with
      | .ok s' => total step μ s' as
      | .error _ => 0

variable {μ ν : σ → α → Nat}

theorem total_cons {s s' : σ} {a : α} (h : step s a = .ok s') (as : List α) :
    total step μ s (a :: as) = μ s a + total step μ s' as := by
  rw [total, h]

theorem total_add (s : σ) (as : List α) :
    total step (fun s a => μ s a + ν s a) s as = total step μ s as + total step ν s as := by
  induction as generalizing s with
  | nil => rfl
  | cons a as ih =>
    cases h : step s a with
    | ok s' =>
      rw [total_cons h, total_cons h, total_cons h, ih]
      omega
    | error e =>
      simp only [total, h]
      omega

/-- **Balance rule.**  If every step that obeys `C` moves a stock `F` by what
comes in less what goes out, then so does every run whose steps obey `C`. -/
theorem run_balance {F : σ → Nat}
    (hstep : ∀ s a, J s → C s a → ∃ s', step s a = .ok s' ∧ J s' ∧ F s' + ν s a = F s + μ s a)
    (hs : J s) (hC : StepsObey step C s as) :
    ∃ s', run step s as = .ok s' ∧ J s' ∧ F s' + total step ν s as = F s + total step μ s as := by
  induction as generalizing s with
  | nil => exact ⟨s, rfl, hs, rfl⟩
  | cons a as ih =>
    obtain ⟨s₁, hok, hJ, hmove⟩ := hstep s a hs hC.1
    obtain ⟨s₂, hrun, hJ₂, hrest⟩ := ih hJ (hC.2 s₁ hok)
    refine ⟨s₂, ?_, hJ₂, ?_⟩
    · rw [run, hok, ok_bind, hrun]
    · rw [total_cons hok, total_cons hok]
      omega

end Runs
