import Mathlib.Logic.Basic

/-!
# What a computation that may fail guarantees

A computation in `Except` returns a value or fails, and of the failures only some are to be
excluded.  `Yields bad x Q` says that `x` does not fail in a bad way and that a value it
returns satisfies `Q`.  `Exactly c x Q` says that `x` returns a value if and only if `c` holds,
and that the value satisfies `Q`.  The rules below follow the ways computations are put
together.
-/

namespace ZeroTrace.Outcomes

variable {ε α β σ : Type} {bad : ε → Prop} {x : Except ε α} {f : α → Except ε β} {Q R : α → Prop}
  {P : β → Prop} {a : α}

/-- The computation has no bad failure, and its value satisfies `Q`. -/
def Yields (bad : ε → Prop) (x : Except ε α) (Q : α → Prop) : Prop :=
  match x with
  | .ok a => Q a
  | .error e => ¬ bad e

theorem Yields.pure (h : Q a) : Yields bad (.ok a) Q := h

theorem Yields.bind (h : Yields bad x Q) (hf : ∀ a, Q a → Yields bad (f a) P) :
    Yields bad (x >>= f) P := by
  cases x with
  | ok a => exact hf a h
  | error e => exact h

theorem Yields.ite {c : Prop} [Decidable c] {y : Except ε α} (hx : c → Yields bad x Q)
    (hy : ¬ c → Yields bad y Q) : Yields bad (if c then x else y) Q := by
  split
  · next hc => exact hx hc
  · next hc => exact hy hc

theorem Yields.not_bad {e : ε} (h : Yields bad x Q) (he : x = .error e) : ¬ bad e := by
  subst he
  exact h

theorem Yields.foldlM {step : σ → β → Except ε σ} {Inv : σ → Prop}
    (hstep : ∀ s b, Inv s → Yields bad (step s b) Inv) {s : σ} (hs : Inv s) (bs : List β) :
    Yields bad (bs.foldlM step s) Inv := by
  induction bs generalizing s with
  | nil => exact hs
  | cons b bs ih =>
    rw [List.foldlM_cons]
    exact (hstep s b hs).bind fun s' hs' => ih hs'

section Exactly

variable {c d : Prop}

/-- The computation returns a value if and only if the condition holds, and the value satisfies
`Q`. -/
def Exactly (c : Prop) (x : Except ε α) (Q : α → Prop) : Prop :=
  match x with
  | .ok a => c ∧ Q a
  | .error _ => ¬ c

theorem Exactly.pure (hc : c) (h : Q a) : Exactly c (Except.ok a : Except ε α) Q :=
  ⟨hc, h⟩

theorem Exactly.fail {e : ε} (hc : ¬ c) : Exactly c (.error e) Q := hc

variable (h : Exactly c x Q)

include h

theorem Exactly.congr (hcd : c ↔ d) : Exactly d x Q := by
  cases x with
  | ok a => exact ⟨hcd.mp h.1, h.2⟩
  | error e => exact fun hd => h (hcd.mpr hd)

theorem Exactly.mono (hQ : ∀ a, Q a → R a) : Exactly c x R := by
  cases x with
  | ok a => exact ⟨h.1, hQ a h.2⟩
  | error e => exact h

theorem Exactly.bind (hf : ∀ a, c → Q a → Exactly d (f a) P) : Exactly (c ∧ d) (x >>= f) P := by
  cases x with
  | error e => exact fun hcd => h hcd.1
  | ok a =>
    change Exactly (c ∧ d) (f a) P
    exact (hf a h.1 h.2).congr (and_iff_right h.1).symm

theorem Exactly.bind_ok (hf : ∀ a, c → Q a → ∃ b, f a = .ok b ∧ P b) : Exactly c (x >>= f) P := by
  cases x with
  | error e => exact h
  | ok a =>
    obtain ⟨b, hb, hP⟩ := hf a h.1 h.2
    change Exactly c (f a) P
    rw [hb]
    exact ⟨h.1, hP⟩

theorem Exactly.exists_ok (hc : c) : ∃ a, x = .ok a ∧ Q a := by
  cases x with
  | ok a => exact ⟨a, rfl, h.2⟩
  | error e => exact absurd hc h

theorem Exactly.ok_iff : (∃ a, x = .ok a) ↔ c := by
  cases x with
  | ok a => exact iff_of_true ⟨a, rfl⟩ h.1
  | error e => exact iff_of_false (by rintro ⟨a, ha⟩; cases ha) h

theorem Exactly.exists_error (hc : ¬ c) : ∃ e, x = .error e := by
  cases x with
  | ok a => exact absurd h.1 hc
  | error e => exact ⟨e, rfl⟩

theorem Exactly.of_ok (ha : x = .ok a) : c ∧ Q a := by
  subst ha
  exact h

end Exactly

end ZeroTrace.Outcomes
