import Mathlib.Algebra.Order.Ring.Nat
import Mathlib.Data.List.Basic

/-!
# Time wheels

A wheel of `2 ^ n` slots stands for an endless line of time units: a unit is
kept in the slot of its last `n` bits.  Within a window of `2 ^ n` units no two
units share a slot, so a key that was put down for a unit of the window is
there until that unit is drained.

Nothing here mentions a particular program.
-/

namespace Wheels

open Function

universe u

/-- A wheel with sets of keys in its slots. -/
structure Wheel (K : Type u) where
  bits : Nat
  slots : Nat → List K

namespace Wheel

variable {K : Type u}

/-- The number of slots. -/
def size (w : Wheel K) : Nat := 2 ^ w.bits

def slot (w : Wheel K) (t : Nat) : Nat := t &&& (w.size - 1)

def Lists (w : Wheel K) (t : Nat) (k : K) : Prop := k ∈ w.slots (w.slot t)

/-- Take all keys out of the slot of a time unit. -/
def clear (w : Wheel K) (t : Nat) : Wheel K :=
  { w with slots := Function.update w.slots (w.slot t) [] }

def empty (bits : Nat) : Wheel K := { bits := bits, slots := fun _ => [] }

variable {w : Wheel K} {t t' : Nat} {k k' : K}

theorem slot_eq_mod (w : Wheel K) (t : Nat) : w.slot t = t % w.size :=
  Nat.and_two_pow_sub_one_eq_mod t w.bits

theorem eq_of_slot_eq (h : w.slot t = w.slot t') (hle : t ≤ t') (hlt : t' < t + w.size) :
    t = t' := by
  rw [slot_eq_mod, slot_eq_mod] at h
  have hdvd : w.size ∣ t' - t := Nat.dvd_of_mod_eq_zero (Nat.sub_mod_eq_zero_of_mod_eq h.symm)
  have hzero : t' - t = 0 := Nat.eq_zero_of_dvd_of_lt hdvd (by omega)
  omega

theorem Lists.clear (h : w.Lists t k) (hne : w.slot t ≠ w.slot t') : (w.clear t').Lists t k := by
  change k ∈ update w.slots (w.slot t') [] (w.slot t)
  rw [update_of_ne hne]
  exact h

section Insert

variable [DecidableEq K]

/-- Put a key down for a time unit. -/
def insert (w : Wheel K) (t : Nat) (k : K) : Wheel K :=
  { w with slots := Function.update w.slots (w.slot t) ((w.slots (w.slot t)).insert k) }

@[simp] theorem size_insert : (w.insert t k).size = w.size := rfl

theorem lists_insert_self (w : Wheel K) (t : Nat) (k : K) : (w.insert t k).Lists t k := by
  change k ∈ update w.slots (w.slot t) ((w.slots (w.slot t)).insert k) (w.slot t)
  simp

theorem Lists.insert (h : w.Lists t k) (t' : Nat) (k' : K) : (w.insert t' k').Lists t k := by
  change k ∈ update w.slots (w.slot t') ((w.slots (w.slot t')).insert k') (w.slot t)
  by_cases hs : w.slot t = w.slot t'
  · unfold Lists at h
    rw [hs] at h ⊢
    simp [h]
  · rw [update_of_ne hs]
    exact h

/-- Put down many keys. -/
def insertAll (w : Wheel K) (moved : List (Nat × K)) : Wheel K :=
  moved.foldl (fun w m => w.insert m.1 m.2) w

@[simp] theorem size_insertAll (moved : List (Nat × K)) : (w.insertAll moved).size = w.size := by
  induction moved generalizing w with
  | nil => rfl
  | cons m moved ih =>
    rw [insertAll, List.foldl_cons]
    exact (ih (w := w.insert m.1 m.2)).trans size_insert

theorem Lists.insertAll (h : w.Lists t k) (moved : List (Nat × K)) :
    (w.insertAll moved).Lists t k := by
  induction moved generalizing w with
  | nil => exact h
  | cons m moved ih => exact ih (h.insert m.1 m.2)

theorem lists_insertAll (w : Wheel K) {moved : List (Nat × K)} (h : (t, k) ∈ moved) :
    (w.insertAll moved).Lists t k := by
  induction moved generalizing w with
  | nil => cases h
  | cons m moved ih =>
    cases List.mem_cons.mp h with
    | inl hm =>
      subst hm
      exact (lists_insert_self w t k).insertAll moved
    | inr hm => exact ih (w.insert m.1 m.2) hm

end Insert

end Wheel

end Wheels
