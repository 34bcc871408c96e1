import Mathlib.Algebra.Order.Ring.Nat

/-!
# Indices into a ring

A ring of `n` slots is addressed by positions that only grow; position `p`
lives in slot `p % n`.  What a program stores of a position is its remainder
by `2 * n`: with at most `n` positions in use, the two stored indices then
tell an empty ring from a full one.

The lemmas recover the distance of two positions from their indices, and say
which positions share a slot.
-/

namespace RingIndex

open Nat

variable {n p q i : Nat}

theorem add_mod_eq (m : Nat) (hi : i < m) :
    (p + i) % m = if p % m + i < m then p % m + i else p % m + i - m := by
  have hlt : p % m < m := mod_lt p (by omega)
  rw [add_mod, mod_eq_of_lt hi]
  split
  next h => exact mod_eq_of_lt h
  next h =>
    rw [mod_eq_sub_mod (by omega)]
    exact mod_eq_of_lt (by omega)

theorem eq_of_mod_eq (hp : p < q + n) (hq : q < p + n) (h : p % n = q % n) : p = q := by
  wlog hle : p ≤ q
  · exact (this hq hp h.symm (le_of_not_ge hle)).symm
  obtain ⟨d, rfl⟩ := Nat.exists_eq_add_of_le hle
  rw [add_mod_eq n (by omega : d < n)] at h
  have hlt : p % n < n := mod_lt p (by omega)
  generalize p % n = a at h hlt
  split at h <;> omega

/-- **Distance.**  The later index, taken a double lap on when it is the
smaller one, is as far from the earlier as the positions are apart. -/
theorem distance (hn : 0 < n) (hle : p ≤ q) (hfit : q ≤ p + n) :
    (if q % (2 * n) < p % (2 * n) then q % (2 * n) + 2 * n else q % (2 * n)) =
      p % (2 * n) + (q - p) := by
  have hlt : p % (2 * n) < 2 * n := mod_lt p (by omega)
  obtain ⟨d, rfl⟩ := Nat.exists_eq_add_of_le hle
  have hstep := @add_mod_eq p d (2 * n) (by omega)
  generalize p % (2 * n) = a at hlt hstep ⊢
  rw [hstep]
  split_ifs <;> omega

theorem index_mod (p n : Nat) : p % (2 * n) % n = p % n :=
  mod_mod_of_dvd p (dvd_mul_left n 2)

theorem and_mask (hn : ∃ k, n = 2 ^ k) (x : Nat) : x &&& (n - 1) = x % n := by
  obtain ⟨k, rfl⟩ := hn
  exact and_two_pow_sub_one_eq_mod x k

theorem and_mask_double (hn : ∃ k, n = 2 ^ k) (x : Nat) : x &&& (2 * n - 1) = x % (2 * n) := by
  obtain ⟨k, rfl⟩ := hn
  refine and_mask ⟨k + 1, ?_⟩ x
  rw [pow_succ, mul_comm]

theorem split_slot (hi : i < n) :
    (if i < n - p % n then p % n + i else i - (n - p % n)) = (p + i) % n := by
  have hlt : p % n < n := mod_lt p (by omega)
  rw [add_mod_eq n hi]
  generalize p % n = a at hlt ⊢
  split_ifs <;> omega

end RingIndex
