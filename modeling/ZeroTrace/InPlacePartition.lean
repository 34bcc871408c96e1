import Mathlib.Data.List.Basic

/-!
# Partition in place

Two indices walk towards each other over a vector.  The left one stops at an
element to be moved back, the right one at an element to be kept, and the two
are exchanged.  In the end the elements to be kept stand in front, in some
order, and the index says where the others begin.

The right index is the first position behind the range that is still open, so
the range is empty when the two indices meet.

Nothing here mentions a particular program.
-/

namespace InPlace

open List

universe u

variable {α : Type u}

/-- `xs.swap(i, j)`. -/
def swapAt (xs : List α) (i j : Nat) : List α :=
  match xs[i]?, xs[j]? with
  | some a, some b => (xs.set i b).set j a
  | _, _ => xs

/-- `xs.swap_remove(i)`: the last element takes the place of the removed one. -/
def swapRemove (xs : List α) (i : Nat) : List α := (swapAt xs i (xs.length - 1)).dropLast

section Swap

variable {xs : List α} {i j : Nat}

theorem swapAt_eq (hi : i < xs.length) (hj : j < xs.length) :
    swapAt xs i j = (xs.set i xs[j]).set j xs[i] := by
  simp [swapAt, hi, hj]

theorem swapAt_perm (xs : List α) (i j : Nat) : (swapAt xs i j).Perm xs := by
  by_cases hi : i < xs.length
  · by_cases hj : j < xs.length
    · rw [swapAt_eq hi hj]
      exact set_set_perm hi hj
    · simp [swapAt, hj]
  · simp [swapAt, hi]

@[simp] theorem length_swapAt (xs : List α) (i j : Nat) : (swapAt xs i j).length = xs.length :=
  (swapAt_perm xs i j).length_eq

theorem getElem?_swapAt_left (hi : i < xs.length) (hj : j < xs.length) :
    (swapAt xs i j)[i]? = xs[j]? := by
  rw [swapAt_eq hi hj, getElem?_set]
  by_cases h : j = i
  · subst h
    simp [hi]
  · simp [h, hi, hj]

theorem getElem?_swapAt_right (hi : i < xs.length) (hj : j < xs.length) :
    (swapAt xs i j)[j]? = xs[i]? := by
  rw [swapAt_eq hi hj]
  simp [hi, hj]

theorem getElem?_swapAt_ne {k : Nat} (hi : i < xs.length) (hj : j < xs.length) (hki : k ≠ i)
    (hkj : k ≠ j) : (swapAt xs i j)[k]? = xs[k]? := by
  rw [swapAt_eq hi hj, getElem?_set_ne (Ne.symm hkj), getElem?_set_ne (Ne.symm hki)]

end Swap

variable (keep : α → Bool)

/-- The inner loop: the right index moves over elements that are not kept. -/
def shrink (xs : List α) (left : Nat) : Nat → Nat
  | 0 => 0
  | r + 1 =>
    if left < r + 1 then
      match xs[r]? with
      | some x => if keep x then r + 1 else shrink xs left r
      | none => r + 1
    else r + 1

def partitionLoop : Nat → List α → Nat → Nat → List α × Nat
  | 0, xs, left, _ => (xs, left)
  | fuel + 1, xs, left, right =>
    if left < right then
      match xs[left]? with
      | none => (xs, left)
      | some x =>
        if keep x then partitionLoop fuel xs (left + 1) right
        else
          let right := shrink keep xs left right
          if left + 1 < right then
            partitionLoop fuel (swapAt xs left (right - 1)) (left + 1) (right - 1)
          else partitionLoop fuel xs left right
    else (xs, left)

/-- The vector with the kept elements in front, and where the others begin. -/
def partition (xs : List α) : List α × Nat :=
  partitionLoop keep (xs.length + 1) xs 0 xs.length

variable {keep}

/-- The state of the loop: all before `left` are kept, none from `right` on. -/
structure Sorted (keep : α → Bool) (xs : List α) (left right : Nat) : Prop where
  order : left ≤ right
  bound : right ≤ xs.length
  front : ∀ i x, i < left → xs[i]? = some x → keep x = true
  back : ∀ i x, right ≤ i → xs[i]? = some x → keep x = false

variable {left right : Nat} {xs : List α}

/-- The inner loop stops at the left index, or behind an element to be kept,
and passes no such element. -/
theorem shrink_spec (keep : α → Bool) (hl : left ≤ right) (hr : right ≤ xs.length) :
    left ≤ shrink keep xs left right ∧ shrink keep xs left right ≤ right ∧
      (∀ i x, shrink keep xs left right ≤ i → i < right → xs[i]? = some x → keep x = false) ∧
      (left < shrink keep xs left right →
        ∃ x, xs[shrink keep xs left right - 1]? = some x ∧ keep x = true) := by
  induction right with
  | zero =>
    have hzero : shrink keep xs left 0 = 0 := rfl
    rw [hzero]
    refine ⟨hl, Nat.le_refl _, ?_, ?_⟩
    · intro i x _ hi
      omega
    · intro h
      omega
  | succ r ih =>
    have hget : xs[r]? = some xs[r] := getElem?_eq_getElem (by omega)
    by_cases hgo : left < r + 1 ∧ keep xs[r] = false
    · have hshrink : shrink keep xs left (r + 1) = shrink keep xs left r := by
        simp [shrink, hgo.1, hget, hgo.2]
      obtain ⟨hleft, hle, hpass, hstop⟩ := ih (by omega) (by omega)
      rw [hshrink]
      refine ⟨hleft, by omega, ?_, hstop⟩
      intro i x hi hlt hx
      by_cases hir : i = r
      · subst hir
        rw [hget] at hx
        cases hx
        exact hgo.2
      · exact hpass i x hi (by omega) hx
    · have hshrink : shrink keep xs left (r + 1) = r + 1 := by
        by_cases hleft : left < r + 1
        · have hkeep : keep xs[r] = true := by simpa [hleft] using hgo
          simp [shrink, hget, hkeep]
        · simp [shrink, hleft]
      rw [hshrink]
      refine ⟨hl, Nat.le_refl _, ?_, ?_⟩
      · intro i x hi hlt
        omega
      · intro hlt
        have hkeep : keep xs[r] = true := by simpa [hlt] using hgo
        exact ⟨xs[r], hget, hkeep⟩

section Sorted

variable (h : Sorted keep xs left right)

include h

theorem Sorted.advance {x : α} (hlt : left < right)
    (hget : xs[left]? = some x) (hkeep : keep x = true) : Sorted keep xs (left + 1) right := by
  refine ⟨hlt, h.bound, ?_, h.back⟩
  intro i y hi hy
  by_cases hil : i = left
  · subst hil
    rw [hget] at hy
    cases hy
    exact hkeep
  · exact h.front i y (by omega) hy

theorem Sorted.retreat : Sorted keep xs left (shrink keep xs left right) := by
  obtain ⟨hleft, hle, hpass, -⟩ := shrink_spec keep h.order h.bound
  refine ⟨hleft, Nat.le_trans hle h.bound, h.front, ?_⟩
  intro i x hi hx
  by_cases hir : i < right
  · exact hpass i x hi hir hx
  · exact h.back i x (by omega) hx

theorem Sorted.exchange {x y : α} (hlt : left + 1 < right) (hx : xs[left]? = some x)
    (hxkeep : keep x = false) (hy : xs[right - 1]? = some y) (hykeep : keep y = true) :
    Sorted keep (swapAt xs left (right - 1)) (left + 1) (right - 1) := by
  have hbound := h.bound
  have hl : left < xs.length := by omega
  have hr : right - 1 < xs.length := by omega
  refine ⟨by omega, ?_, ?_, ?_⟩
  · rw [length_swapAt]
    omega
  · intro i z hi hz
    by_cases hil : i = left
    · subst hil
      rw [getElem?_swapAt_left hl hr, hy] at hz
      cases hz
      exact hykeep
    · rw [getElem?_swapAt_ne hl hr hil (by omega)] at hz
      exact h.front i z (by omega) hz
  · intro i z hi hz
    by_cases hir : i = right - 1
    · subst hir
      rw [getElem?_swapAt_right hl hr, hx] at hz
      cases hz
      exact hxkeep
    · rw [getElem?_swapAt_ne hl hr (by omega) hir] at hz
      exact h.back i z (by omega) hz

theorem partitionLoop_spec {fuel : Nat} (hfuel : right - left < fuel) :
    (partitionLoop keep fuel xs left right).1.Perm xs ∧
      Sorted keep (partitionLoop keep fuel xs left right).1
        (partitionLoop keep fuel xs left right).2 (partitionLoop keep fuel xs left right).2 := by
  induction fuel generalizing xs left right with
  | zero => omega
  | succ fuel ih =>
    rw [partitionLoop]
    by_cases hlt : left < right
    · have hl : left < xs.length := Nat.lt_of_lt_of_le hlt h.bound
      have hget : xs[left]? = some xs[left] := getElem?_eq_getElem hl
      rw [if_pos hlt, hget]
      by_cases hkeep : keep xs[left] = true
      · simp only [hkeep, if_true]
        exact ih (h.advance hlt hget hkeep) (by omega)
      have hdrop : keep xs[left] = false := by simpa using hkeep
      obtain ⟨hleft, hle, -, hstop⟩ := shrink_spec keep h.order h.bound
      simp only [hkeep]
      by_cases hswap : left + 1 < shrink keep xs left right
      · obtain ⟨y, hy, hykeep⟩ := hstop (by omega)
        obtain ⟨hperm, hsorted⟩ := ih (h.retreat.exchange hswap hget hdrop hy hykeep) (by omega)
        simp only [hswap, if_true]
        exact ⟨hperm.trans (swapAt_perm xs left _), hsorted⟩
      -- the right index has come down to the left one
      have hmeet : shrink keep xs left right = left := by
        by_contra hne
        obtain ⟨y, hy, hykeep⟩ := hstop (by omega)
        have hone : shrink keep xs left right - 1 = left := by omega
        rw [hone, hget] at hy
        cases hy
        rw [hdrop] at hykeep
        cases hykeep
      simp only [hswap, if_false]
      exact ih h.retreat (by omega)
    · have hmeet : right = left := Nat.le_antisymm (by omega) h.order
      rw [if_neg hlt]
      subst hmeet
      exact ⟨.refl _, h⟩

end Sorted

theorem sorted_start (xs : List α) : Sorted keep xs 0 xs.length := by
  refine ⟨Nat.zero_le _, Nat.le_refl _, ?_, ?_⟩
  · intro i x hi
    omega
  · intro i x hi hx
    rw [getElem?_eq_none hi] at hx
    cases hx

theorem partition_perm (keep : α → Bool) (xs : List α) : (partition keep xs).1.Perm xs :=
  (partitionLoop_spec (sorted_start xs) (by omega)).1

theorem partition_sorted (keep : α → Bool) (xs : List α) :
    (∀ x ∈ (partition keep xs).1.take (partition keep xs).2, keep x = true) ∧
      ∀ x ∈ (partition keep xs).1.drop (partition keep xs).2, keep x = false := by
  have hsorted : Sorted keep (partition keep xs).1 (partition keep xs).2 (partition keep xs).2 :=
    (partitionLoop_spec (sorted_start xs) (by omega)).2
  constructor
  · intro x hx
    obtain ⟨i, hi, hx⟩ := mem_take_iff_getElem.mp hx
    exact hsorted.front i x (by omega) (List.getElem?_eq_some_iff.mpr ⟨by omega, hx⟩)
  · intro x hx
    obtain ⟨i, hi, hx⟩ := mem_drop_iff_getElem.mp hx
    exact hsorted.back ((partition keep xs).2 + i) x (by omega)
      (List.getElem?_eq_some_iff.mpr ⟨by omega, hx⟩)

theorem take_partition_perm (keep : α → Bool) (xs : List α) :
    ((partition keep xs).1.take (partition keep xs).2).Perm (xs.filter keep) := by
  obtain ⟨hfront, hback⟩ := partition_sorted keep xs
  have hfilter := (partition_perm keep xs).filter keep
  rw [← take_append_drop (partition keep xs).2 (partition keep xs).1, filter_append,
    filter_eq_self.mpr hfront, filter_eq_nil_iff.mpr, append_nil] at hfilter
  · exact hfilter
  · intro x hx
    simp [hback x hx]

theorem drop_partition_perm (keep : α → Bool) (xs : List α) :
    ((partition keep xs).1.drop (partition keep xs).2).Perm (xs.filter fun x => !keep x) := by
  obtain ⟨hfront, hback⟩ := partition_sorted keep xs
  have hfilter := (partition_perm keep xs).filter fun x => !keep x
  rw [← take_append_drop (partition keep xs).2 (partition keep xs).1, filter_append,
    filter_eq_nil_iff.mpr, filter_eq_self.mpr, nil_append] at hfilter
  · exact hfilter
  · intro x hx
    simp [hback x hx]
  · intro x hx
    simp [hfront x hx]

end InPlace
