import ZeroTrace.RustExec
import Mathlib.Data.List.Basic

/-!
# Binary search

`binary_search_by` of the standard library: halve an index range, keeping the
half that may hold the key, and look at the one position that is left.  The
probe may panic (it may follow a pointer), so the search runs in `Exec`.

`binarySearch_spec` describes the result on strictly increasing keys: either
the position of the key, or the position where it would have to be inserted.
-/

namespace HalvingSearch

open RustExec List

/-- The loop: `base` may hold the key, nothing from `base + size` on does. -/
def halve (probe : Nat → Exec Ordering) : Nat → Nat → Nat → Exec Nat
  | 0, base, _ => .ok base
  | fuel + 1, base, size =>
    if 1 < size then do
      let half := size / 2
      let mid := base + half
      let c ← probe mid
      halve probe fuel (if c = .gt then base else mid) (size - half)
    else .ok base

/-- `binary_search_by` on `n` positions: the position of the key, or the
position to insert it at. -/
def binarySearch (n : Nat) (probe : Nat → Exec Ordering) :
    Exec (Except Nat Nat) :=
  if n = 0 then .ok (.error 0)
  else do
    let base ← halve probe n 0 n
    let c ← probe base
    match c with
    | .eq => return .ok base
    | .lt => return .error (base + 1)
    | .gt => return .error base

variable {T : Type} [LinearOrder T]

/-- What the result of a search for `t` among `keys` means. -/
def Located (keys : List T) (t : T) : Except Nat Nat → Prop
  | .ok i => ∃ xs ys, keys = xs ++ t :: ys ∧ xs.length = i
  | .error i => ∃ xs ys, keys = xs ++ ys ∧ xs.length = i ∧
      (∀ x ∈ xs, x < t) ∧ ∀ y ∈ ys, t < y

variable {keys : List T} {t : T} {probe : Nat → Exec Ordering}

/-- The loop ends at a position with only larger keys behind it, and with a key
that is not larger at it unless it is the first one. -/
theorem halve_spec (hsorted : keys.Pairwise (· < ·))
    (hprobe : ∀ i x, keys[i]? = some x → probe i = .ok (compare x t)) :
    ∀ fuel base size, size ≤ fuel + 1 → 0 < size →
      base + size ≤ keys.length →
      (∀ j x, base + size ≤ j → keys[j]? = some x → t < x) →
      (base = 0 ∨ ∀ x, keys[base]? = some x → x ≤ t) →
      ∃ b, halve probe fuel base size = .ok b ∧ b < keys.length ∧
        (∀ j x, b < j → keys[j]? = some x → t < x) ∧
        (b = 0 ∨ ∀ x, keys[b]? = some x → x ≤ t) := by
  intro fuel
  induction fuel with
  | zero =>
    intro base size hfuel hpos hlen habove hbase
    exact ⟨base, rfl, by omega, fun j x hj hx => habove j x (by omega) hx, hbase⟩
  | succ fuel ih =>
    intro base size hfuel hpos hlen habove hbase
    by_cases hsize : 1 < size
    · have hmid : base + size / 2 < keys.length := by omega
      have hget : keys[base + size / 2]? = some keys[base + size / 2] := getElem?_eq_getElem hmid
      have hcmp := hprobe _ _ hget
      simp only [halve, if_pos hsize, hcmp, ok_bind]
      by_cases hgt : t < keys[base + size / 2]
      · rw [if_pos (compare_gt_iff_gt.mpr hgt)]
        refine ih base (size - size / 2) (by omega) (by omega) (by omega) ?_ hbase
        -- everything behind the middle is larger still
        intro j x hj hx
        obtain ⟨hjlen, rfl⟩ := List.getElem?_eq_some_iff.mp hx
        rcases Nat.lt_or_ge (base + size / 2) j with hlt | hge
        · exact hgt.trans (pairwise_iff_getElem.mp hsorted _ _ hmid hjlen hlt)
        · have hj' : j = base + size / 2 := by omega
          subst hj'
          exact hgt
      · have hne : compare keys[base + size / 2] t ≠ .gt := fun h => hgt (compare_gt_iff_gt.mp h)
        rw [if_neg hne]
        refine ih (base + size / 2) (size - size / 2) (by omega) (by omega)
          (by omega) ?_ (.inr ?_)
        · intro j x hj hx
          exact habove j x (by omega) hx
        intro x hx
        rw [hget] at hx
        cases hx
        exact not_lt.mp hgt
    · refine ⟨base, by simp [halve, hsize], by omega, ?_, hbase⟩
      intro j x hj hx
      exact habove j x (by omega) hx

/-- **Binary search on increasing keys** finds the key or its place. -/
theorem binarySearch_spec (hsorted : keys.Pairwise (· < ·))
    (hprobe : ∀ i x, keys[i]? = some x → probe i = .ok (compare x t)) :
    ∃ r, binarySearch keys.length probe = .ok r ∧ Located keys t r := by
  by_cases hzero : keys.length = 0
  · refine ⟨.error 0, by simp [binarySearch, hzero], [], keys, rfl, rfl, by simp, ?_⟩
    simp [length_eq_zero_iff.mp hzero]
  obtain ⟨b, hloop, hb, habove, hbase⟩ := halve_spec hsorted hprobe keys.length 0
    keys.length (by omega) (by omega) (by omega)
    (fun j x hj hx => by
      obtain ⟨hlt, -⟩ := List.getElem?_eq_some_iff.mp hx
      omega) (.inl rfl)
  have hget : keys[b]? = some keys[b] := getElem?_eq_getElem hb
  have hsplit : keys = keys.take b ++ keys[b] :: keys.drop (b + 1) := by
    rw [← drop_eq_getElem_cons, take_append_drop]
  have htake : (keys.take b).length = b := length_take_of_le (Nat.le_of_lt hb)
  have hdrop : ∀ y ∈ keys.drop (b + 1), t < y := by
    intro y hy
    obtain ⟨i, hi, rfl⟩ := getElem_of_mem hy
    rw [getElem_drop]
    rw [length_drop] at hi
    exact habove (b + 1 + i) _ (by omega) (getElem?_eq_getElem (by omega))
  have hsearch : binarySearch keys.length probe = (match compare keys[b] t with
      | .eq => return .ok b
      | .lt => return .error (b + 1)
      | .gt => return .error b) := by
    simp only [binarySearch, if_neg hzero, hloop, ok_bind, hprobe b _ hget]
  rw [hsearch]
  rcases lt_trichotomy keys[b] t with hlt | heq | hgt
  · rw [compare_lt_iff_lt.mpr hlt]
    refine ⟨.error (b + 1), rfl, keys.take b ++ [keys[b]], keys.drop (b + 1),
      by simp, by simp; omega, ?_, hdrop⟩
    intro x hx
    rcases mem_append.mp hx with hx | hx
    · rw [hsplit] at hsorted
      exact ((pairwise_append.mp hsorted).2.2 x hx _ mem_cons_self).trans hlt
    · rwa [mem_singleton.mp hx]
  · rw [compare_eq_iff_eq.mpr heq]
    exact ⟨.ok b, rfl, keys.take b, keys.drop (b + 1), heq ▸ hsplit, htake⟩
  · rw [compare_gt_iff_gt.mpr hgt]
    -- only the first position can hold a larger key
    have hzero' : b = 0 := by
      rcases hbase with h | h
      · exact h
      · exact absurd hgt (not_lt.mpr (h _ hget))
    refine ⟨.error b, rfl, [], keys, rfl, by simp [hzero'], by simp, ?_⟩
    intro y hy
    rw [hsplit] at hy
    rcases mem_append.mp hy with hy | hy
    · simp [hzero'] at hy
    · exact forall_mem_cons.mpr ⟨hgt, hdrop⟩ y hy

end HalvingSearch
