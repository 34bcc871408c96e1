import Mathlib.Data.BitVec

/-!
# Words packed from fields

A word that is put together with shifts and `|` is an append of bit vectors where its
fields do not overlap, and an append gives both parts back.  Where one value is laid over
bits of another that are clear there, the two can still be told apart.
-/

namespace PackedWords

open BitVec

variable {w v u : Nat} (x : BitVec w) {k : Nat}

theorem append_inj_iff {a c : BitVec w} {b d : BitVec v} : a ++ b = c ++ d ↔ a = c ∧ b = d := by
  constructor
  · intro h
    have hleft := congrArg (extractLsb' v w) h
    have hright := congrArg (extractLsb' 0 v) h
    rw [extractLsb'_append_eq_left, extractLsb'_append_eq_left] at hleft
    rw [extractLsb'_append_eq_right, extractLsb'_append_eq_right] at hright
    exact ⟨hleft, hright⟩
  · intro h
    rw [h.1, h.2]

theorem or_or_or_rotate (a b c d : BitVec w) : a ||| b ||| (c ||| d) = c ||| (d ||| b) ||| a := by
  ac_rfl

theorem or_shiftLeft_eq_append (a : BitVec w) (b : BitVec v) (hk : k = w) :
    a.setWidth u ||| b.setWidth u <<< k = (b ++ a).setWidth u := by
  rw [hk, BitVec.or_comm, BitVec.setWidth_append_eq_shiftLeft_setWidth_or]

theorem setWidth_shiftLeft_setWidth (h : w + k ≤ v) :
    (x.setWidth v <<< k).setWidth u = x.setWidth u <<< k := by
  ext i hi
  simp only [getElem_setWidth, getLsbD_shiftLeft, getElem_shiftLeft, getLsbD_setWidth]
  by_cases hv : i < v
  · grind
  · have hclear : x.getLsbD (i - k) = false := getLsbD_of_ge _ _ (by omega)
    grind

theorem setWidth_inj_iff (h : w ≤ v) {a b : BitVec w} : a.setWidth v = b.setWidth v ↔ a = b := by
  constructor
  · intro heq
    have hback := congrArg (setWidth w) heq
    rwa [setWidth_setWidth_of_le _ h, setWidth_setWidth_of_le _ h,
      setWidth_eq, setWidth_eq] at hback
  · intro heq
    rw [heq]

theorem overlay_inj_iff {a b x y m : BitVec w} (ha : a &&& m = 0#w) (hb : b &&& m = 0#w)
    (hx : x &&& m = x) (hy : y &&& m = y) : a ||| x = b ||| y ↔ a = b ∧ x = y := by
  have hinside : ∀ {c z : BitVec w}, c &&& m = 0#w → z &&& m = z → (c ||| z) &&& m = z := by
    intro c z hc hz
    rw [BitVec.and_comm, BitVec.and_or_distrib_left]
    rw [and_comm m c, and_comm m z, hc, hz, zero_or]
  have houtside : ∀ {c z : BitVec w}, c &&& m = 0#w → z &&& m = z → (c ||| z) &&& ~~~m = c := by
    intro c z hc hz
    rw [BitVec.and_comm, BitVec.and_or_distrib_left, ← hz]
    have hclear : ~~~m &&& (z &&& m) = 0#w := by
      rw [BitVec.and_comm z m, ← BitVec.and_assoc, BitVec.and_comm (~~~m) m, BitVec.and_not_self]
      exact zero_and
    have hkeep : ~~~m &&& c = c := by
      have hsplit : c &&& (m ||| ~~~m) = c := by rw [or_not_self, and_allOnes]
      rwa [BitVec.and_or_distrib_left, hc, zero_or, BitVec.and_comm] at hsplit
    rw [hclear, hkeep, or_zero]
  constructor
  · intro h
    refine ⟨?_, ?_⟩
    · rw [← houtside ha hx, h, houtside hb hy]
    · rw [← hinside ha hx, h, hinside hb hy]
  · intro h
    rw [h.1, h.2]

end PackedWords
