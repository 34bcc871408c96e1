import Mathlib.Algebra.Order.Ring.Nat
import Mathlib.Data.List.Nodup

/-!
# Indices made of single bits

A table that is addressed by some bits of a key has an index for each choice of these
bits.  `packFrom` writes bits at successive places of an index, `clear` takes the bits at
some places away, and `expand` lists the indices that agree with given ones except at some
places.

Nothing here mentions a particular program.
-/

namespace BitIndex

open List BitVec

variable {w : Nat} {j : Nat}

/-- Bits at successive places, the first of them at place `k`. -/
def packFrom (w k : Nat) : List Bool → BitVec w
  | [] => 0#w
  | b :: bs => (if b then BitVec.twoPow w k else 0#w) ||| packFrom w (k + 1) bs

theorem getLsbD_packFrom {k : Nat} (bs : List Bool) (hj : j < w) :
    (packFrom w k bs).getLsbD j = (decide (k ≤ j) && bs.getD (j - k) false) := by
  induction bs generalizing k with
  | nil => simp [packFrom]
  | cons b bs ih =>
    have hfirst : (if b then BitVec.twoPow w k else 0#w).getLsbD j = (b && decide (j = k)) := by
      cases b with
      | false => simp
      | true => simp [hj]
    rw [packFrom, getLsbD_or, ih, hfirst]
    rcases Nat.lt_trichotomy k j with hlt | rfl | hgt
    · have hstep : j - k = j - (k + 1) + 1 := by omega
      rw [hstep, getD_cons_succ]
      simp [hlt.ne', hlt.le, Nat.succ_le_of_lt hlt]
    · simp
    · have hle' : ¬ k + 1 ≤ j := by omega
      simp [hgt.ne, hgt.not_ge, hle']

def clear (offsets : List Nat) (x : BitVec w) : BitVec w :=
  offsets.foldl (fun x offset => x &&& ~~~ BitVec.twoPow w offset) x

theorem getLsbD_clear (offsets : List Nat) (x : BitVec w) (hj : j < w) :
    (clear offsets x).getLsbD j = (x.getLsbD j && !decide (j ∈ offsets)) := by
  induction offsets generalizing x with
  | nil => simp [clear]
  | cons offset offsets ih =>
    have hcons : clear (offset :: offsets) x =
      clear offsets (x &&& ~~~ BitVec.twoPow w offset) := rfl
    rw [hcons, ih, getLsbD_and, getLsbD_not, getLsbD_twoPow]
    by_cases heq : offset = j
    · simp [heq, hj]
    · have hne : ¬ j = offset := fun h => heq h.symm
      simp [heq, hne, hj]

/-- The indices that differ from given ones only by more bits at some places. -/
def expand (offsets : List Nat) (base : List (BitVec w)) : List (BitVec w) :=
  offsets.foldl (fun base offset => base ++ base.map (· ||| BitVec.twoPow w offset)) base

theorem expand_cons (offset : Nat) (offsets : List Nat) (base : List (BitVec w)) :
    expand (offset :: offsets) base =
      expand offsets (base ++ base.map (· ||| BitVec.twoPow w offset)) :=
  rfl

variable {offsets : List Nat} {base : List (BitVec w)}

theorem mem_expand {x : BitVec w} :
    x ∈ expand offsets base ↔
      ∃ y ∈ base, ∀ j, j < w →
        (y.getLsbD j = true → x.getLsbD j = true) ∧ (j ∉ offsets → x.getLsbD j = y.getLsbD j) := by
  induction offsets generalizing base with
  | nil =>
    constructor
    · intro hx
      exact ⟨x, hx, fun j _ => ⟨id, fun _ => rfl⟩⟩
    · rintro ⟨y, hy, hsame⟩
      have hxy : x = y := eq_of_getLsbD_eq fun j hj => (hsame j hj).2 not_mem_nil
      rwa [hxy]
  | cons offset offsets ih =>
    rw [expand_cons, ih]
    constructor
    · rintro ⟨y, hy, hsame⟩
      rcases mem_append.mp hy with hy | hy
      · refine ⟨y, hy, fun j hj => ⟨(hsame j hj).1, fun hnot => ?_⟩⟩
        exact (hsame j hj).2 fun hmem => hnot (mem_cons_of_mem _ hmem)
      obtain ⟨z, hz, rfl⟩ := mem_map.mp hy
      refine ⟨z, hz, fun j hj => ⟨fun hbit => (hsame j hj).1 ?_, fun hnot => ?_⟩⟩
      · rw [getLsbD_or, hbit, Bool.true_or]
      · have hne : ¬ offset = j := fun heq => hnot (heq ▸ mem_cons_self)
        rw [(hsame j hj).2 fun hmem => hnot (mem_cons_of_mem _ hmem), getLsbD_or, getLsbD_twoPow]
        simp [hne]
    rintro ⟨y, hy, hsame⟩
    -- the bit at the new place decides from which half the index comes
    by_cases hbit : x.getLsbD offset = true
    · refine ⟨y ||| BitVec.twoPow w offset,
        mem_append_right _ (mem_map_of_mem hy), fun j hj => ?_⟩
      rw [getLsbD_or, getLsbD_twoPow]
      by_cases heq : offset = j
      · subst heq
        simp [hbit, hj]
      refine ⟨fun h => (hsame j hj).1 (by simpa [heq] using h), fun hnot => ?_⟩
      have hnot' : j ∉ offset :: offsets := by
        simpa [hnot] using fun h : j = offset => heq h.symm
      simpa [heq] using (hsame j hj).2 hnot'
    · refine ⟨y, mem_append_left _ hy, fun j hj => ⟨(hsame j hj).1, fun hnot => ?_⟩⟩
      by_cases heq : j = offset
      · subst heq
        have hzero : x.getLsbD j = false := by simpa using hbit
        have hy' : y.getLsbD j = false := by
          by_contra hne
          exact hbit ((hsame j hj).1 (by simpa using hne))
        rw [hzero, hy']
      · exact (hsame j hj).2 (by simpa [heq] using hnot)

theorem mem_expand_clear {x y : BitVec w} :
    x ∈ expand offsets [clear offsets y] ↔
      ∀ j, j < w → j ∉ offsets → x.getLsbD j = y.getLsbD j := by
  rw [mem_expand]
  constructor
  · rintro ⟨z, hz, hsame⟩ j hj hnot
    rw [(hsame j hj).2 hnot, mem_singleton.mp hz, getLsbD_clear _ _ hj]
    simp [hnot]
  intro hsame
  refine ⟨_, mem_singleton_self _, fun j hj => ?_⟩
  rw [getLsbD_clear _ _ hj]
  by_cases hmem : j ∈ offsets
  · simp [hmem]
  · simp [hmem, hsame j hj hmem]

theorem nodup_expand (hbase : base.Nodup) (hoffsets : offsets.Nodup)
    (hlt : ∀ offset ∈ offsets, offset < w)
    (hclear : ∀ x ∈ base, ∀ offset ∈ offsets, x.getLsbD offset = false) :
    (expand offsets base).Nodup := by
  induction offsets generalizing base with
  | nil => exact hbase
  | cons offset offsets ih =>
    have hw := hlt offset mem_cons_self
    have hnew : ∀ x : BitVec w, (x ||| BitVec.twoPow w offset).getLsbD offset = true := by
      intro x
      simp [hw]
    have hzero : ∀ x ∈ base, x.getLsbD offset = false := fun x hx =>
      hclear x hx offset mem_cons_self
    rw [nodup_cons] at hoffsets
    rw [expand_cons]
    refine ih ?_ hoffsets.2 (fun o ho => hlt o (mem_cons_of_mem _ ho)) ?_
    · refine List.Nodup.append hbase (hbase.map_on ?_) ?_
      · intro x hx y hy heq
        apply eq_of_getLsbD_eq
        intro j hj
        by_cases hjo : offset = j
        · rw [← hjo, hzero x hx, hzero y hy]
        · have hbit := congrArg (·.getLsbD j) heq
          simpa [getLsbD_twoPow, hjo] using hbit
      · intro x hx hmem
        obtain ⟨y, -, rfl⟩ := mem_map.mp hmem
        have hfalse := hzero _ hx
        rw [hnew y] at hfalse
        cases hfalse
    · intro x hx o ho
      have hne : ¬ offset = o := fun heq => hoffsets.1 (heq ▸ ho)
      rcases mem_append.mp hx with hx | hx
      · exact hclear x hx o (mem_cons_of_mem _ ho)
      · obtain ⟨y, hy, rfl⟩ := mem_map.mp hx
        rw [getLsbD_or, hclear y hy o (mem_cons_of_mem _ ho), getLsbD_twoPow]
        simp [hne]

end BitIndex
