import ZeroTrace.ChronoChains

/-!
# The values of a time map as a bag

What the operations on chains do to the values alone.  A user of a `ChronoMap`
that counts or sums what is in the map needs no more than these facts: which
value an operation takes out, which one it puts in, and that the others stay.
-/

namespace ZeroTrace.Chrono.Chains

open List

variable {T K V σ : Type}

def values (C : Chains T K V) : List V := (entries C).map fun e => e.2.2

@[simp] theorem values_nil : values ([] : Chains T K V) = [] := rfl

theorem values_append (C D : Chains T K V) : values (C ++ D) = values C ++ values D := by
  simp [values]

theorem values_push [LinearOrder T] (t : T) (e : K × V) (C : Chains T K V) :
    (values (push t e C)).Perm (e.2 :: values C) :=
  (entries_push t e C).map fun (e : K × T × V) => e.2.2

section Keys

variable [DecidableEq K]

theorem detach_setValue (k : K) (w : V) (C : Chains T K V) :
    detach k (setValue k w C) = detach k C := by
  have hchain : ∀ es : List (K × V),
      (es.map fun e => if e.1 = k then (e.1, w) else e).filter (fun e => !decide (e.1 = k)) =
        es.filter fun e => !decide (e.1 = k) := by
    intro es
    induction es with
    | nil => rfl
    | cons e es ih =>
      by_cases he : e.1 = k <;> simp [he, ih]
  unfold detach setValue
  rw [map_map]
  simp only [Function.comp_def, hchain]

variable {k : K} {t : T} {v : V} {C : Chains T K V}

theorem remove_of_find (hf : find k C = some (t, v)) : remove k C = (some v, detach k C) := by
  simp [remove, hf]

variable [LinearOrder T]

theorem insert_of_find_none (hf : find k C = none) : insert t k v C = (none, push t (k, v) C) := by
  simp [insert, hf]

variable (h : WellFormed C)

include h

theorem values_detach (hf : find k C = some (t, v)) :
    (values C).Perm (v :: values (detach k C)) := by
  have hmem := (find_eq_some h.keys).mp hf
  obtain ⟨xs, ys, hsplit⟩ := append_of_mem hmem
  have hkeys := h.keys
  rw [hsplit, map_append, map_cons, nodup_middle, nodup_cons, mem_append, not_or] at hkeys
  have hkeep : ∀ zs : List (K × T × V), k ∉ zs.map Prod.fst →
      zs.filter (fun e => !decide (e.1 = k)) = zs := by
    intro zs hzs
    apply filter_eq_self.mpr
    intro e he
    have hne : e.1 ≠ k := fun heq => hzs (heq ▸ mem_map_of_mem (f := Prod.fst) he)
    simp [hne]
  have hdetach : entries (detach k C) = xs ++ ys := by
    rw [entries_detach, hsplit, filter_append, hkeep xs hkeys.1.1,
      filter_cons_of_neg (by simp), hkeep ys hkeys.1.2]
  unfold values
  rw [hdetach, hsplit, map_append, map_cons, map_append]
  exact perm_middle

theorem find_setValue (hf : find k C = some (t, v)) (w : V) :
    find k (setValue k w C) = some (t, w) := by
  have hkeys : ((entries (setValue k w C)).map Prod.fst).Nodup := by
    rw [keys_setValue]
    exact h.keys
  apply (find_eq_some hkeys).mpr
  rw [entries_setValue]
  exact mem_map.mpr ⟨(k, t, v), (find_eq_some h.keys).mp hf, by simp⟩

theorem values_setValue (hf : find k C = some (t, v)) (w : V) :
    (values (setValue k w C)).Perm (w :: values (detach k C)) := by
  have hvalues := values_detach h.setValue (find_setValue h hf w)
  rwa [detach_setValue] at hvalues

theorem values_find (k : K) :
    (values C).Perm (((find k C).map Prod.snd).toList ++ values (detach k C)) := by
  cases hf : find k C with
  | none =>
    rw [detach_of_notMem h.full (find_eq_none.mp hf)]
    exact List.Perm.refl _
  | some found => exact values_detach h hf

theorem values_insert (t : T) (k : K) (v : V) :
    (values (insert t k v C).2).Perm (v :: values (detach k C)) := by
  cases hf : find k C with
  | none =>
    rw [insert_of_find_none hf, detach_of_notMem h.full (find_eq_none.mp hf)]
    exact values_push t (k, v) C
  | some found =>
    simp only [insert, hf]
    -- an entry of another time moves, one of this time is overwritten in place
    split
    · exact values_setValue h hf v
    · exact values_push t (k, v) _

theorem WellFormed.insert (t : T) (k : K) (v : V) : WellFormed (insert t k v C).2 := by
  cases hf : find k C with
  | none =>
    rw [insert_of_find_none hf]
    exact h.push (find_eq_none.mp hf)
  | some found =>
    simp only [Chains.insert, hf]
    split
    · exact h.setValue
    · exact h.detach.push (notMem_detach k C)

theorem removeOldest_cases :
    (values C = [] ∧ removeOldest C = (none, C)) ∨
      ∃ k t v, find k C = some (t, v) ∧ removeOldest C = (some v, detach k C) := by
  cases hC : entries C with
  | nil => exact .inl ⟨by simp [values, hC], by simp [removeOldest, hC]⟩
  | cons e es =>
    obtain ⟨k, t, v⟩ := e
    have hmem : (k, t, v) ∈ entries C := by
      rw [hC]
      exact mem_cons_self
    exact .inr ⟨k, t, v, (find_eq_some h.keys).mpr hmem, by simp [removeOldest, hC]⟩

end Keys

theorem drain_all (C : Chains T K V) :
    drain (fun _ => true) (entries C).length C = (values C, []) := by
  have hlen : (C.flatMap Prod.snd).length = (entries C).length := by rw [flatMap_snd, length_map]
  simp only [drain, filter_true, Bool.not_true, filter_false]
  rw [take_of_length_le hlen.le, flatMap_snd, map_map]
  rfl

section Forward

variable [LinearOrder T] {time : T} {callback : Callback T V σ}

/-- The values of the chains up to a time. -/
def expired (time : T) (C : Chains T K V) : List V :=
  values (C.takeWhile fun c => c.1 ≤ time)

/-- The chains behind a time. -/
def pending (time : T) (C : Chains T K V) : Chains T K V :=
  C.dropWhile fun c => c.1 ≤ time

theorem values_expired_pending (time : T) (C : Chains T K V) :
    values C = expired time C ++ values (pending time C) := by
  rw [expired, pending, ← values_append, takeWhile_append_dropWhile]

theorem WellFormed.pending {C : Chains T K V} (h : WellFormed C) (time : T) :
    WellFormed (pending time C) :=
  h.sublist (dropWhile_sublist _)

theorem expire_of_drop (hdrop : ∀ s v, (callback s v).1 = none) (es : List (K × V)) (s : σ)
    (C : Chains T K V) :
    expire time callback es s C =
      ((es.map Prod.snd).foldl (fun s v => (callback s v).2.2) s, C) := by
  induction es generalizing s with
  | nil => rfl
  | cons e es ih => simp [expire, hdrop, settle, ih]

theorem forwardTime_of_drop (hdrop : ∀ s v, (callback s v).1 = none) (s : σ) (C : Chains T K V) :
    forwardTime time callback s C =
      ((expired time C).foldl (fun s v => (callback s v).2.2) s, pending time C) := by
  rw [forwardTime, expire_of_drop hdrop, flatMap_snd, map_map]
  rfl

end Forward

end ZeroTrace.Chrono.Chains
