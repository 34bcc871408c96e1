import Mathlib.Algebra.BigOperators.Finprod
import Mathlib.Data.List.AList

/-!
# The values of a table as a bag

A hash map is an association list with distinct keys, in an order that nothing may
depend on.  What an insertion and a removal do to its values is then a statement up to
order: which value goes, which one comes, and that the others stay.

Nothing here mentions a particular program.
-/

namespace Tables

open List AList

universe u v

variable {K : Type u} {V : Type v}

def values (table : AList fun _ : K => V) : List V := table.entries.map fun e => e.2

@[simp] theorem values_empty : values (∅ : AList fun _ : K => V) = [] := rfl

theorem exists_flatMap_set {α : Type u} {β : Type v} (f : α → List β) {as : List α} {i : Nat}
    {a : α} (h : as[i]? = some a) :
    ∃ rest, (as.flatMap f).Perm (f a ++ rest) ∧
      ∀ b, ((as.set i b).flatMap f).Perm (f b ++ rest) := by
  obtain ⟨hi, rfl⟩ := List.getElem?_eq_some_iff.mp h
  have hset : ∀ b, ((as.set i b).flatMap f).Perm
      (f b ++ (as.take i ++ as.drop (i + 1)).flatMap f) := by
    intro b
    rw [set_eq_take_append_cons_drop, if_pos hi]
    exact perm_middle.flatMap_right f
  refine ⟨_, ?_, hset⟩
  have hsame := hset as[i]
  rwa [set_getElem_self] at hsame

theorem getD_drop_append {α : Type u} (xs : List α) (e : α) (k n i : Nat) :
    (xs.drop k ++ replicate n e).getD i e = xs.getD (i + k) e := by
  rw [getD_eq_getElem?_getD, getD_eq_getElem?_getD]
  by_cases hi : i + k < xs.length
  · rw [getElem?_append_left (by rw [length_drop]; omega), getElem?_drop, Nat.add_comm]
  · rw [getElem?_append_right (by rw [length_drop]; omega), getElem?_replicate,
      getElem?_eq_none (by omega)]
    split <;> rfl

variable [DecidableEq K] {table : AList fun _ : K => V} {k : K} {v : V}

theorem values_erase (h : table.lookup k = some v) :
    (values table).Perm (v :: values (table.erase k)) := by
  have hmem : k ∈ table.keys := lookup_isSome.mp (by rw [h]; rfl)
  obtain ⟨u, xs, ys, -, hsplit, hrest⟩ := exists_of_kerase hmem
  have hin : (⟨k, u⟩ : Sigma fun _ : K => V) ∈ table.entries := by
    rw [hsplit]
    exact mem_append_right _ mem_cons_self
  have huv : v = u := Option.some.inj (h.symm.trans (mem_lookup_iff.mpr hin))
  have herase : (table.erase k).entries = xs ++ ys := hrest
  rw [values, values, herase, hsplit, map_append, map_append, map_cons, huv]
  exact perm_middle

theorem values_insert (table : AList fun _ : K => V) (k : K) (v : V) :
    values (table.insert k v) = v :: values (table.erase k) := by
  rw [values, entries_insert, map_cons]
  rfl

theorem values_insert_new (h : table.lookup k = none) (v : V) :
    values (table.insert k v) = v :: values table := by
  have hsame : (table.erase k).entries = table.entries :=
    kerase_of_notMem_keys (lookup_eq_none.mp h)
  rw [values_insert, values, values, hsame]

theorem finsum_update [Finite K] (f : K → Nat) (k : K) (n : Nat) :
    (∑ᶠ j, Function.update f k n j) + f k = (∑ᶠ j, f j) + n := by
  have := Fintype.ofFinite K
  rw [finsum_eq_sum_of_fintype, finsum_eq_sum_of_fintype,
    Finset.sum_update_of_mem (Finset.mem_univ k),
    Finset.sum_eq_add_sum_sdiff_singleton_of_mem (Finset.mem_univ k) f]
  omega

theorem lookup_insert (table : AList fun _ : K => V) (k k' : K) (v : V) :
    (table.insert k v).lookup k' = if k' = k then some v else table.lookup k' := by
  split_ifs with h
  · rw [h, AList.lookup_insert]
  · rw [lookup_insert_ne h]

theorem lookup_erase (table : AList fun _ : K => V) (k k' : K) :
    (table.erase k).lookup k' = if k' = k then none else table.lookup k' := by
  split_ifs with h
  · rw [h, AList.lookup_erase]
  · rw [lookup_erase_ne h]

end Tables
