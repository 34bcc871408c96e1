import ZeroTrace.TableValues

/-!
# Caches with least-recently-used eviction

`Crate` is what is known of the crate `lru`: a type of caches of bounded size,
which list their entries in the order of their last use, the most recent one
first, and what the operations do to that list, by the documentation.  Using an
entry moves it to the front; an insertion into a full cache drops the last entry.
All proofs about a cache are for any such type.  The lists themselves are one,
on which what is said can be evaluated.

Where a cache has room for a key, it is a plain finite map, and this file says
so: what is found under each key after each operation, and how a sum over all
entries changes.
-/

namespace Lru

open List AList

/-- A type of caches, with its laws.  `place` puts an entry in front and `remove` takes one
out; `get`, `put`, `push` and `pop` are made of them. -/
class Crate where
  LruCache : Type → Type → Type
  cap {K V : Type} : LruCache K V → Nat
  store {K V : Type} : LruCache K V → AList fun _ : K => V
  bounded {K V : Type} (c : LruCache K V) : (store c).entries.length ≤ cap c
  new {K V : Type} : Nat → LruCache K V
  cap_new {K V : Type} (n : Nat) : cap (new n : LruCache K V) = n
  store_new {K V : Type} (n : Nat) : store (new n : LruCache K V) = ∅
  resize {K V : Type} : LruCache K V → Nat → LruCache K V
  cap_resize {K V : Type} (c : LruCache K V) (n : Nat) : cap (resize c n) = n
  entries_resize {K V : Type} (c : LruCache K V) (n : Nat) :
    (store (resize c n)).entries = (store c).entries.take n
  place {K V : Type} [DecidableEq K] : LruCache K V → K → V → LruCache K V
  cap_place {K V : Type} [DecidableEq K] (c : LruCache K V) (k : K) (v : V) :
    cap (place c k v) = cap c
  entries_place {K V : Type} [DecidableEq K] (c : LruCache K V) (k : K) (v : V) :
    (store (place c k v)).entries = ((store c).insert k v).entries.take (cap c)
  remove {K V : Type} [DecidableEq K] : LruCache K V → K → LruCache K V
  cap_remove {K V : Type} [DecidableEq K] (c : LruCache K V) (k : K) :
    cap (remove c k) = cap c
  store_remove {K V : Type} [DecidableEq K] (c : LruCache K V) (k : K) :
    store (remove c k) = (store c).erase k

attribute [simp] Crate.cap_new Crate.cap_resize Crate.cap_place Crate.cap_remove

/-- The entries of a cache, most recently used first. -/
structure Entries (K V : Type) where
  cap : Nat
  store : AList fun _ : K => V
  bounded : store.entries.length ≤ cap

instance : Crate where
  LruCache := Entries
  cap := Entries.cap
  store := Entries.store
  bounded := Entries.bounded
  new n := ⟨n, ∅, Nat.zero_le _⟩
  cap_new _ := rfl
  store_new _ := rfl
  resize c n :=
    ⟨n, ⟨c.store.entries.take n, c.store.nodupKeys.sublist (take_sublist _ _)⟩,
      length_take_le _ _⟩
  cap_resize _ _ := rfl
  entries_resize _ _ := rfl
  place c k v :=
    ⟨c.cap, ⟨(c.store.insert k v).entries.take c.cap,
      (c.store.insert k v).nodupKeys.sublist (take_sublist _ _)⟩, length_take_le _ _⟩
  cap_place _ _ _ := rfl
  entries_place _ _ _ := rfl
  remove c k :=
    ⟨c.cap, c.store.erase k, (kerase_sublist k c.store.entries).length_le.trans c.bounded⟩
  cap_remove _ _ := rfl
  store_remove _ _ := rfl

namespace Crate.LruCache

export Crate (cap store bounded new resize place remove)

variable [Crate] {K V : Type} (c : LruCache K V)

/-- The number of entries. -/
def len : Nat := c.store.entries.length

/-- The cached keys, most recently used first. -/
def keys : List K := c.store.keys

theorem keys_new (cap : Nat) : (new cap : LruCache K V).keys = [] := by
  rw [keys, store_new]
  rfl

theorem keys_nodup : c.keys.Nodup := c.store.keys_nodup

def weigh (w : K → V → Nat) (c : LruCache K V) : Nat :=
  (c.store.entries.map fun e => w e.1 e.2).sum

theorem weigh_new (w : K → V → Nat) (cap : Nat) : weigh w (new cap) = 0 := by
  rw [weigh, store_new]
  rfl

variable [DecidableEq K] (c : LruCache K V) (k : K) (v : V)

/-- `peek`: the value of a key, without using it. -/
def peek : Option V := c.store.lookup k

/-- `get`, which uses the entry. -/
def get : Option V × LruCache K V :=
  match c.peek k with
  | some v => (some v, c.place k v)
  | none => (none, c)

/-- `put`, which returns the old value. -/
def put : Option V × LruCache K V :=
  (c.peek k, c.place k v)

/-- `push`, which returns the replaced or the evicted entry. -/
def push : Option (K × V) × LruCache K V :=
  (match c.peek k with
    | some old => some (k, old)
    | none => ((c.store.insert k v).entries.drop c.cap).head?.map fun e => (e.1, e.2),
    c.place k v)

def pop : Option V × LruCache K V := (c.peek k, c.remove k)

def getOrInsert : V × LruCache K V :=
  match c.peek k with
  | some old => (old, c.place k old)
  | none => (v, c.place k v)

/-- The key is cached already or the cache is not full: using the key evicts
nothing. -/
def Room : Prop := (c.peek k).isSome ∨ c.len < c.cap

instance : Decidable (c.Room k) :=
  inferInstanceAs (Decidable (_ ∨ _))

variable {c k v} {j : K} (w : K → V → Nat)

theorem room_of_peek (h : c.peek k = some v) : c.Room k := .inl (by simp [h])

theorem room_new {cap : Nat} (h : 0 < cap) (k : K) : (new cap : LruCache K V).Room k := by
  refine .inr ?_
  rw [len, store_new, cap_new]
  exact h

theorem mem_keys_iff : k ∈ c.keys ↔ (c.peek k).isSome := lookup_isSome.symm

theorem peek_of_len_eq_zero (h : c.len = 0) (k : K) : c.peek k = none := by
  have hnil : c.store = ∅ := AList.ext (length_eq_zero_iff.mp h)
  rw [peek, hnil, lookup_empty]

theorem place_store (h : c.Room k) (v : V) : (c.place k v).store = c.store.insert k v := by
  apply AList.ext
  rw [entries_place]
  apply take_of_length_le
  rw [entries_insert, length_cons]
  rcases h with hsome | hlt
  · have hmem : k ∈ c.store.keys := mem_keys_iff.mpr hsome
    obtain ⟨u, xs, ys, -, hsplit, hrest⟩ := exists_of_kerase hmem
    have hbound := c.bounded
    rw [hsplit, length_append, length_cons] at hbound
    rw [hrest, length_append]
    omega
  · have hle := (kerase_sublist k c.store.entries).length_le
    unfold len at hlt
    omega

theorem peek_place_of_room (h : c.Room k) (v : V) (j : K) :
    (c.place k v).peek j = if j = k then some v else c.peek j := by
  rw [peek, place_store h, Tables.lookup_insert]
  rfl

theorem peek_place_self (h : c.Room k) (v : V) : (c.place k v).peek k = some v := by
  rw [peek_place_of_room h, if_pos rfl]

theorem peek_place_ne (h : c.Room k) (hj : j ≠ k) (v : V) : (c.place k v).peek j = c.peek j := by
  rw [peek_place_of_room h, if_neg hj]

theorem peek_resize {cap : Nat} (h : c.len ≤ cap) (k : K) :
    (c.resize cap).peek k = c.peek k := by
  have hstore : (c.resize cap).store = c.store :=
    AList.ext ((entries_resize c cap).trans (take_of_length_le h))
  rw [peek, hstore]
  rfl

@[simp] theorem peek_remove_self (c : LruCache K V) (k : K) : (c.remove k).peek k = none := by
  rw [peek, store_remove, lookup_erase]

theorem peek_remove_ne (hj : j ≠ k) : (c.remove k).peek j = c.peek j := by
  rw [peek, store_remove, lookup_erase_ne hj, peek]

theorem peek_foldl_remove (ks : List K) (c : LruCache K V) (j : K) :
    (ks.foldl remove c).peek j = if j ∈ ks then none else c.peek j := by
  induction ks generalizing c with
  | nil => rfl
  | cons k ks ih =>
    rw [foldl_cons, ih]
    by_cases hj : j = k
    · simp [hj]
    · simp [hj, peek_remove_ne hj]

/-- Whatever falls off, what is cached after `place` was put there or had been cached. -/
theorem peek_place_cases {u : V} (h : (c.place k v).peek j = some u) :
    (j = k ∧ u = v) ∨ c.peek j = some u := by
  have hmem := mem_lookup_iff.mp h
  rw [entries_place] at hmem
  have hmem := mem_of_mem_take hmem
  rw [entries_insert, mem_cons] at hmem
  rcases hmem with heq | hmem
  · cases heq
    exact Or.inl ⟨rfl, rfl⟩
  · exact Or.inr (mem_lookup_iff.mpr ((kerase_sublist k c.store.entries).subset hmem))

@[simp] theorem peek_new (cap : Nat) (k : K) : (new cap : LruCache K V).peek k = none := by
  rw [peek, store_new, lookup_empty]

theorem weigh_remove (h : c.peek k = some v) : weigh w (c.remove k) + w k v = weigh w c := by
  have hmem : k ∈ c.store.keys := mem_keys_iff.mpr (by simp [h])
  obtain ⟨u, xs, ys, hnot, hsplit, hrest⟩ := exists_of_kerase hmem
  have huv : u = v := by
    have hin : (⟨k, u⟩ : Sigma fun _ : K => V) ∈ c.store.entries := by
      rw [hsplit]
      exact mem_append_right _ mem_cons_self
    have hlookup : c.peek k = some u := mem_lookup_iff.mpr hin
    rw [h] at hlookup
    exact (Option.some.inj hlookup).symm
  subst huv
  have herase : (c.remove k).store.entries = xs ++ ys := by
    rw [store_remove]
    exact hrest
  rw [weigh, weigh, herase, hsplit]
  simp only [map_append, map_cons, sum_append, sum_cons]
  omega

theorem weigh_eq_zero (h : ∀ k v, c.peek k = some v → w k v = 0) : weigh w c = 0 := by
  apply List.sum_eq_zero_iff_forall_eq_nat.mpr
  exact List.forall_mem_map.mpr fun e he => h e.1 e.2 (mem_lookup_iff.mpr he)

/-- The weight of what is found under a key. -/
def weighAt (w : K → V → Nat) (k : K) : Option V → Nat
  | some v => w k v
  | none => 0

/-- `c'` is `c` with `new` under the key `k`: every other key keeps its value,
and every sum over the entries changes by this exchange. -/
structure Sets (c c' : LruCache K V) (k : K) (new : Option V) : Prop where
  self : c'.peek k = new
  other : ∀ j, j ≠ k → c'.peek j = c.peek j
  weight : ∀ w : K → V → Nat, weigh w c' + weighAt w k (c.peek k) = weigh w c + weighAt w k new

theorem Sets.refl (c : LruCache K V) (k : K) : Sets c c k (c.peek k) :=
  ⟨rfl, fun _ _ => rfl, fun _ => rfl⟩

theorem Sets.trans {c d e : LruCache K V} {a b : Option V} (h : Sets c d k a) (h' : Sets d e k b) :
    Sets c e k b := by
  refine ⟨h'.self, ?_, ?_⟩
  · intro j hj
    rw [h'.other j hj, h.other j hj]
  intro w
  have hfirst := h.weight w
  have hsecond := h'.weight w
  rw [h.self] at hsecond
  omega

theorem sets_remove (c : LruCache K V) (k : K) : Sets c (c.remove k) k none := by
  refine ⟨peek_remove_self c k, fun j hj => peek_remove_ne hj, ?_⟩
  intro w
  cases h : c.peek k with
  | some v => exact weigh_remove w h
  | none =>
    have hsame : (c.remove k).store.entries = c.store.entries := by
      rw [store_remove]
      exact kerase_of_notMem_keys (lookup_eq_none.mp h)
    rw [weigh, weigh, hsame]

theorem sets_place (h : c.Room k) (v : V) : Sets c (c.place k v) k (some v) := by
  refine ⟨peek_place_self h v, fun j hj => peek_place_ne h hj v, ?_⟩
  intro w
  have hin : weigh w (c.place k v) = w k v + weigh w (c.remove k) := by
    rw [weigh, place_store h, entries_insert, map_cons, sum_cons, weigh, store_remove]
    rfl
  have hout := (sets_remove c k).weight w
  simp only [weighAt] at hout ⊢
  omega

theorem sets_get (c : LruCache K V) (k : K) : Sets c (c.get k).2 k (c.peek k) := by
  unfold get
  cases h : c.peek k with
  | some v => exact sets_place (room_of_peek h) v
  | none =>
    have hself := Sets.refl c k
    rwa [h] at hself

@[simp] theorem get_fst (c : LruCache K V) (k : K) : (c.get k).1 = c.peek k := by
  unfold get
  cases h : c.peek k <;> rfl

theorem peek_get (c : LruCache K V) (k j : K) : (c.get k).2.peek j = c.peek j := by
  by_cases hj : j = k
  · rw [hj, (sets_get c k).self]
  · exact (sets_get c k).other j hj

theorem Room.get (h : c.Room k) : (c.get k).2.Room k := by
  unfold LruCache.get
  cases hk : c.peek k with
  | some v => exact room_of_peek (peek_place_self h v)
  | none => exact h

theorem sets_getOrInsert (h : c.Room k) (v : V) :
    Sets c (c.getOrInsert k v).2 k (some ((c.peek k).getD v)) := by
  unfold getOrInsert
  cases hk : c.peek k with
  | some u => exact sets_place h u
  | none => exact sets_place h v

@[simp] theorem getOrInsert_fst (c : LruCache K V) (k : K) (v : V) :
    (c.getOrInsert k v).1 = (c.peek k).getD v := by
  unfold getOrInsert
  cases hk : c.peek k <;> rfl

theorem Sets.room {c' : LruCache K V} (h : Sets c c' k (some v)) : c'.Room k :=
  room_of_peek h.self

/-- With room for the key, `push` gives back no entry of another key. -/
theorem push_fst (h : c.Room k) (v : V) : (c.push k v).1 = (c.peek k).map fun old => (k, old) := by
  unfold push
  cases hk : c.peek k with
  | some old => rfl
  | none =>
    have hplace : (c.place k v).store = c.store.insert k v := place_store h v
    have hlen : (c.store.insert k v).entries.length ≤ c.cap := by
      rw [← hplace, ← cap_place c k v]
      exact (c.place k v).bounded
    rw [drop_eq_nil_of_le hlen]
    rfl

/-- The key that makes way when `k` is used: the least recently used one, and
only if there is no room. -/
def evicted (c : LruCache K V) (k : K) : Option K :=
  if c.Room k then none else c.keys.getLast?

theorem evicted_of_room (h : c.Room k) : c.evicted k = none := if_pos h

theorem evicted_mem (h : c.evicted k = some j) : j ∈ c.keys := by
  unfold evicted at h
  split at h
  · cases h
  · exact mem_of_getLast? h

theorem full_of_not_room (h : ¬ c.Room k) : c.peek k = none ∧ c.store.entries.length = c.cap := by
  unfold Room at h
  push Not at h
  have hbound := c.bounded
  refine ⟨by simpa using h.1, ?_⟩
  have hfull := h.2
  unfold len at hfull
  omega

theorem exists_evicted (hcap : 0 < c.cap) (h : ¬ c.Room k) :
    ∃ es e, c.store.entries = es ++ [e] ∧ c.evicted k = some e.1 := by
  obtain ⟨-, hlen⟩ := full_of_not_room h
  have hne : c.store.entries ≠ [] := by
    intro hnil
    rw [hnil, length_nil] at hlen
    omega
  refine ⟨c.store.entries.dropLast, c.store.entries.getLast hne,
    (dropLast_append_getLast hne).symm, ?_⟩
  rw [evicted, if_neg h]
  change (c.store.entries.map Sigma.fst).getLast? = _
  rw [getLast?_map, getLast?_eq_getLast_of_ne_nil hne]
  rfl

theorem insert_entries (h : ¬ c.Room k) (v : V) {es : List (Sigma fun _ : K => V)}
    {e : Sigma fun _ : K => V} (hsplit : c.store.entries = es ++ [e]) :
    (c.store.insert k v).entries = ⟨k, v⟩ :: (es ++ [e]) ∧ c.cap = es.length + 1 := by
  obtain ⟨hnone, hlen⟩ := full_of_not_room h
  have hsame : List.kerase k c.store.entries = c.store.entries :=
    kerase_of_notMem_keys (lookup_eq_none.mp hnone)
  refine ⟨by rw [entries_insert, hsame, hsplit], ?_⟩
  rw [← hlen, hsplit, length_append, length_singleton]

/-- **What a cache holds after an entry was put in front.** -/
theorem peek_place (hcap : 0 < c.cap) (k : K) (v : V) (j : K) :
    (c.place k v).peek j =
      if j = k then some v else if c.evicted k = some j then none else c.peek j := by
  by_cases hroom : c.Room k
  · rw [evicted_of_room hroom, peek_place_of_room hroom]
    simp
  obtain ⟨es, e, hsplit, hevicted⟩ := exists_evicted hcap hroom
  obtain ⟨hentries, hcount⟩ := insert_entries hroom v hsplit
  have hplace : (c.place k v).peek j = (⟨k, v⟩ :: es).dlookup j := by
    change (c.place k v).store.entries.dlookup j = _
    rw [entries_place, hentries, hcount, take_succ_cons, take_left]
  have hold : c.peek j = (es ++ [e]).dlookup j := by
    rw [← hsplit]
    rfl
  have hnodup : (es ++ [e]).NodupKeys := hsplit ▸ c.store.nodupKeys
  rw [hplace, hold, hevicted]
  by_cases hj : j = k
  · subst hj
    rw [if_pos rfl, dlookup_cons_eq]
  rw [if_neg hj, dlookup_cons_ne _ _ hj, dlookup_append]
  by_cases hlast : e.1 = j
  · -- keys are distinct, so the dropped one is nowhere else
    have hnot : j ∉ es.keys := by
      rw [List.NodupKeys, keys_append, nodup_append] at hnodup
      intro hmem
      exact hnodup.2.2 j hmem e.1 (by simp) hlast.symm
    rw [if_pos (by rw [hlast]), dlookup_eq_none.mpr hnot]
  · rw [if_neg (by simpa using hlast), dlookup_cons_ne _ _ (Ne.symm hlast)]
    simp

/-- A new key that is pushed gives back the one that makes way. -/
theorem push_fst_of_peek_none (hcap : 0 < c.cap) (h : c.peek k = none) (v : V) :
    (c.push k v).1.map Prod.fst = c.evicted k := by
  by_cases hroom : c.Room k
  · rw [push_fst hroom, h, evicted_of_room hroom]
    rfl
  obtain ⟨es, e, hsplit, hevicted⟩ := exists_evicted hcap hroom
  obtain ⟨hentries, hcount⟩ := insert_entries hroom v hsplit
  simp only [push, h]
  rw [hentries, hcount, drop_succ_cons, drop_left, hevicted]
  rfl

end Crate.LruCache

end Lru
