import Mathlib.Algebra.Order.Ring.Nat

/-!
# The searches of the unwinder in the kernel

`find_shard` and `find_unwind_entry` look for the last entry that starts at or
below a program counter.  The verifier of the kernel wants a loop with a fixed
number of turns, and the test that the range is empty stands at the start of a
turn: `n` entries need one turn more than they need halvings.  The 17 turns for
entries are enough for every shard; the 10 turns for shards are enough for 511
of the 1024 a process may have.
-/

namespace ZeroTrace.Unwind

open BitVec

def loopExhausted : Nat := 0xFFFFFFFF

def entryNotFound : Nat := 0xFFFFFFFE

def unwindShardsPerProcess : Nat := 1024

def unwindEntriesPerShard : Nat := 65535

/-- The fields of `shard_info_t` that `find_shard` reads. -/
structure ShardInfo where
  offset : BitVec 64
  pcMin : BitVec 64

/-- The loop both searches have, on the keys of the entries. -/
def search (limit : Nat) (key : Nat → BitVec 64) (pc : BitVec 64) :
    Nat → Int → Int → Nat → Nat
  | 0, _, _, _ => loopExhausted
  | loops + 1, i, j, found =>
    if j < i then found
    else
      let mid := i + (j - i) / 2
      if mid < 0 ∨ limit ≤ mid then entryNotFound
      else if key mid.toNat ≤ pc then search limit key pc loops (mid + 1) j mid.toNat
      else search limit key pc loops i (mid - 1) found

/-- The sum by which the shards are sorted; the addition wraps. -/
def shardKey (list : List ShardInfo) (m : Nat) : BitVec 64 :=
  ((list[m]?).map fun info => info.offset + info.pcMin).getD 0

/-- `find_shard`, with `SHARD_BSEARCH_LOOPS`. -/
def findShard (list : List ShardInfo) (left right : Int) (pc : BitVec 64) : Nat :=
  search unwindShardsPerProcess (shardKey list) pc 10 left (right - 1) entryNotFound

/-- `find_unwind_entry` on the program counters of a shard, with
`ENTRY_BSEARCH_LOOPS`. -/
def findUnwindEntry (list : List (BitVec 64)) (left right : BitVec 16) (pc : BitVec 64) : Nat :=
  search unwindEntriesPerShard (fun m => list.getD m 0) pc 17 left.toNat (right.toNat - 1)
    entryNotFound

/-- The keys of a range do not decrease. -/
def Ascending (key : Nat → BitVec 64) (left right : Nat) : Prop :=
  ∀ a b, left ≤ a → a ≤ b → b < right → key a ≤ key b

/-- The last position of a range whose key is not above the program counter, or
that there is none. -/
def IsLast (key : Nat → BitVec 64) (pc : BitVec 64) (left right result : Nat) : Prop :=
  (result = entryNotFound ∧ ∀ m, left ≤ m → m < right → pc < key m) ∨
    (left ≤ result ∧ result < right ∧ key result ≤ pc ∧
      ∀ m, result < m → m < right → pc < key m)

variable {limit left right : Nat} {key : Nat → BitVec 64} {pc : BitVec 64}

theorem mid_eq {i size : Nat} (hsize : 0 < size) :
    (i : Int) + ((i : Int) + size - 1 - i) / 2 = ((i + (size - 1) / 2 : Nat) : Int) := by
  omega

theorem search_turn {loops i size found : Nat} (hsize : 0 < size)
    (hlimit : i + (size - 1) / 2 < limit) :
    search limit key pc (loops + 1) i (i + size - 1) found =
      if key (i + (size - 1) / 2) ≤ pc then
        search limit key pc loops (i + (size - 1) / 2 + 1 : Nat)
          ((i + (size - 1) / 2 + 1 : Nat) + (size / 2 : Nat) - 1) (i + (size - 1) / 2)
      else search limit key pc loops i (i + ((size - 1) / 2 : Nat) - 1) found := by
  have hnotEmpty : ¬ (i : Int) + size - 1 < i := by omega
  have hinside : ¬ (((i + (size - 1) / 2 : Nat) : Int) < 0 ∨
      (limit : Int) ≤ ((i + (size - 1) / 2 : Nat) : Int)) := by omega
  have hupper : (i : Int) + size - 1 =
      ((i + (size - 1) / 2 + 1 : Nat) : Int) + (size / 2 : Nat) - 1 := by omega
  rw [search, if_neg hnotEmpty, mid_eq hsize]
  rw [if_neg hinside, Int.toNat_natCast]
  congr 1
  rw [hupper]
  rfl

theorem isLast_found {i found : Nat} (hi : i ≤ right) (habove : ∀ m, i ≤ m → m < right → pc < key m)
    (hfound : found = entryNotFound ∧ i = left ∨ found + 1 = i ∧ left ≤ found ∧ key found ≤ pc) :
    IsLast key pc left right found := by
  rcases hfound with ⟨rfl, rfl⟩ | ⟨rfl, hleft, hkey⟩
  · exact .inl ⟨rfl, habove⟩
  · exact .inr ⟨hleft, hi, hkey, habove⟩

/-- **Enough turns.** A range of fewer than `2 ^ n` positions is searched in
`n + 1` turns.  The invariant: positions below the range are not above the
program counter, and `found` is the last of them; those behind it are above. -/
theorem search_isLast (hsorted : Ascending key left right) (hright : right ≤ limit) (n : Nat) :
    ∀ i size found, size < 2 ^ n → left ≤ i → i + size ≤ right →
      (∀ m, i + size ≤ m → m < right → pc < key m) →
      (found = entryNotFound ∧ i = left ∨ found + 1 = i ∧ left ≤ found ∧ key found ≤ pc) →
      IsLast key pc left right (search limit key pc (n + 1) i (i + size - 1) found) := by
  induction n with
  | zero =>
    intro i size found hsize hi hfit habove hfound
    obtain rfl : size = 0 := by omega
    rw [search, if_pos (by omega)]
    exact isLast_found hfit habove hfound
  | succ n ih =>
    intro i size found hsize hi hfit habove hfound
    rcases Nat.eq_zero_or_pos size with rfl | hpos
    · rw [search, if_pos (by omega)]
      exact isLast_found hfit habove hfound
    rw [search_turn hpos (by omega)]
    split
    next hle =>
      refine ih _ (size / 2) _ (by omega) (by omega) (by omega) ?_ ?_
      · exact fun m hm => habove m (by omega)
      · exact .inr ⟨rfl, by omega, hle⟩
    next hgt =>
      refine ih i ((size - 1) / 2) found (by omega) hi (by omega) ?_ hfound
      intro m hm hlt
      have hmid := hsorted (i + (size - 1) / 2) m (by omega) hm hlt
      rw [lt_def]
      rw [le_def] at hgt hmid
      omega

/-- **Too few turns.** If no key is above the program counter, `n + 1` turns do
not get through `2 ^ n` positions. -/
theorem search_exhausted (hright : right ≤ limit) (hall : ∀ m, m < right → key m ≤ pc) (n : Nat) :
    ∀ i size found, 2 ^ n ≤ size → i + size ≤ right →
      search limit key pc (n + 1) i (i + size - 1) found = loopExhausted := by
  induction n with
  | zero =>
    intro i size found hsize hfit
    rw [search_turn (by omega) (by omega), if_pos (hall _ (by omega)), search]
  | succ n ih =>
    intro i size found hsize hfit
    have hpow := Nat.two_pow_pos n
    rw [search_turn (by omega) (by omega), if_pos (hall _ (by omega))]
    exact ih _ (size / 2) _ (by omega) (by omega)

/-- **The two searches.** For every sorted list of at most 1024 shards,
`find_shard` gives the last shard that starts at or below the program counter,
for every program counter, if and only if there are fewer than 512 shards; and
`find_unwind_entry` gives the last entry of every sorted range of every shard. -/
theorem searches_complete_iff (list : List ShardInfo) (hlen : list.length ≤ 1024)
    (hsorted : Ascending (shardKey list) 0 list.length) :
    ((∀ pc, IsLast (shardKey list) pc 0 list.length (findShard list 0 list.length pc)) ↔
        list.length < 512) ∧
      ∀ (entries : List (BitVec 64)) (left right : BitVec 16) (pc : BitVec 64),
        left ≤ right → Ascending (fun m => entries.getD m 0) left.toNat right.toNat →
        IsLast (fun m => entries.getD m 0) pc left.toNat right.toNat
          (findUnwindEntry entries left right pc) := by
  have hzero : ∀ pc, findShard list 0 list.length pc = search 1024 (shardKey list) pc 10
      (0 : Nat) ((0 : Nat) + list.length - 1) entryNotFound := by
    intro pc
    have hrange : ((0 : Nat) : Int) + list.length - 1 = list.length - 1 := by omega
    rw [hrange]
    rfl
  refine ⟨⟨fun hcomplete => ?_, fun hfew pc => ?_⟩, ?_⟩
  · -- above all keys the search goes right in every turn
    by_contra hmany
    have hall : ∀ m, m < list.length → shardKey list m ≤ allOnes 64 := by
      intro m _
      rw [le_def, toNat_allOnes]
      omega
    have hlast := hcomplete (allOnes 64)
    rw [hzero, search_exhausted hlen hall 9 0 list.length entryNotFound (by omega) (by omega)]
      at hlast
    rcases hlast with ⟨hresult, -⟩ | ⟨-, hlt, -⟩
    · exact absurd hresult (by decide)
    · have hbig : loopExhausted < 1024 := lt_of_lt_of_le hlt hlen
      exact absurd hbig (by decide)
  · rw [hzero]
    exact search_isLast hsorted hlen 9 0 list.length entryNotFound (by omega) (le_refl 0)
      (by omega) (fun m hm hlt => by omega) (.inl ⟨rfl, rfl⟩)
  · intro entries left right pc hle hascending
    have hle' : left.toNat ≤ right.toNat := hle
    have hsize : (right.toNat : Int) - 1 =
        (left.toNat : Int) + (right.toNat - left.toNat : Nat) - 1 := by omega
    unfold findUnwindEntry
    rw [hsize]
    exact search_isLast hascending (show right.toNat ≤ 65535 by omega) 16 _ _ entryNotFound
      (by omega) (le_refl _) (by omega) (fun m hm hlt => by omega) (.inl ⟨rfl, rfl⟩)

/-- Two shards, searched at a program counter between them. -/
theorem searches_complete_two :
    (∀ pc, IsLast (shardKey [⟨0#64, 5#64⟩, ⟨0#64, 9#64⟩]) pc 0 2
        (findShard [⟨0#64, 5#64⟩, ⟨0#64, 9#64⟩] 0 2 pc)) ∧
      findShard [⟨0#64, 5#64⟩, ⟨0#64, 9#64⟩] 0 2 7#64 = 0 := by
  have hsorted : Ascending (shardKey [⟨0#64, 5#64⟩, ⟨0#64, 9#64⟩]) 0 2 := by
    intro a b _ hab hb
    have hcases : (a = 0 ∧ b = 0) ∨ (a = 0 ∧ b = 1) ∨ (a = 1 ∧ b = 1) := by omega
    rcases hcases with ⟨rfl, rfl⟩ | ⟨rfl, rfl⟩ | ⟨rfl, rfl⟩ <;> decide
  exact ⟨(searches_complete_iff _ (by decide) hsorted).1.mpr (by decide), by decide⟩

/-- 512 shards at one address: the shard is there, and the turns run out. -/
theorem shards_exhausted :
    findShard (List.replicate 512 ⟨0#64, 0#64⟩) 0 512 0#64 = loopExhausted ∧
      shardKey (List.replicate 512 ⟨0#64, 0#64⟩) 511 ≤ 0#64 := by
  decide +kernel

end ZeroTrace.Unwind
