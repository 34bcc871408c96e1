import Mathlib.Algebra.Order.Ring.Nat
import Mathlib.Data.List.Induction
import Mathlib.Data.List.Nodup
import Mathlib.Data.List.TakeWhile

/-!
# Batches of systems that may run in parallel

`Scheduler::greedy_batch` puts each system into the first batch whose
declarations do not conflict with its own, and opens a batch where there is
none.  A system without a declaration gets a batch of its own.  The source keeps
the batches in one list and the declarations of the batches in another, and the
batch of an undeclared system is only in the first: behind it, a position in the
second list is no longer the position of the batch.

All indices are dealt out once in any case.  The batches are free of conflicts,
and undeclared systems alone, exactly if what comes behind an undeclared system
finds no room in the groups that were opened behind the first such system, where
the groups are those of the declared systems alone.
-/

namespace ZeroTrace.Kernel

open List

variable {R : Type} [DecidableEq R]

/-- `SystemAccess`, over the types of the resources. -/
structure SystemAccess (R : Type) where
  reads : List R
  writes : List R
  deriving DecidableEq

namespace SystemAccess

def conflictsWith (a b : SystemAccess R) : Bool :=
  a.writes.any (fun w => b.reads.contains w || b.writes.contains w) ||
    b.writes.any fun w => a.reads.contains w

/-- No declaration: the system may touch everything. -/
def undeclared (a : SystemAccess R) : Bool := a.reads.isEmpty && a.writes.isEmpty

/-- The resources that are not there yet are added. -/
def addNew (old new : List R) : List R :=
  new.foldl (fun acc r => if acc.contains r then acc else acc ++ [r]) old

/-- The declarations of a batch that a system joins. -/
def absorb (batch a : SystemAccess R) : SystemAccess R :=
  ⟨addNew batch.reads a.reads, addNew batch.writes a.writes⟩

theorem conflictsWith_symm {a b : SystemAccess R} (h : a.conflictsWith b = true) :
    b.conflictsWith a = true := by
  simp only [conflictsWith, Bool.or_eq_true, any_eq_true, contains_iff_mem] at h ⊢
  grind

theorem mem_addNew {old new : List R} {r : R} : r ∈ addNew old new ↔ r ∈ old ∨ r ∈ new := by
  unfold addNew
  induction new generalizing old with
  | nil => simp
  | cons x new ih =>
    rw [foldl_cons, ih]
    split <;> grind

theorem conflictsWith_absorb (a b c : SystemAccess R) :
    a.conflictsWith (b.absorb c) = (a.conflictsWith b || a.conflictsWith c) := by
  rw [Bool.eq_iff_iff]
  simp only [conflictsWith, absorb, Bool.or_eq_true, any_eq_true, contains_iff_mem, mem_addNew]
  grind

end SystemAccess

/-- The two lists of `greedy_batch`. -/
structure Batching (R : Type) where
  batches : List (List Nat)
  accesses : List (SystemAccess R)

/-- The first batch a system does not conflict with, by the declarations. -/
def Batching.joins (s : Batching R) (a : SystemAccess R) : Option Nat :=
  s.accesses.findIdx? fun b => !a.conflictsWith b

/-- One turn of the loop. -/
def Batching.place (s : Batching R) (i : Nat) (a : SystemAccess R) : Batching R :=
  if a.undeclared then { s with batches := s.batches ++ [[i]] }
  else
    match s.joins a with
    | some b => ⟨s.batches.modify b (· ++ [i]), s.accesses.modify b (·.absorb a)⟩
    | none => ⟨s.batches ++ [[i]], s.accesses ++ [a]⟩

/-- The loop, from an index on. -/
def Batching.placeAll (s : Batching R) (i : Nat) : List (SystemAccess R) → Batching R
  | [] => s
  | a :: rest => (s.place i a).placeAll (i + 1) rest

def greedyBatch (accesses : List (SystemAccess R)) : List (List Nat) :=
  (Batching.placeAll ⟨[], []⟩ 0 accesses).batches

variable {all : List (SystemAccess R)} {s : Batching R} {i : Nat} {a : SystemAccess R} {k : Nat}

/-! ## Every index once -/

theorem Batching.placeAll_append (s : Batching R) (front rest : List (SystemAccess R)) :
    s.placeAll i (front ++ rest) = (s.placeAll i front).placeAll (i + front.length) rest := by
  induction front generalizing s i with
  | nil => rfl
  | cons a front ih =>
    rw [cons_append, placeAll, ih, length_cons, Nat.add_right_comm, Nat.add_assoc]
    rfl

theorem flatten_modify_perm {l : List (List Nat)} (hk : k < l.length) :
    (l.modify k (· ++ [i])).flatten.Perm (l.flatten ++ [i]) := by
  induction l generalizing k with
  | nil => cases hk
  | cons x l ih =>
    cases k with
    | zero =>
      simp only [modify_zero_cons, flatten_cons, append_assoc]
      exact perm_append_comm.append_left x
    | succ k =>
      simp only [modify_succ_cons, flatten_cons, append_assoc]
      exact (ih (Nat.lt_of_succ_lt_succ hk)).append_left x

/-- A turn deals out its index, and a batch with a declaration exists. -/
theorem Batching.place_perm (h : s.accesses.length ≤ s.batches.length) (i : Nat)
    (a : SystemAccess R) :
    (s.place i a).batches.flatten.Perm (s.batches.flatten ++ [i]) ∧
      (s.place i a).accesses.length ≤ (s.place i a).batches.length := by
  unfold place
  split
  · simp
    omega
  split
  next k hk =>
    obtain ⟨hlt, -⟩ := findIdx?_eq_some_iff_getElem.mp hk
    exact ⟨flatten_modify_perm (lt_of_lt_of_le hlt h), by simpa using h⟩
  · simpa using h

theorem Batching.placeAll_perm (h : s.accesses.length ≤ s.batches.length) (i : Nat)
    (rest : List (SystemAccess R)) :
    (s.placeAll i rest).batches.flatten.Perm (s.batches.flatten ++ List.range' i rest.length) := by
  induction rest generalizing s i with
  | nil => simp [placeAll]
  | cons a rest ih =>
    obtain ⟨hperm, hlen⟩ := place_perm h i a
    refine (ih hlen (i + 1)).trans ?_
    rw [length_cons, range'_succ, ← singleton_append, ← append_assoc]
    exact hperm.append_right _

/-! ## Batches and their declarations -/

def ConflictFree (all : List (SystemAccess R)) (batch : List Nat) : Prop :=
  ∀ i ∈ batch, ∀ j ∈ batch, i ≠ j → ∀ a b, all[i]? = some a → all[j]? = some b →
    a.conflictsWith b = false

def UndeclaredAlone (all : List (SystemAccess R)) (batch : List Nat) : Prop :=
  ∀ i ∈ batch, ∀ a, all[i]? = some a → a.undeclared = true → batch = [i]

def Declared (all : List (SystemAccess R)) (batch : List Nat) : Prop :=
  ∀ i ∈ batch, ∀ a, all[i]? = some a → a.undeclared = false

/-- A batch of declared systems, and the declarations kept for it. -/
structure Fits (all : List (SystemAccess R)) (batch : List Nat) (b : SystemAccess R) : Prop where
  declared : Declared all batch
  kept : ∀ i ∈ batch, ∀ a, all[i]? = some a → ∀ c : SystemAccess R,
    c.conflictsWith a = true → c.conflictsWith b = true
  free : ConflictFree all batch

theorem Fits.single (hi : all[i]? = some a) (ha : a.undeclared = false) : Fits all [i] a := by
  constructor <;> grind [Declared, ConflictFree]

theorem Fits.join {batch : List Nat} {b : SystemAccess R} (h : Fits all batch b)
    (hi : all[i]? = some a) (ha : a.undeclared = false) (hb : a.conflictsWith b = false) :
    Fits all (batch ++ [i]) (b.absorb a) := by
  have hnew : ∀ j ∈ batch, ∀ c, all[j]? = some c → a.conflictsWith c = false := by
    intro j hj c hc
    by_contra hconflict
    rw [h.kept j hj c hc a (Bool.not_eq_false _ ▸ hconflict)] at hb
    cases hb
  constructor
  case declared => grind [Declared, Fits]
  case kept => grind [Fits, SystemAccess.conflictsWith_absorb]
  case free => grind [ConflictFree, Fits, SystemAccess.conflictsWith_symm]

/-- A batch of one system, whose declarations, if it has any, are kept at a position before
that of the batch and from `p` on. -/
def Single (all accesses : List (SystemAccess R)) (p k : Nat) (batch : List Nat) : Prop :=
  ∃ i a, batch = [i] ∧ all[i]? = some a ∧
    (a.undeclared = false → ∃ j < k, p ≤ j ∧ accesses[j]? = some a)

/-- The first `p` batches are at the positions of their declarations.  Behind them, every
batch holds one system; and there are such batches from the first undeclared system on. -/
structure Aligned (all : List (SystemAccess R)) (p : Nat) (s : Batching R) : Prop where
  fits : ∀ k < p, ∃ batch b, s.batches[k]? = some batch ∧ s.accesses[k]? = some b ∧
    Fits all batch b
  single : ∀ k batch, p ≤ k → s.batches[k]? = some batch → Single all s.accesses p k batch
  le : p ≤ s.accesses.length

theorem getElem?_concat {α : Type} {l : List α} {x y : α} (h : (l ++ [x])[k]? = some y) :
    l[k]? = some y ∨ k = l.length ∧ y = x := by
  grind

section Aligned

variable {p : Nat} (h : Aligned all p s) (hi : all[i]? = some a)

include h hi

theorem Aligned.undeclared (ha : a.undeclared = true) :
    Aligned all p { s with batches := s.batches ++ [[i]] } := by
  refine ⟨fun k hk => ?_, fun k batch hp hk => ?_, h.le⟩
  · obtain ⟨batch, b, hbatch, hfit⟩ := h.fits k hk
    exact ⟨batch, b, by grind, hfit⟩
  · rcases getElem?_concat hk with hold | ⟨-, rfl⟩
    · exact h.single k batch hp hold
    · exact ⟨i, a, rfl, hi, fun hnot => by simp [ha] at hnot⟩

/-- In front of all undeclared systems, the new batch is at the position of its declarations. -/
theorem Aligned.opens (ha : a.undeclared = false) (hlen : s.accesses.length = p)
    (hbatches : s.batches.length = p) :
    Aligned all (p + 1) ⟨s.batches ++ [[i]], s.accesses ++ [a]⟩ := by
  refine ⟨fun k hk => ?_, fun k batch hp hk => ?_, by simp [hlen]⟩
  · by_cases hlast : k = p
    · exact ⟨[i], a, by simp [hlast, ← hbatches], by simp [hlast, ← hlen], .single hi ha⟩
    · obtain ⟨batch, b, hbatch, hb, hfit⟩ := h.fits k (by omega)
      exact ⟨batch, b, by grind, by grind, hfit⟩
  · obtain ⟨hlt, -⟩ := List.getElem?_eq_some_iff.mp hk
    rw [length_append, length_singleton] at hlt
    omega

/-- Behind an undeclared system, the declarations come to an earlier position. -/
theorem Aligned.opens_behind (hlt : s.accesses.length < s.batches.length) :
    Aligned all p ⟨s.batches ++ [[i]], s.accesses ++ [a]⟩ := by
  refine ⟨fun k hk => ?_, fun k batch hp hk => ?_, h.le.trans (by simp)⟩
  · obtain ⟨batch, b, hbatch, hb, hfit⟩ := h.fits k hk
    exact ⟨batch, b, by grind, by grind, hfit⟩
  · rcases getElem?_concat hk with hold | ⟨hlast, rfl⟩
    · obtain ⟨j, b, rfl, hj, hkept⟩ := h.single k batch hp hold
      refine ⟨j, b, rfl, hj, fun hb => ?_⟩
      obtain ⟨n, hn, hpn, haccess⟩ := hkept hb
      exact ⟨n, hn, hpn, by grind⟩
    · exact ⟨i, a, rfl, hi, fun _ => ⟨s.accesses.length, by omega, h.le, by simp⟩⟩

theorem Aligned.join (ha : a.undeclared = false) (hk : k < p) (hjoin : s.joins a = some k) :
    Aligned all p ⟨s.batches.modify k (· ++ [i]), s.accesses.modify k (·.absorb a)⟩ := by
  obtain ⟨hfits, hsingle, hle⟩ := h
  have hother : ∀ m, p ≤ m → (s.batches.modify k (· ++ [i]))[m]? = s.batches[m]? := by
    intro m hm
    simp [show k ≠ m by omega]
  constructor
  case fits =>
    intro m hm
    obtain ⟨batch, b, hbatch, hb, hfit⟩ := hfits m hm
    by_cases hmk : k = m
    · subst hmk
      obtain ⟨hlt, hfree, -⟩ := findIdx?_eq_some_iff_getElem.mp hjoin
      refine ⟨_, _, by simp [hbatch], by simp [hb], hfit.join hi ha ?_⟩
      simpa [List.getElem?_eq_some_iff.mp hb |>.2] using hfree
    · exact ⟨batch, b, by simp [hmk, hbatch], by simp [hmk, hb], hfit⟩
  case single =>
    intro m batch hm hbatch
    rw [hother m hm] at hbatch
    obtain ⟨j, b, rfl, hj, hkept⟩ := hsingle m batch hm hbatch
    refine ⟨j, b, rfl, hj, fun hb => ?_⟩
    obtain ⟨n, hn, hpn, haccess⟩ := hkept hb
    exact ⟨n, hn, hpn, by simpa [show k ≠ n by omega] using haccess⟩
  case le =>
    rw [length_modify]
    exact hle

end Aligned

/-- **A system that joins a batch behind the first undeclared one spoils it.**  The batch is
that of an undeclared system, or that of a system whose declarations were passed over. -/
theorem Aligned.spoils {p : Nat} (h : Aligned all p s) (hjoin : s.joins a = some k)
    (hp : p ≤ k) (hi : all[i]? = some a) {batch more : List Nat}
    (hbatch : s.batches[k]? = some batch)
    (hfree : ConflictFree all (batch ++ [i] ++ more))
    (halone : UndeclaredAlone all (batch ++ [i] ++ more)) (hnot : i ∉ batch) : False := by
  obtain ⟨j, b, rfl, hj, hkept⟩ := h.single k batch hp hbatch
  cases hb : b.undeclared with
  | true =>
    have hsingle := halone j (by simp) b hj hb
    simp at hsingle
  | false =>
    obtain ⟨n, hn, -, haccess⟩ := hkept hb
    obtain ⟨_, -, hpassed⟩ := findIdx?_eq_some_iff_getElem.mp hjoin
    have hconflict := hpassed n hn
    rw [(List.getElem?_eq_some_iff.mp haccess).2, Bool.not_eq_true', Bool.not_eq_false] at hconflict
    have hne : i ≠ j := fun heq => hnot (by simp [heq])
    rw [hfree i (by simp) j (by simp) hne a b hi hj] at hconflict
    cases hconflict

/-! ## Groups of declared systems -/

/-- The first group that a system does not conflict with. -/
def roomFor (groups : List (List (SystemAccess R))) (a : SystemAccess R) : Option Nat :=
  groups.findIdx? fun group => group.all fun b => !a.conflictsWith b

/-- A system joins the first group that has room for it, or opens one. -/
def putIn (groups : List (List (SystemAccess R))) (a : SystemAccess R) :
    List (List (SystemAccess R)) :=
  match roomFor groups a with
  | some k => groups.modify k (· ++ [a])
  | none => groups ++ [[a]]

/-- The groups of declared systems by first fit, whatever undeclared ones are between them. -/
def firstFit (all : List (SystemAccess R)) : List (List (SystemAccess R)) :=
  (all.filter (!·.undeclared)).foldl putIn []

/-- The groups that are opened before the first undeclared system. -/
def groupsInFront (all : List (SystemAccess R)) : Nat :=
  (firstFit (all.takeWhile (!·.undeclared))).length

/-- A declared system that finds room among those in front of it finds it in a group that was
opened before the first undeclared system. -/
def JoinsInFront (all : List (SystemAccess R)) : Prop :=
  ∀ front a rest, all = front ++ a :: rest → a.undeclared = false →
    ∀ k, roomFor (firstFit front) a = some k → k < groupsInFront front

/-- What is kept for a group conflicts with what one of its systems conflicts with. -/
def Stands (b : SystemAccess R) (group : List (SystemAccess R)) : Prop :=
  ∀ a : SystemAccess R, a.conflictsWith b = group.any a.conflictsWith

variable {groups : List (List (SystemAccess R))}

theorem joins_eq_roomFor (h : Forall₂ Stands s.accesses groups) (a : SystemAccess R) :
    s.joins a = roomFor groups a := by
  obtain ⟨batches, accesses⟩ := s
  unfold Batching.joins roomFor
  dsimp only at h ⊢
  induction h with
  | nil => rfl
  | cons hb _ ih => rw [findIdx?_cons, findIdx?_cons, ih, hb a, not_any_eq_all_not]

theorem stands_modify {accesses : List (SystemAccess R)} (h : Forall₂ Stands accesses groups)
    (k : Nat) (a : SystemAccess R) :
    Forall₂ Stands (accesses.modify k (·.absorb a)) (groups.modify k (· ++ [a])) := by
  induction h generalizing k with
  | nil => simp
  | cons hb hrest ih =>
    cases k with
    | zero =>
      refine .cons (fun c => ?_) hrest
      rw [SystemAccess.conflictsWith_absorb, hb c, any_append]
      simp
    | succ k => exact .cons hb (ih k)

/-- A turn for a declared system moves the two on together. -/
theorem stands_place (h : Forall₂ Stands s.accesses groups) (i : Nat)
    (ha : a.undeclared = false) : Forall₂ Stands (s.place i a).accesses (putIn groups a) := by
  unfold Batching.place putIn
  rw [if_neg (by simp [ha]), joins_eq_roomFor h]
  cases roomFor groups a with
  | some k => exact stands_modify h k a
  | none => exact rel_append h (.cons (fun c => by simp) .nil)

/-! ## Runs -/

/-- The systems in front have been placed. -/
def after (front : List (SystemAccess R)) : Batching R := Batching.placeAll ⟨[], []⟩ 0 front

theorem after_concat (front : List (SystemAccess R)) (a : SystemAccess R) :
    after (front ++ [a]) = (after front).place front.length a := by
  rw [after, Batching.placeAll_append, Nat.zero_add]
  rfl

theorem stands_after (front : List (SystemAccess R)) :
    Forall₂ Stands (after front).accesses (firstFit front) := by
  induction front using List.reverseRecOn with
  | nil => exact .nil
  | append_singleton front a ih =>
    rw [after_concat, firstFit, filter_append, foldl_append, ← firstFit]
    cases ha : a.undeclared with
    | true => simpa [Batching.place, ha] using ih
    | false => simpa [ha] using stands_place ih front.length ha

theorem Batching.placeAll_grows (rest : List (SystemAccess R)) {batch : List Nat}
    (hbatch : s.batches[k]? = some batch) :
    ∃ more, (s.placeAll i rest).batches[k]? = some (batch ++ more) := by
  induction rest generalizing s i batch with
  | nil => exact ⟨[], by rwa [append_nil]⟩
  | cons a rest ih =>
    have hplace : ∃ new, (s.place i a).batches[k]? = some (batch ++ new) := by
      have hlt := (List.getElem?_eq_some_iff.mp hbatch).1
      unfold place
      split
      · exact ⟨[], by rw [getElem?_append_left hlt, hbatch, append_nil]⟩
      split
      next j _ =>
        by_cases hj : j = k
        · exact ⟨[i], by simp [hj, hbatch]⟩
        · exact ⟨[], by simp [hj, hbatch]⟩
      · exact ⟨[], by rw [getElem?_append_left hlt, hbatch, append_nil]⟩
    obtain ⟨new, hnew⟩ := hplace
    obtain ⟨more, hmore⟩ := ih hnew
    exact ⟨new ++ more, by rw [placeAll, hmore, append_assoc]⟩

/-- The batches of undeclared systems have no place among the declarations. -/
theorem length_batches_after (front : List (SystemAccess R)) :
    (after front).batches.length =
      (after front).accesses.length + front.countP (·.undeclared) := by
  induction front using List.reverseRecOn with
  | nil => rfl
  | append_singleton front a ih =>
    rw [after_concat, countP_append, Batching.place]
    split
    next ha =>
      simp [ha, ih]
      omega
    next ha =>
      split <;> simp [ha, ih]
      omega

theorem groupsInFront_eq_accesses {front : List (SystemAccess R)}
    (h : front.all (!·.undeclared) = true) :
    groupsInFront front = (after front).accesses.length := by
  rw [groupsInFront, takeWhile_eq_self_iff.mpr (all_eq_true.mp h), (stands_after front).length_eq]

/-- An undeclared system, or one behind it, opens no group in front. -/
theorem groupsInFront_concat {front : List (SystemAccess R)}
    (h : (front ++ [a]).all (!·.undeclared) = false) :
    groupsInFront (front ++ [a]) = groupsInFront front := by
  unfold groupsInFront
  rw [takeWhile_append]
  split
  next hlen =>
    have hfront : front.takeWhile (!·.undeclared) = front :=
      ( takeWhile_prefix _).eq_of_length hlen
    have ha : a.undeclared = true := by
      simpa [all_append, all_eq_true.mpr (takeWhile_eq_self_iff.mp hfront)] using h
    rw [hfront, takeWhile_cons_of_neg (by simp [ha]), append_nil]
  next => rfl

/-- As long as the batches are aligned, a system joins one of those that are. -/
def StaysInFront (all : List (SystemAccess R)) : Prop :=
  ∀ front a rest, all = front ++ a :: rest → a.undeclared = false →
    Aligned all (groupsInFront front) (after front) →
      ∀ k, (after front).joins a = some k → k < groupsInFront front

/-- Induction on the systems placed, the last of them first. -/
theorem aligned_after (hstep : StaysInFront all)
    (front rest : List (SystemAccess R)) (heq : all = front ++ rest) :
    Aligned all (groupsInFront front) (after front) := by
  induction front using List.reverseRecOn generalizing rest with
  | nil => constructor <;> simp [after, Batching.placeAll, groupsInFront, firstFit]
  | append_singleton front a ih =>
    rw [append_assoc] at heq
    have h := ih _ heq
    have hi : all[front.length]? = some a := by simp [heq]
    have hlength := length_batches_after front
    have hin := hstep front a rest heq
    cases hall : (front ++ [a]).all (!·.undeclared) with
    | true =>
      -- no undeclared system so far: groups, batches and declarations are one list
      rw [groupsInFront_eq_accesses hall, after_concat, Batching.place]
      rw [all_append, Bool.and_eq_true] at hall
      have ha : a.undeclared = false := by simpa using hall.2
      have hnone : front.countP (·.undeclared) = 0 := by simpa using hall.1
      rw [groupsInFront_eq_accesses hall.1] at h hin
      rw [if_neg (by simp [ha])]
      split
      next k hk =>
        rw [length_modify]
        exact h.join hi ha (hin ha h k hk) hk
      next =>
        rw [length_append]
        exact h.opens hi ha rfl (by omega)
    | false =>
      rw [groupsInFront_concat hall, after_concat, Batching.place]
      split
      next ha => exact h.undeclared hi ha
      next ha =>
        rw [Bool.not_eq_true] at ha
        split
        next k hk => exact h.join hi ha (hin ha h k hk) hk
        next =>
          have hsome : 0 < front.countP (·.undeclared) := by
            simpa [all_append, ha, countP_pos_iff] using hall
          exact h.opens_behind hi (by omega)

theorem greedyBatch_perm (all : List (SystemAccess R)) :
    (greedyBatch all).flatten.Perm (List.range all.length) := by
  rw [range_eq_range']
  exact Batching.placeAll_perm (le_refl 0) 0 all

theorem nodup_of_mem_greedyBatch : ∀ batch ∈ greedyBatch all, batch.Nodup :=
  (nodup_flatten.mp ((greedyBatch_perm all).nodup_iff.mpr nodup_range)).1

/-- A join behind the first undeclared system would be seen in the batches at the end. -/
theorem staysInFront_of_good
    (hgood : ∀ batch ∈ greedyBatch all, ConflictFree all batch ∧ UndeclaredAlone all batch) :
    StaysInFront all := by
  intro front a rest heq ha h k hk
  by_contra hp
  have hlt : k < (after front).batches.length := by
    have hlength := length_batches_after front
    obtain ⟨hlt, -⟩ := findIdx?_eq_some_iff_getElem.mp hk
    omega
  have hplaced : ((after front).place front.length a).batches[k]? =
      some ((after front).batches[k] ++ [front.length]) := by
    simp [Batching.place, ha, hk, hlt]
  obtain ⟨more, hmore⟩ := Batching.placeAll_grows (i := front.length + 1) rest hplaced
  have hend : greedyBatch all =
      (((after front).place front.length a).placeAll (front.length + 1) rest).batches := by
    rw [greedyBatch, heq, Batching.placeAll_append, Nat.zero_add]
    rfl
  have hmem := hend ▸ mem_of_getElem? hmore
  obtain ⟨hfree, halone⟩ := hgood _ hmem
  refine h.spoils hk (Nat.le_of_not_lt hp) (by simp [heq]) (List.getElem?_eq_getElem hlt)
    hfree halone ?_
  have hdup := nodup_of_mem_greedyBatch _ hmem
  grind

theorem Aligned.good {p : Nat} (h : Aligned all p (after all)) :
    ∀ batch ∈ greedyBatch all, ConflictFree all batch ∧ UndeclaredAlone all batch := by
  intro batch hbatch
  obtain ⟨k, hk⟩ := getElem?_of_mem hbatch
  by_cases hlt : k < p
  · obtain ⟨_, b, hb, -, hfit⟩ := h.fits k hlt
    cases hk.symm.trans hb
    refine ⟨hfit.free, fun i hi a ha hundeclared => ?_⟩
    rw [hfit.declared i hi a ha] at hundeclared
    cases hundeclared
  · obtain ⟨i, a, rfl, -⟩ := h.single k batch (Nat.le_of_not_lt hlt) hk
    constructor <;> grind [ConflictFree, UndeclaredAlone]

/-- **Batches are free of conflicts exactly in front of undeclared systems.** Every index
is in one batch, once; and the systems of all batches do not conflict, with undeclared
systems alone, if and only if no system finds room in a group that was opened behind an
undeclared system. -/
theorem greedyBatch_conflict_free_iff (all : List (SystemAccess R)) :
    (greedyBatch all).flatten.Perm (List.range all.length) ∧
      (∀ batch ∈ greedyBatch all, batch.Nodup) ∧
      ((∀ batch ∈ greedyBatch all, ConflictFree all batch ∧ UndeclaredAlone all batch) ↔
        JoinsInFront all) := by
  refine ⟨greedyBatch_perm all, nodup_of_mem_greedyBatch, fun hgood => ?_, fun hall => ?_⟩
  · have hstays := staysInFront_of_good hgood
    intro front a rest heq ha k hk
    rw [← joins_eq_roomFor (stands_after front)] at hk
    exact hstays front a rest heq ha (aligned_after hstays front _ heq) k hk
  · have hstays : StaysInFront all := by
      intro front a rest heq ha _ k hk
      rw [joins_eq_roomFor (stands_after front)] at hk
      exact hall front a rest heq ha k hk
    exact (aligned_after hstays all [] (append_nil all).symm).good

/-- The second reader joins the undeclared system, not the first reader. -/
theorem undeclared_not_alone :
    greedyBatch [⟨[], []⟩, ⟨[0], []⟩, ⟨[1], []⟩] = [[0, 2], [1]] ∧
      ¬ UndeclaredAlone [⟨[], []⟩, ⟨[0], []⟩, ⟨[1], []⟩] [0, 2] := by
  refine ⟨by decide, fun h => ?_⟩
  cases h 0 (by simp) _ rfl rfl

end ZeroTrace.Kernel
