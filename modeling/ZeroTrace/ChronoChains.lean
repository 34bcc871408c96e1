import ZeroTrace.ChronoMap
import Mathlib.Data.List.TakeWhile
import Mathlib.Data.List.Perm.Basic
import Mathlib.Data.List.Flatten

/-!
# Time chains without pointers

A `ChronoMap` read as what its boxes spell out: a list of chains in the order
of their times, each with its entries from first to last.  Every operation of
the map has a counterpart on these chains, and this file says what it does to
the entries as a whole.

`ChronoLayout` shows that the pointer code computes these operations;
`ChronoRefinement` compares them with a plain map.
-/

namespace ZeroTrace.Chrono

open List Prod

/-- The chains of a map: times with their entries. -/
abbrev Chains (T K V : Type) := List (T × List (K × V))

namespace Chains

variable {T K V σ : Type}

def entries (C : Chains T K V) : List (K × T × V) :=
  C.flatMap fun c => c.2.map fun e => (e.1, c.1, e.2)

@[simp] theorem entries_nil : entries ([] : Chains T K V) = [] := rfl

@[simp] theorem entries_cons (c : T × List (K × V)) (C : Chains T K V) :
    entries (c :: C) = (c.2.map fun e => (e.1, c.1, e.2)) ++ entries C := rfl

@[simp] theorem entries_append (C D : Chains T K V) :
    entries (C ++ D) = entries C ++ entries D := by
  simp [entries]

section Operations

variable [LinearOrder T] [DecidableEq K]

/-- Put an entry in front of the chain of a time, which is created if there is
none. -/
def push (t : T) (e : K × V) : Chains T K V → Chains T K V
  | [] => [(t, [e])]
  | c :: C =>
    if t = c.1 then (c.1, e :: c.2) :: C
    else if t < c.1 then (t, [e]) :: c :: C
    else c :: push t e C

variable (k : K) (C : Chains T K V)

/-- Take the entry of a key off its chain; a chain that becomes empty goes. -/
def detach : Chains T K V :=
  (C.map fun c => (c.1, c.2.filter fun e => !decide (e.1 = k))).filter
    fun c => !c.2.isEmpty

/-- The time and the value of a key. -/
def find : Option (T × V) :=
  ((entries C).find? fun e => e.1 = k).map Prod.snd

def setValue (v : V) (C : Chains T K V) : Chains T K V :=
  C.map fun c => (c.1, c.2.map fun e => if e.1 = k then (e.1, v) else e)

def insert (t : T) (k : K) (v : V) (C : Chains T K V) : Option V × Chains T K V :=
  match find k C with
  | none => (none, push t (k, v) C)
  | some (t', old) =>
    if t' = t then (some old, setValue k v C)
    else (some old, push t (k, v) (detach k C))

def remove : Option V × Chains T K V :=
  match find k C with
  | none => (none, C)
  | some (_, old) => (some old, detach k C)

def removeOldest : Option V × Chains T K V :=
  match entries C with
  | [] => (none, C)
  | (k, _, v) :: _ => (some v, detach k C)

def moveToTime (t : T) (C : Chains T K V) : Chains T K V :=
  match find k C with
  | none => C
  | some (t', v) => if t' = t then C else push t (k, v) (detach k C)

/-- What `forward_time` does with an entry after its callback. -/
def settle (time : T) (newTime : Option T) (e : K × V) (C : Chains T K V) :
    Chains T K V :=
  match newTime.filter (fun nt => time < nt) with
  | some nt => push nt e C
  | none => C

/-- The entries of expired chains, one callback after the other. -/
def expire (time : T) (callback : Callback T V σ) :
    List (K × V) → σ → Chains T K V → σ × Chains T K V
  | [], s, C => (s, C)
  | e :: es, s, C =>
    let r := callback s e.2
    expire time callback es r.2.2 (settle time r.1 (e.1, r.2.1) C)

def forwardTime (time : T) (callback : Callback T V σ) (s : σ) (C : Chains T K V) :
    σ × Chains T K V :=
  expire time callback ((C.takeWhile fun c => c.1 ≤ time).flatMap Prod.snd) s
    (C.dropWhile fun c => c.1 ≤ time)

/-- `drain`, with `count` values consumed. -/
def drain (range : T → Bool) (count : Nat) (C : Chains T K V) : List V × Chains T K V :=
  ((((C.filter fun c => range c.1).flatMap Prod.snd).take count).map Prod.snd,
    C.filter fun c => !range c.1)

end Operations

/-- Increasing times, no empty chain, and every key at most once. -/
structure WellFormed [LinearOrder T] (C : Chains T K V) : Prop where
  sorted : C.Pairwise fun c d => c.1 < d.1
  full : ∀ c ∈ C, c.2 ≠ []
  keys : ((entries C).map Prod.fst).Nodup

theorem wellFormed_nil [LinearOrder T] : WellFormed ([] : Chains T K V) :=
  ⟨.nil, by simp, by simp⟩

variable {C D : Chains T K V}

theorem WellFormed.sublist [LinearOrder T] (h : WellFormed D) (hsub : C.Sublist D) : WellFormed C :=
  ⟨h.sorted.sublist hsub, fun c hc => h.full c (hsub.subset hc),
    h.keys.sublist ((hsub.flatMap _).map _)⟩

theorem WellFormed.ordered [LinearOrder T] (h : WellFormed C) :
    (entries C).Pairwise fun e f => e.2.1 ≤ f.2.1 := by
  induction C with
  | nil => exact .nil
  | cons c C ih =>
    rw [entries_cons, pairwise_append]
    refine ⟨pairwise_map.mpr (pairwise_of_forall fun _ _ => le_refl _),
      ih (h.sublist (sublist_cons_self c C)), ?_⟩
    intro e he f hf
    obtain ⟨_, -, rfl⟩ := mem_map.mp he
    obtain ⟨d, hd, hf⟩ := mem_flatMap.mp hf
    obtain ⟨_, -, rfl⟩ := mem_map.mp hf
    exact ((pairwise_cons.mp h.sorted).1 d hd).le

theorem entries_filter (p : T → Bool) (C : Chains T K V) :
    entries (C.filter fun c => p c.1) = (entries C).filter fun e => p e.2.1 := by
  induction C with
  | nil => rfl
  | cons c C ih =>
    rw [entries_cons, filter_append, ← ih, filter_map]
    cases hp : p c.1 <;> simp [hp, Function.comp_def]

theorem takeWhile_eq_filter [LinearOrder T] (hs : C.Pairwise fun c d => c.1 < d.1) {time : T} :
    (C.takeWhile fun c => c.1 ≤ time) = C.filter fun c => decide (c.1 ≤ time) := by
  induction C with
  | nil => rfl
  | cons c C ih =>
    obtain ⟨hc, hC⟩ := pairwise_cons.mp hs
    by_cases hle : c.1 ≤ time
    · simp [hle, ih hC]
    have hnone : C.filter (fun d => decide (d.1 ≤ time)) = [] := by
      rw [filter_eq_nil_iff]
      intro d hd
      simpa using (lt_of_not_ge hle).trans (hc d hd)
    simp [hle, hnone]

theorem flatMap_snd (C : Chains T K V) : C.flatMap snd = (entries C).map fun e => (e.1, e.2.2) := by
  simp [entries, map_flatMap, Function.comp_def]

variable {t : T} {k : K} {xs ys : List (K × V)} {v : V} {es : List (K × V)}

theorem WellFormed.once [LinearOrder T] (h : WellFormed (C ++ (t, xs ++ (k, v) :: ys) :: D)) :
    k ∉ (entries C).map fst ∧ (∀ e ∈ xs, e.1 ≠ k) ∧ (∀ e ∈ ys, e.1 ≠ k) ∧
      k ∉ (entries D).map fst := by
  have hlist : (entries (C ++ (t, xs ++ (k, v) :: ys) :: D)).map fst =
      ((entries C).map fst ++ xs.map fst) ++
        k :: (ys.map fst ++ (entries D).map fst) := by
    simp [Function.comp_def]
  have honce := (nodup_cons.mp (nodup_middle.mp (hlist ▸ h.keys))).1
  simp only [mem_append, not_or] at honce
  obtain ⟨⟨hC, hxs⟩, hys, hD⟩ := honce
  exact ⟨hC, fun e he heq => hxs (mem_map.mpr ⟨e, he, heq⟩),
    fun e he heq => hys (mem_map.mpr ⟨e, he, heq⟩), hD⟩

section Push

variable [LinearOrder T] {e : K × V}

theorem push_append (hlow : ∀ c ∈ C, c.1 < t) : push t e (C ++ D) = C ++ push t e D := by
  induction C with
  | nil => rfl
  | cons c C ih =>
    obtain ⟨hc, hC⟩ := forall_mem_cons.mp hlow
    simp [push, hc.ne', not_lt.mpr hc.le, ih hC]

theorem push_split (hlow : ∀ c ∈ C, c.1 < t) :
    push t e (C ++ (t, es) :: D) = C ++ (t, e :: es) :: D := by
  rw [push_append hlow]
  simp [push]

theorem push_gap (hlow : ∀ c ∈ C, c.1 < t) (hhigh : ∀ d ∈ D, t < d.1) :
    push t e (C ++ D) = C ++ (t, [e]) :: D := by
  rw [push_append hlow]
  cases D with
  | nil => rfl
  | cons d D =>
    have hd : t < d.1 := hhigh d mem_cons_self
    simp [push, hd.ne, hd]

theorem entries_push (t : T) (e : K × V) (C : Chains T K V) :
    (entries (push t e C)).Perm ((e.1, t, e.2) :: entries C) := by
  induction C with
  | nil => exact .refl _
  | cons c C ih =>
    by_cases heq : t = c.1
    · simp [push, heq]
    by_cases hlt : t < c.1
    · simp [push, heq, hlt]
    · simp only [push, if_neg heq, if_neg hlt, entries_cons]
      exact (ih.append_left _).trans perm_middle

/-- In order of time, `push` either finds the chain or opens it in a gap. -/
theorem push_shape (t : T) (e : K × V) (h : C.Pairwise fun c d => c.1 < d.1) :
    (∃ A es B, C = A ++ (t, es) :: B ∧ (∀ c ∈ A, c.1 < t) ∧ push t e C = A ++ (t, e :: es) :: B) ∨
    ∃ A B, C = A ++ B ∧ (∀ c ∈ A, c.1 < t) ∧ (∀ d ∈ B, t < d.1) ∧
      push t e C = A ++ (t, [e]) :: B := by
  induction C with
  | nil => exact .inr ⟨[], [], rfl, by simp, by simp, rfl⟩
  | cons c C ih =>
    obtain ⟨hc, hC⟩ := pairwise_cons.mp h
    rcases lt_trichotomy t c.1 with hlt | heq | hgt
    · have hhigh : ∀ d ∈ c :: C, t < d.1 :=
        forall_mem_cons.mpr ⟨hlt, fun d hd => hlt.trans (hc d hd)⟩
      have hnone : ∀ c ∈ ([] : Chains T K V), c.1 < t := by simp
      exact .inr ⟨[], c :: C, rfl, hnone, hhigh, push_gap hnone hhigh⟩
    · subst heq
      exact .inl ⟨[], c.2, C, rfl, by simp, by simp [push]⟩
    · have hstep : push t e (c :: C) = c :: push t e C := by simp [push, hgt.ne', not_lt.mpr hgt.le]
      rcases ih hC with ⟨A, es, B, rfl, hA, hpush⟩ | ⟨A, B, rfl, hA, hB, hpush⟩
      · exact .inl ⟨c :: A, es, B, rfl, by simpa [hgt] using hA, by simp [hstep, hpush]⟩
      · exact .inr ⟨c :: A, B, rfl, by simpa [hgt] using hA, hB, by simp [hstep, hpush]⟩

theorem sorted_push (h : C.Pairwise fun c d => c.1 < d.1) :
    (push t e C).Pairwise fun c d => c.1 < d.1 := by
  rcases push_shape t e h with ⟨A, es, B, rfl, hA, hpush⟩ | ⟨A, B, rfl, hA, hB, hpush⟩
  · rw [hpush]
    simpa [pairwise_append] using h
  rw [hpush]
  obtain ⟨hAs, hBs, hAB⟩ := pairwise_append.mp h
  refine pairwise_append.mpr ⟨hAs, pairwise_cons.mpr ⟨hB, hBs⟩, fun c hc => ?_⟩
  exact forall_mem_cons.mpr ⟨hA c hc, hAB c hc⟩

theorem full_push (hs : C.Pairwise fun c d => c.1 < d.1) (h : ∀ c ∈ C, c.2 ≠ []) :
    ∀ c ∈ push t e C, c.2 ≠ [] := by
  rcases push_shape t e hs with ⟨A, es, B, rfl, -, hpush⟩ | ⟨A, B, rfl, -, -, hpush⟩
  all_goals
    rw [hpush]
    intro c hc
    rcases mem_append.mp hc with hc | hc
    · exact h c (mem_append_left _ hc)
    · rcases mem_cons.mp hc with rfl | hc
      · simp
      · exact h c (by simp [hc])

theorem WellFormed.push (h : WellFormed C) (hnew : e.1 ∉ (entries C).map fst) :
    WellFormed (push t e C) := by
  refine ⟨sorted_push h.sorted, full_push h.sorted h.full, ?_⟩
  rw [((entries_push t e C).map fst).nodup_iff, map_cons, nodup_cons]
  exact ⟨hnew, h.keys⟩

end Push

section Detach

variable [DecidableEq K]

theorem detach_cons (k : K) (c : T × List (K × V)) (C : Chains T K V) :
    detach k (c :: C) =
      if (c.2.filter fun e => !decide (e.1 = k)) = [] then detach k C
      else (c.1, c.2.filter fun e => !decide (e.1 = k)) :: detach k C := by
  unfold detach
  rw [map_cons, filter_cons]
  by_cases hnil : (c.2.filter fun e => !decide (e.1 = k)) = []
  · rw [if_pos hnil]
    simp only [hnil, isEmpty_nil, Bool.not_true, Bool.false_eq_true, if_false]
  have : (c.2.filter fun e => !decide (e.1 = k)).isEmpty = false := by
    simpa only [isEmpty_eq_false_iff] using hnil
  rw [if_neg hnil]
  simp only [this, Bool.not_false, if_true]

theorem entries_detach (k : K) (C : Chains T K V) :
    entries (detach k C) = (entries C).filter fun e => !decide (e.1 = k) := by
  induction C with
  | nil => rfl
  | cons c C ih =>
    have hmap : (c.2.map fun e => (e.1, c.1, e.2)).filter (fun e => !decide (e.1 = k)) =
        (c.2.filter fun e => !decide (e.1 = k)).map fun e => (e.1, c.1, e.2) := by
      rw [filter_map]
      rfl
    rw [entries_cons, filter_append, hmap, ← ih, detach_cons]
    split_ifs with hnil
    · rw [hnil]
      rfl
    · rw [entries_cons]

theorem notMem_detach (k : K) (C : Chains T K V) : k ∉ (entries (detach k C)).map fst := by
  rw [entries_detach]
  simp

theorem detach_of_notMem (hfull : ∀ c ∈ C, c.2 ≠ []) (hk : k ∉ (entries C).map fst) :
    detach k C = C := by
  induction C with
  | nil => rfl
  | cons c C ih =>
    rw [entries_cons, map_append, mem_append, not_or] at hk
    have hc : c.2.filter (fun e => !decide (e.1 = k)) = c.2 := by
      refine filter_eq_self.mpr fun e he => ?_
      have hne : e.1 ≠ k := by
        rintro rfl
        exact hk.1 (by simpa using ⟨e.2, he⟩)
      simp [hne]
    obtain ⟨hne, hrest⟩ := forall_mem_cons.mp hfull
    rw [detach_cons, hc, if_neg hne, ih hrest hk.2]

theorem detach_append (k : K) (C D : Chains T K V) :
    detach k (C ++ D) = detach k C ++ detach k D := by
  simp only [detach, map_append, filter_append]

variable [LinearOrder T]

theorem detach_split (h : WellFormed (C ++ (t, xs ++ (k, v) :: ys) :: D)) :
    detach k (C ++ (t, xs ++ (k, v) :: ys) :: D) =
      C ++ if xs ++ ys = [] then D else (t, xs ++ ys) :: D := by
  obtain ⟨hC, hxs, hys, hD⟩ := h.once
  have hchain : (xs ++ (k, v) :: ys).filter (fun e => !decide (e.1 = k)) = xs ++ ys := by
    rw [filter_append, filter_cons_of_neg (by simp),
      filter_eq_self.mpr (by simpa using hxs), filter_eq_self.mpr (by simpa using hys)]
  rw [detach_append, detach_cons, hchain,
    detach_of_notMem (fun c hc => h.full c (by simp [hc])) hC,
    detach_of_notMem (fun c hc => h.full c (by simp [hc])) hD]

theorem WellFormed.detach (h : WellFormed C) : WellFormed (detach k C) := by
  refine ⟨?_, ?_, ?_⟩
  · exact List.Pairwise.filter _ (pairwise_map.mpr h.sorted)
  · intro c hc
    simpa using (mem_filter.mp hc).2
  · rw [entries_detach]
    exact h.keys.sublist (filter_sublist.map _)

end Detach

section Find

variable [DecidableEq K]

theorem find_pair_eq_some {β : Type} {es : List (K × β)} (hkeys : (es.map fst).Nodup) {b : β} :
    (es.find? fun e => e.1 = k).map snd = some b ↔ (k, b) ∈ es := by
  induction es with
  | nil => simp
  | cons e es ih =>
    rw [map_cons, nodup_cons] at hkeys
    by_cases he : e.1 = k
    · have hnot : (k, b) ∉ es := fun hmem => hkeys.1 (he ▸ mem_map_of_mem (f := Prod.fst) hmem)
      rw [find?_cons_of_pos (by simpa using he), mem_cons]
      subst he
      simp [hnot, Prod.ext_iff, eq_comm]
    · have hne : (k, b) ≠ e := fun heq => he (heq ▸ rfl)
      rw [find?_cons_of_neg (by simpa using he), ih hkeys.2, mem_cons]
      simp [hne]

theorem find_eq_some (hkeys : ((entries C).map fst).Nodup) :
    find k C = some (t, v) ↔ (k, t, v) ∈ entries C :=
  find_pair_eq_some hkeys

theorem find_eq_none : find k C = none ↔ k ∉ (entries C).map fst := by
  rw [find, Option.map_eq_none_iff, find?_eq_none]
  constructor
  · rintro h hk
    obtain ⟨e, he, rfl⟩ := mem_map.mp hk
    exact h e he (by simp)
  · intro h e he heq
    exact h (mem_map.mpr ⟨e, he, by simpa using heq⟩)

end Find

section Values

variable [DecidableEq K]

theorem entries_setValue (k : K) (v : V) (C : Chains T K V) :
    entries (setValue k v C) = (entries C).map fun e => if e.1 = k then (e.1, e.2.1, v) else e := by
  induction C with
  | nil => rfl
  | cons c C ih =>
    have hmap : ((c.2.map fun e => if e.1 = k then (e.1, v) else e).map
          fun e => (e.1, c.1, e.2)) =
        (c.2.map fun e => (e.1, c.1, e.2)).map fun e => if e.1 = k then (e.1, e.2.1, v) else e := by
      rw [List.map_map, List.map_map]
      refine map_congr_left fun e _ => ?_
      by_cases he : e.1 = k <;> simp [he]
    rw [entries_cons, map_append, ← hmap, ← ih]
    rfl

theorem keys_setValue (k : K) (v : V) (C : Chains T K V) :
    (entries (setValue k v C)).map Prod.fst = (entries C).map Prod.fst := by
  rw [entries_setValue, List.map_map]
  refine map_congr_left fun e _ => ?_
  by_cases he : e.1 = k <;> simp [he]

theorem setValue_append (k : K) (v : V) (C D : Chains T K V) :
    setValue k v (C ++ D) = setValue k v C ++ setValue k v D := by
  simp [setValue]

theorem map_value_of_ne (v : V) (h : ∀ e ∈ es, e.1 ≠ k) :
    (es.map fun e => if e.1 = k then (e.1, v) else e) = es := by
  refine (map_congr_left fun e he => ?_).trans (map_id _)
  simp [h e he]

theorem setValue_of_notMem (v : V) (hk : k ∉ (entries C).map fst) : setValue k v C = C := by
  induction C with
  | nil => rfl
  | cons c C ih =>
    rw [entries_cons, map_append, mem_append, not_or] at hk
    have hc : ∀ e ∈ c.2, e.1 ≠ k := by
      rintro e he rfl
      exact hk.1 (by simpa using ⟨e.2, he⟩)
    have hrest := ih hk.2
    unfold setValue at hrest ⊢
    rw [map_cons, map_value_of_ne v hc, hrest]

theorem setValue_split [LinearOrder T] {v w : V}
    (h : WellFormed (C ++ (t, xs ++ (k, w) :: ys) :: D)) :
    setValue k v (C ++ (t, xs ++ (k, w) :: ys) :: D) = C ++ (t, xs ++ (k, v) :: ys) :: D := by
  obtain ⟨hC, hxs, hys, hD⟩ := h.once
  have hcons : setValue k v ((t, xs ++ (k, w) :: ys) :: D) =
      (t, xs ++ (k, v) :: ys) :: setValue k v D := by
    simp [setValue, map_value_of_ne v hxs, map_value_of_ne v hys]
  rw [setValue_append, setValue_of_notMem v hC, hcons, setValue_of_notMem v hD]

theorem setValue_push [LinearOrder T] {v w : V} (h : WellFormed C)
    (hk : k ∉ (entries C).map fst) : setValue k v (push t (k, w) C) = push t (k, v) C := by
  have hwf : WellFormed (push t (k, w) C) := h.push hk
  rcases push_shape t (k, w) h.sorted with
    ⟨A, es, B, rfl, hA, hpush⟩ | ⟨A, B, rfl, hA, hB, hpush⟩
  · rw [hpush] at hwf
    rw [hpush, push_split hA]
    have hwf' : WellFormed (A ++ (t, [] ++ (k, w) :: es) :: B) := hwf
    exact setValue_split hwf'
  · rw [hpush] at hwf
    rw [hpush, push_gap hA hB]
    have hwf' : WellFormed (A ++ (t, [] ++ (k, w) :: []) :: B) := hwf
    exact setValue_split hwf'

theorem WellFormed.setValue [LinearOrder T] (h : WellFormed C) : WellFormed (setValue k v C) := by
  refine ⟨pairwise_map.mpr h.sorted, ?_, ?_⟩
  · exact forall_mem_map.mpr fun d hd => by simpa using h.full d hd
  · rw [keys_setValue]
    exact h.keys

end Values

section Expire

variable [LinearOrder T] {time : T} {callback : Callback T V σ}

theorem expire_chains_append (hold : ∀ c ∈ C, c.1 ≤ time) (s : σ) :
    expire time callback es s (C ++ D) =
      ((expire time callback es s D).1, C ++ (expire time callback es s D).2) := by
  induction es generalizing s D with
  | nil => rfl
  | cons e es ih =>
    have hsettle : ∀ (r : Option T) (v : V),
        settle time r (e.1, v) (C ++ D) = C ++ settle time r (e.1, v) D := by
      intro r v
      unfold settle
      cases hr : r.filter (fun nt => time < nt) with
      | none => rfl
      | some nt =>
        have hlt : time < nt := by simpa using (Option.filter_eq_some_iff.mp hr).2
        exact push_append fun c hc => (hold c hc).trans_lt hlt
    simp only [expire, hsettle, ih]

theorem expire_append (es fs : List (K × V)) (s : σ) (C : Chains T K V) :
    expire time callback (es ++ fs) s C =
      expire time callback fs (expire time callback es s C).1 (expire time callback es s C).2 := by
  induction es generalizing s C with
  | nil => rfl
  | cons e es ih => simp only [cons_append, expire, ih]

theorem forwardTime_split {E C : Chains T K V} (callback : Callback T V σ) (s : σ)
    (hE : ∀ c ∈ E, c.1 ≤ time) (hC : ∀ c ∈ C, time < c.1) :
    forwardTime time callback s (E ++ C) = expire time callback (E.flatMap snd) s C := by
  have hpos : ∀ c ∈ E, decide (c.1 ≤ time) = true := fun c hc => decide_eq_true (hE c hc)
  have htake : C.takeWhile (fun c => c.1 ≤ time) = [] := by
    cases C with
    | nil => rfl
    | cons c C => simp [hC c mem_cons_self]
  have hdrop : C.dropWhile (fun c => c.1 ≤ time) = C := by
    cases C with
    | nil => rfl
    | cons c C => simp [hC c mem_cons_self]
  rw [forwardTime, takeWhile_append_of_pos hpos, dropWhile_append_of_pos hpos,
    htake, hdrop, append_nil]

end Expire

end Chains

end ZeroTrace.Chrono
