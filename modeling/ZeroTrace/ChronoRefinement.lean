import ZeroTrace.ChronoSweeps
import Mathlib.Data.Set.Card

/-!
# The time-ordered map refines a plain map

The plain map takes a key to its time and value, as a function.  `RefStep` says
what each operation does to it and what it returns: which of several entries of
the smallest time `remove_oldest` takes, and in which order `forward_time` and
`drain` visit entries of one time, is left open there.

`chronoMap_refines` runs any list of operations on the pointer structure: the
run ends without a panic in a well-formed structure, and what the operations
returned is what the plain map returns.
-/

namespace ZeroTrace.Chrono

open RustExec Chains List Function Prod Option Layout

variable {T K V σ : Type} {k : K}

/-- The reference: a map from keys to times and values. -/
abbrev PlainMap (T K V : Type) := K → Option (T × V)

/-- The operations of a `ChronoMap`.  The callback of `forwardTime` works on a
state `σ` that is kept through the whole run. -/
inductive Op (T K V σ : Type) where
  | insert (time : T) (key : K) (value : V)
  | remove (key : K)
  | removeOldest
  | moveToTime (key : K) (time : T)
  | forwardTime (time : T) (callback : Callback T V σ)
  | drain (range : T → Bool) (count : Nat)
  | get (key : K)
  | len

/-- What an operation returns. -/
inductive Out (V : Type) where
  | unit
  | value (v : Option V)
  | values (vs : List V)
  | count (n : Nat)

section Reference

variable [LinearOrder T] [DecidableEq K]

/-- The callback of `forward_time` on one key of the plain map. -/
def PlainMap.expire (time : T) (callback : Callback T V σ) (st : PlainMap T K V × σ) (k : K) :
    PlainMap T K V × σ :=
  match st.1 k with
  | none => st
  | some (_, v) =>
    let r := callback st.2 v
    (Function.update st.1 k
      ((r.1.filter fun nt => time < nt).map fun nt => (nt, r.2.1)), r.2.2)

/-- The keys of a list are those whose entries satisfy `p`, each once, in an
order of increasing time. -/
structure Lists (m : PlainMap T K V) (p : T → Prop) (ks : List K) : Prop where
  nodup : ks.Nodup
  mem : ∀ k, k ∈ ks ↔ ∃ t v, m k = some (t, v) ∧ p t
  ordered : ks.Pairwise fun k k' => ∀ e e', m k = some e → m k' = some e' → e.1 ≤ e'.1

/-- One operation on the plain map. -/
inductive RefStep : PlainMap T K V × σ → Op T K V σ → Out V → PlainMap T K V × σ → Prop
  | insert (m : PlainMap T K V) (s : σ) (t : T) (k : K) (v : V) :
      RefStep (m, s) (.insert t k v) (.value ((m k).map Prod.snd))
        (Function.update m k (some (t, v)), s)
  | remove (m : PlainMap T K V) (s : σ) (k : K) :
      RefStep (m, s) (.remove k) (.value ((m k).map Prod.snd)) (Function.update m k none, s)
  | removeNone (m : PlainMap T K V) (s : σ) (hempty : ∀ k, m k = none) :
      RefStep (m, s) .removeOldest (.value none) (m, s)
  | removeOldest (m : PlainMap T K V) (s : σ) (k : K) (t : T) (v : V)
      (hk : m k = some (t, v)) (hmin : ∀ k' t' v', m k' = some (t', v') → t ≤ t') :
      RefStep (m, s) .removeOldest (.value (some v)) (Function.update m k none, s)
  | moveToTime (m : PlainMap T K V) (s : σ) (k : K) (t : T) :
      RefStep (m, s) (.moveToTime k t) .unit
        (Function.update m k ((m k).map fun e => (t, e.2)), s)
  | forwardTime (m : PlainMap T K V) (s : σ) (time : T) (callback : Callback T V σ) (ks : List K)
      (hks : Lists m (· ≤ time) ks) :
      RefStep (m, s) (.forwardTime time callback) .unit
        (ks.foldl (PlainMap.expire time callback) (m, s))
  | drain (m : PlainMap T K V) (s : σ) (range : T → Bool) (count : Nat) (ks : List K)
      (hks : Lists m (fun t => range t = true) ks) :
      RefStep (m, s) (.drain range count)
        (.values ((ks.filterMap fun k => (m k).map Prod.snd).take count))
        (fun k => (m k).filter fun e => !range e.1, s)
  | get (m : PlainMap T K V) (s : σ) (k : K) :
      RefStep (m, s) (.get k) (.value ((m k).map Prod.snd)) (m, s)
  | len (m : PlainMap T K V) (s : σ) :
      RefStep (m, s) .len (.count {k | (m k).isSome}.ncard) (m, s)

/-- A list of operations on the plain map. -/
inductive RefRun : PlainMap T K V × σ → List (Op T K V σ) → List (Out V) →
    PlainMap T K V × σ → Prop
  | nil (st : PlainMap T K V × σ) : RefRun st [] [] st
  | cons {st st' st'' : PlainMap T K V × σ} {op : Op T K V σ} {ops : List (Op T K V σ)}
      {out : Out V} {outs : List (Out V)} (head : RefStep st op out st')
      (tail : RefRun st' ops outs st'') : RefRun st (op :: ops) (out :: outs) st''

end Reference

section Listing

/-- A list of entries with distinct keys and the plain map it stands for. -/
structure Holds (es : List (K × T × V)) (m : PlainMap T K V) : Prop where
  keys : (es.map Prod.fst).Nodup
  mem : ∀ k t v, m k = some (t, v) ↔ (k, t, v) ∈ es

variable {m : PlainMap T K V}

theorem Holds.perm {es fs : List (K × T × V)} (h : Holds es m) (hperm : fs.Perm es) : Holds fs m :=
  ⟨((hperm.map _).nodup_iff).mpr h.keys, fun k t v => (h.mem k t v).trans hperm.mem_iff.symm⟩

variable {es : List (K × T × V)}

theorem Holds.eq_none (h : Holds es m) : m k = none ↔ k ∉ es.map fst := by
  constructor
  · intro hk hmem
    obtain ⟨⟨k, t, v⟩, he, rfl⟩ := mem_map.mp hmem
    rw [(h.mem k t v).mpr he] at hk
    cases hk
  · intro hk
    by_contra hne
    obtain ⟨⟨t, v⟩, he⟩ := ne_none_iff_exists'.mp hne
    exact hk (mem_map_of_mem ((h.mem k t v).mp he))

theorem Holds.ncard (h : Holds es m) : {k | (m k).isSome}.ncard = es.length := by
  classical
  have hset : {k | (m k).isSome} = ((es.map fst).toFinset : Set K) := by
    ext k
    have hnone := h.eq_none (k := k)
    rw [Set.mem_ofPred_eq, coe_toFinset, Set.mem_ofPred_eq, ← ne_none_iff_isSome,
      ne_eq, hnone, not_not]
  rw [hset, Set.ncard_coe_finset, toFinset_card_of_nodup h.keys, length_map]

variable [DecidableEq K]

theorem Holds.cons (h : Holds es m) (hk : k ∉ es.map fst) (t : T) (v : V) :
    Holds ((k, t, v) :: es) (update m k (some (t, v))) := by
  refine ⟨by simpa using ⟨by simpa using hk, h.keys⟩, ?_⟩
  intro k' t' v'
  by_cases hkk : k' = k
  · subst hkk
    have hno : (k', t', v') ∉ es := fun hmem => hk (mem_map_of_mem hmem)
    simp [hno, eq_comm]
  · rw [update_of_ne hkk, h.mem]
    simp [hkk]

theorem Holds.tail {t : T} {v : V} (h : Holds ((k, t, v) :: es) m) :
    Holds es (update m k none) := by
  have hkeys := h.keys
  rw [map_cons, nodup_cons] at hkeys
  refine ⟨hkeys.2, ?_⟩
  intro k' t' v'
  by_cases hkk : k' = k
  · subst hkk
    have hno : (k', t', v') ∉ es := fun hmem => hkeys.1 (mem_map.mpr ⟨_, hmem, rfl⟩)
    simp [hno]
  · rw [update_of_ne hkk, h.mem]
    simp [hkk]

theorem Holds.erase (h : Holds es m) (k : K) :
    Holds (es.filter fun e => !decide (e.1 = k)) (update m k none) := by
  refine ⟨h.keys.sublist (filter_sublist.map _), ?_⟩
  intro k' t' v'
  by_cases hkk : k' = k
  · subst hkk
    simp
  · rw [update_of_ne hkk, h.mem]
    simp [hkk]

end Listing

section Chains

variable {C : Chains T K V} {m : PlainMap T K V} (h : Holds (entries C) m)

include h

theorem Holds.lists [LinearOrder T] (hwf : WellFormed C) (p : T → Bool) :
    Lists m (fun t => p t = true) (((entries C).filter fun e => p e.2.1).map fst) := by
  refine ⟨h.keys.sublist (filter_sublist.map _), ?_, ?_⟩
  · intro k
    rw [List.mem_map]
    constructor
    · rintro ⟨⟨k, t, v⟩, he, rfl⟩
      obtain ⟨hmem, hp⟩ := mem_filter.mp he
      exact ⟨t, v, (h.mem k t v).mpr hmem, hp⟩
    · rintro ⟨t, v, hk, hp⟩
      exact ⟨(k, t, v), mem_filter.mpr ⟨(h.mem k t v).mp hk, hp⟩, rfl⟩
  · rw [pairwise_map]
    refine (hwf.ordered.sublist filter_sublist).imp_of_mem ?_
    intro e f he hf hle e' f' he' hf'
    have h1 := (h.mem e.1 e.2.1 e.2.2).mpr (mem_filter.mp he).1
    have h2 := (h.mem f.1 f.2.1 f.2.2).mpr (mem_filter.mp hf).1
    rw [h1] at he'
    rw [h2] at hf'
    cases he'
    cases hf'
    exact hle

variable [DecidableEq K]

theorem Holds.find (k : K) : find k C = m k := by
  refine ext fun e => ?_
  rw [find_eq_some h.keys]
  exact (h.mem k e.1 e.2).symm

theorem Holds.detach (k : K) : Holds (entries (detach k C)) (update m k none) := by
  rw [entries_detach]
  exact h.erase k

theorem Holds.setValue {t : T} {old : V} (hk : m k = some (t, old)) (v : V) :
    Holds (entries (setValue k v C)) (update m k (some (t, v))) := by
  refine ⟨by rw [keys_setValue]; exact h.keys, ?_⟩
  intro k' t' v'
  rw [entries_setValue, List.mem_map]
  by_cases hkk : k' = k
  · subst hkk
    rw [update_self]
    constructor
    · intro heq
      cases heq
      exact ⟨(k', t, old), (h.mem _ _ _).mp hk, by simp⟩
    rintro ⟨⟨k₀, t₀, v₀⟩, he, heq⟩
    by_cases hk₀ : k₀ = k'
    · subst hk₀
      rw [(h.mem _ _ _).mpr he] at hk
      cases hk
      simpa using heq
    · simp only [hk₀, if_false, mk.injEq, false_and] at heq
  · rw [update_of_ne hkk, h.mem]
    constructor
    · intro he
      exact ⟨_, he, by simp [hkk]⟩
    rintro ⟨⟨k₀, t₀, v₀⟩, he, heq⟩
    by_cases hk₀ : k₀ = k
    · simp only [hk₀, if_true, mk.injEq] at heq
      exact absurd heq.1.symm hkk
    · simp only [hk₀, if_false] at heq
      rwa [heq] at he

theorem Holds.remove (k : K) :
    (remove k C).1 = (m k).map snd ∧
      Holds (entries (remove k C).2) (update m k none) := by
  have hfind := h.find k
  cases hk : m k with
  | none =>
    rw [hk] at hfind
    simp only [Chains.remove, hfind]
    refine ⟨rfl, ?_⟩
    rw [← hk, update_eq_self]
    exact h
  | some e =>
    rw [hk] at hfind
    simp only [Chains.remove, hfind]
    exact ⟨rfl, h.detach k⟩

variable [LinearOrder T]

theorem Holds.push (hk : k ∉ (entries C).map fst) (t : T) (v : V) :
    Holds (entries (push t (k, v) C)) (update m k (some (t, v))) :=
  (h.cons hk t v).perm (entries_push t (k, v) C)

theorem Holds.moved (k : K) (t : T) (v : V) :
    Holds (entries (Chains.push t (k, v) (Chains.detach k C)))
      (update m k (some (t, v))) := by
  have hmove := (h.detach k).push (notMem_detach k C) t v
  rwa [update_idem] at hmove

theorem Holds.insert (t : T) (k : K) (v : V) :
    (Chains.insert t k v C).1 = (m k).map snd ∧
      Holds (entries (insert t k v C).2) (update m k (some (t, v))) := by
  have hfind := h.find k
  cases hk : m k with
  | none =>
    rw [hk] at hfind
    simp only [Chains.insert, hfind]
    exact ⟨rfl, h.push (h.eq_none.mp hk) t v⟩
  | some e =>
    obtain ⟨t', old⟩ := e
    rw [hk] at hfind
    by_cases ht : t' = t
    · subst ht
      simp only [Chains.insert, hfind, if_true]
      exact ⟨rfl, h.setValue hk v⟩
    · simp only [Chains.insert, hfind, if_neg ht]
      exact ⟨rfl, h.moved k t v⟩

theorem Holds.moveToTime (k : K) (t : T) :
    Holds (entries (Chains.moveToTime k t C))
      (update m k ((m k).map fun e => (t, e.2))) := by
  have hfind := h.find k
  cases hk : m k with
  | none =>
    rw [hk] at hfind
    simp only [Chains.moveToTime, hfind, map_none]
    rw [← hk, update_eq_self]
    exact h
  | some e =>
    obtain ⟨t', v⟩ := e
    rw [hk] at hfind
    by_cases ht : t' = t
    · subst ht
      simp only [Chains.moveToTime, hfind, if_true, map_some]
      rw [← hk, update_eq_self]
      exact h
    · simp only [Chains.moveToTime, hfind, if_neg ht, map_some]
      exact h.moved k t v

theorem Holds.removeOldest (hwf : WellFormed C) (s : σ) :
    ∃ m', RefStep (m, s) .removeOldest (.value (removeOldest C).1) (m', s) ∧
      Holds (entries (removeOldest C).2) m' := by
  cases hes : entries C with
  | nil =>
    simp only [Chains.removeOldest, hes]
    refine ⟨m, .removeNone m s fun k => ?_, hes ▸ h⟩
    rw [h.eq_none, hes]
    simp
  | cons e es =>
    obtain ⟨k, t, v⟩ := e
    simp only [Chains.removeOldest, hes]
    have hk : m k = some (t, v) := (h.mem k t v).mpr (by simp [hes])
    refine ⟨update m k none, .removeOldest m s k t v hk ?_, h.detach k⟩
    intro k' t' v' hk'
    have hmem := (h.mem k' t' v').mp hk'
    have hord := hwf.ordered
    rw [hes] at hmem hord
    rcases mem_cons.mp hmem with heq | hmem
    · cases heq
      exact le_refl _
    · exact (pairwise_cons.mp hord).1 _ hmem

omit h in
/-- **Expiring entries one by one**, on chains and on the plain map. -/
theorem Holds.expire (time : T) (callback : Callback T V σ) :
    ∀ (es : List (K × T × V)) (C : Chains T K V) (m : PlainMap T K V) (s : σ),
      Holds (es ++ entries C) m →
      ((es.map fst).foldl (PlainMap.expire time callback) (m, s)).2 =
          (expire time callback (es.map fun e => (e.1, e.2.2)) s C).1 ∧
        Holds (entries (expire time callback (es.map fun e => (e.1, e.2.2)) s C).2)
          ((es.map fst).foldl (PlainMap.expire time callback) (m, s)).1 := by
  intro es
  induction es with
  | nil => exact fun C m s h => ⟨rfl, h⟩
  | cons e es ih =>
    obtain ⟨k, t, v⟩ := e
    intro C m s h
    have hk : m k = some (t, v) := (h.mem k t v).mpr (by simp)
    have hkeys := h.keys
    rw [cons_append, map_cons, nodup_cons] at hkeys
    rcases hcall : callback s v with ⟨newTime, v', s'⟩
    have hstep : PlainMap.expire time callback (m, s) k = (update m k
        ((newTime.filter fun nt => time < nt).map fun nt => (nt, v')), s') := by
      simp only [PlainMap.expire, hk, hcall]
    have hnext : Holds (es ++ entries (settle time newTime (k, v') C)) (update m k
        ((newTime.filter fun nt => time < nt).map fun nt => (nt, v'))) := by
      cases hnew : newTime.filter (fun nt => time < nt) with
      | none =>
        simp only [settle, hnew, map_none]
        exact h.tail
      | some nt =>
        simp only [settle, hnew, map_some]
        have hcons := (Holds.tail h).cons hkeys.1 nt v'
        rw [update_idem] at hcons
        exact hcons.perm (((entries_push nt (k, v') C).append_left es).trans perm_middle)
    have hrest := ih _ _ s' hnext
    simp only [map_cons, foldl_cons, hstep, Chains.expire, hcall]
    exact hrest

theorem Holds.forwardTime (hwf : WellFormed C) (time : T) (callback : Callback T V σ) (s : σ) :
    ∃ m', RefStep (m, s) (.forwardTime time callback) .unit
        (m', (forwardTime time callback s C).1) ∧
      Holds (entries (forwardTime time callback s C).2) m' := by
  have htake : entries (C.takeWhile fun c => c.1 ≤ time) =
      (entries C).filter fun e => decide (e.2.1 ≤ time) := by
    rw [takeWhile_eq_filter hwf.sorted, entries_filter fun t => decide (t ≤ time)]
  have hsplit : entries (C.takeWhile fun c => c.1 ≤ time) ++
      entries (C.dropWhile fun c => c.1 ≤ time) = entries C := by
    rw [← entries_append, takeWhile_append_dropWhile]
  have hlists := h.lists hwf fun t => decide (t ≤ time)
  rw [← htake] at hlists
  simp only [decide_eq_true_eq] at hlists
  have hexp := Holds.expire time callback _ _ m s (hsplit ▸ h)
  have href := RefStep.forwardTime m s time callback _ hlists
  rw [Chains.forwardTime, flatMap_snd, ← hexp.1]
  exact ⟨_, href, hexp.2⟩

theorem Holds.drain (hwf : WellFormed C) (range : T → Bool) (count : Nat) (s : σ) :
    ∃ m', RefStep (m, s) (.drain range count) (.values (drain range count C).1) (m', s) ∧
      Holds (entries (Chains.drain range count C).2) m' := by
  have hlists := h.lists hwf range
  have href := RefStep.drain m s range count _ hlists
  have hvalues : ((((entries C).filter fun e => range e.2.1).map fst).filterMap
      fun k => (m k).map snd).take count = (Chains.drain range count C).1 := by
    rw [Chains.drain, flatMap_snd, entries_filter, map_take, List.map_map, filterMap_map]
    congr 1
    refine filterMap_eq_map_iff_forall_eq_some.mpr ?_
    intro e he
    have hk := (h.mem e.1 e.2.1 e.2.2).mpr (mem_filter.mp he).1
    simp [hk]
  rw [hvalues] at href
  refine ⟨_, href, ?_⟩
  have hkept : entries (Chains.drain range count C).2 =
      (entries C).filter fun e => !range e.2.1 := entries_filter (fun t => !range t) C
  rw [hkept]
  refine ⟨h.keys.sublist (filter_sublist.map _), ?_⟩
  intro k t v
  rw [filter_eq_some_iff, h.mem, mem_filter]

end Chains

section Runs

variable [LinearOrder T] [DecidableEq K] {m : ChronoMap T K V}

/-- The structure is well formed: its boxes hold some layout (chains that are
linked through in both directions, each node on one chain and each box used
once), the timeline lists the heads in strictly increasing order of time, no
chain is empty, and `entries` leads from a key to a node exactly when the node
is on a chain under that key. -/
def ChronoMap.WellFormed (m : ChronoMap T K V) : Prop := ∃ L, Rep m L

/-- One operation on the pointer structure. -/
def step (st : ChronoMap T K V × σ) : Op T K V σ → Exec (Out V × ChronoMap T K V × σ)
  | .insert t k v => do
    let (r, m) ← st.1.insert t k v
    return (.value r, m, st.2)
  | .remove k => do
    let (r, m) ← st.1.remove k
    return (.value r, m, st.2)
  | .removeOldest => do
    let (r, m) ← st.1.removeOldest
    return (.value r, m, st.2)
  | .moveToTime k t => do
    let m ← st.1.moveToTime k t
    return (.unit, m, st.2)
  | .forwardTime t callback => do
    let (s, m) ← st.1.forwardTime t callback st.2
    return (.unit, m, s)
  | .drain range count => do
    let (vs, m) ← st.1.drain range count
    return (.values vs, m, st.2)
  | .get k => do
    let r ← st.1.get k
    return (.value r, st)
  | .len => return (.count st.1.len, st)

/-- A list of operations on the pointer structure. -/
def runOps : ChronoMap T K V × σ → List (Op T K V σ) →
    Exec (List (Out V) × ChronoMap T K V × σ)
  | st, [] => return ([], st)
  | st, op :: ops => do
    let (out, st) ← step st op
    let (outs, st) ← runOps st ops
    return (out :: outs, st)

/-- **One step.**  An operation on a well-formed structure ends without a panic
in a well-formed structure and returns what the plain map returns. -/
theorem step_refines {L : Layout T K V} {pm : PlainMap T K V}
    (h : Rep m L) (hpm : Holds (entries (chains L)) pm) (s : σ) (op : Op T K V σ) :
    ∃ out m' s' L' pm', step (m, s) op = .ok (out, m', s') ∧ Rep m' L' ∧
      RefStep (pm, s) op out (pm', s') ∧ Holds (entries (chains L')) pm' := by
  cases op with
  | insert t k v =>
    obtain ⟨m', L', hop, hrep, hchains⟩ := h.insert t k v
    obtain ⟨hret, hholds⟩ := hpm.insert t k v
    rw [hret] at hop
    exact ⟨_, m', s, L', _, by simp only [step, hop, ok_bind, pure_eq_ok], hrep,
      .insert pm s t k v, hchains ▸ hholds⟩
  | remove k =>
    obtain ⟨m', L', hop, hrep, hchains⟩ := h.remove k
    obtain ⟨hret, hholds⟩ := hpm.remove k
    rw [hret] at hop
    exact ⟨_, m', s, L', _, by simp only [step, hop, ok_bind, pure_eq_ok], hrep,
      .remove pm s k, hchains ▸ hholds⟩
  | removeOldest =>
    obtain ⟨m', L', hop, hrep, hchains⟩ := h.removeOldest
    obtain ⟨pm', href, hholds⟩ := hpm.removeOldest h.wf s
    exact ⟨_, m', s, L', pm', by simp only [step, hop, ok_bind, pure_eq_ok], hrep, href,
      hchains ▸ hholds⟩
  | moveToTime k t =>
    obtain ⟨m', L', hop, hrep, hchains⟩ := h.moveToTime k t
    exact ⟨_, m', s, L', _, by simp only [step, hop, ok_bind, pure_eq_ok], hrep,
      .moveToTime pm s k t, hchains ▸ hpm.moveToTime k t⟩
  | forwardTime t callback =>
    obtain ⟨m', L', hop, hrep, hchains⟩ := h.forwardTime t callback s
    obtain ⟨pm', href, hholds⟩ := hpm.forwardTime h.wf t callback s
    exact ⟨_, m', _, L', pm', by simp only [step, hop, ok_bind, pure_eq_ok], hrep, href,
      hchains ▸ hholds⟩
  | drain range count =>
    obtain ⟨m', L', hop, hrep, hchains⟩ := h.drain range count
    obtain ⟨pm', href, hholds⟩ := hpm.drain h.wf range count s
    exact ⟨_, m', s, L', pm', by simp only [step, hop, ok_bind, pure_eq_ok], hrep, href,
      hchains ▸ hholds⟩
  | get k =>
    have hget := h.get k
    rw [hpm.find k] at hget
    exact ⟨_, m, s, L, pm, by simp only [step, hget, ok_bind, pure_eq_ok], h, .get pm s k, hpm⟩
  | len =>
    refine ⟨_, m, s, L, pm, rfl, h, ?_, hpm⟩
    rw [h.len, ← hpm.ncard]
    exact .len pm s

/-- **Runs.**  The step lemma, along a list of operations. -/
theorem run_refines :
    ∀ (ops : List (Op T K V σ)) (m : ChronoMap T K V) (s : σ) (L : Layout T K V)
      (pm : PlainMap T K V), Rep m L → Holds (entries (chains L)) pm →
      ∃ outs m' s' L' pm', runOps (m, s) ops = .ok (outs, m', s') ∧ Rep m' L' ∧
        RefRun (pm, s) ops outs (pm', s') ∧ Holds (entries (chains L')) pm' := by
  intro ops
  induction ops with
  | nil =>
    intro m s L pm h hpm
    exact ⟨[], m, s, L, pm, rfl, h, .nil _, hpm⟩
  | cons op ops ih =>
    intro m s L pm h hpm
    obtain ⟨out, m₁, s₁, L₁, pm₁, hstep, hrep₁, href₁, hholds₁⟩ := step_refines h hpm s op
    obtain ⟨outs, m', s', L', pm', hrun, hrep, href, hholds⟩ := ih m₁ s₁ L₁ pm₁ hrep₁ hholds₁
    exact ⟨out :: outs, m', s', L', pm', by simp only [runOps, hstep, hrun, ok_bind, pure_eq_ok],
      hrep, .cons href₁ href, hholds⟩

omit [LinearOrder T] [DecidableEq K] in
theorem holds_empty : Holds (entries (chains ([] : Layout T K V))) fun _ => none :=
  ⟨by simp [Layout.chains], by simp [Layout.chains]⟩

/-- **A `ChronoMap` refines a plain map.**  Every list of operations on a new
map runs to its end, so no access through a pointer is invalid and the
`unreachable!()` of `remove_from_time_chain` is not reached; the structure it
ends in is well formed; and the operations, a `get` of any key and `len`
included, return what the plain map returns. -/
theorem chronoMap_refines (ops : List (Op T K V σ)) (s : σ) :
    ∃ outs m s' pm, runOps (ChronoMap.new, s) ops = .ok (outs, m, s') ∧
      m.WellFormed ∧ RefRun (fun _ => none, s) ops outs (pm, s') ∧
      (∀ k, m.get k = .ok ((pm k).map Prod.snd)) ∧
      m.len = {k | (pm k).isSome}.ncard := by
  obtain ⟨outs, m, s', L, pm, hrun, hrep, href, hholds⟩ :=
    run_refines ops ChronoMap.new s [] _ rep_new holds_empty
  refine ⟨outs, m, s', pm, hrun, ⟨L, hrep⟩, href, ?_, ?_⟩
  · intro k
    rw [hrep.get k, hholds.find k]
  · rw [hrep.len, hholds.ncard]

/-- A well-formed structure and the plain map it stands for. -/
def Shows (m : ChronoMap T K V) (pm : PlainMap T K V) : Prop :=
  ∃ L, Rep m L ∧ Holds (entries (Layout.chains L)) pm

theorem exists_shows (h : m.WellFormed) : ∃ pm, Shows m pm := by
  obtain ⟨L, hrep⟩ := h
  exact ⟨fun k => find k _, L, hrep, hrep.wf.keys, fun k t v => find_eq_some hrep.wf.keys⟩

/-- The state of a callback after it was called on the entries of some keys. -/
def PlainMap.called (pm : PlainMap T K V) (callback : Callback T V σ) (s : σ) (ks : List K) : σ :=
  ks.foldl (fun s k => (pm k).elim s fun e => (callback s e.2).2.2) s

/-- What a callback made of the entries of some keys, one after the other: each one is at
the later time that its own call gave, with the value that it left, or gone. -/
structure Forwarded (pm pm' : PlainMap T K V) (time : T) (callback : Callback T V σ) (s : σ)
    (ks : List K) : Prop where
  visited : ∀ k ∈ ks, ∃ before after, ks = before ++ k :: after ∧ ∀ t v, pm k = some (t, v) →
    let r := callback (pm.called callback s before) v
    pm' k = (r.1.filter fun nt => time < nt).map fun nt => (nt, r.2.1)
  others : ∀ k ∉ ks, pm' k = pm k

theorem forwarded_foldl (pm : PlainMap T K V) (time : T) (callback : Callback T V σ) (s : σ)
    {ks : List K} (hks : ks.Nodup) :
    Forwarded pm (ks.foldl (PlainMap.expire time callback) (pm, s)).1 time callback s ks ∧
      (ks.foldl (PlainMap.expire time callback) (pm, s)).2 = pm.called callback s ks := by
  induction ks using List.reverseRecOn with
  | nil => exact ⟨⟨nofun, fun _ _ => rfl⟩, rfl⟩
  | append_singleton ks k ih =>
    obtain ⟨hnodup, -, hdisj⟩ := nodup_append.mp hks
    obtain ⟨⟨hvisited, hothers⟩, hstate⟩ := ih hnodup
    have hk : k ∉ ks := fun hmem => hdisj k hmem k (by simp) rfl
    have hold := hothers k hk
    rw [foldl_append, foldl_cons, foldl_nil, PlainMap.called, foldl_append]
    rw [PlainMap.called] at hstate
    generalize ks.foldl (PlainMap.expire time callback) (pm, s) = st at *
    have hother : ∀ k' ≠ k, (PlainMap.expire time callback st k).1 k' = st.1 k' := by
      intro k' hne
      unfold PlainMap.expire
      split
      · rfl
      · exact update_of_ne hne _ _
    refine ⟨⟨fun k' hk' => ?_, fun k' hk' => ?_⟩, ?_⟩
    · rcases mem_append.mp hk' with hmem | hmem
      · obtain ⟨before, after, rfl, hcall⟩ := hvisited k' hmem
        refine ⟨before, after ++ [k], by simp, fun t v hv => ?_⟩
        rw [hother k' (fun heq => hk (heq ▸ hmem)), hcall t v hv]
      · obtain rfl := mem_singleton.mp hmem
        refine ⟨ks, [], rfl, fun t v hv => ?_⟩
        rw [hv] at hold
        simp [PlainMap.expire, hold, hstate, PlainMap.called]
    · simp only [mem_append, mem_singleton, not_or] at hk'
      rw [hother k' hk'.2, hothers k' hk'.1]
    · unfold PlainMap.expire
      rw [← hstate, foldl_cons, foldl_nil, ← hold]
      cases st.1 k <;> rfl

/-- **Forwarding the time.**  On a well-formed structure `forward_time` ends without a panic.
The callback is called once for each entry up to the time and for no other, in an order of
increasing times; an entry it was called on is there exactly if it gave a later time, at that
time and with the value it left, and all others stay as they are; and no head up to the time
is left. -/
theorem forward_time_exact {m : ChronoMap T K V} (h : m.WellFormed) (time : T)
    (callback : Callback T V σ) (s : σ) :
    (∃ pm, Shows m pm) ∧ ∀ pm, Shows m pm → ∃ ks m' pm' L', Lists pm (· ≤ time) ks ∧
      Forwarded pm pm' time callback s ks ∧
      m.forwardTime time callback s = .ok (pm.called callback s ks, m') ∧
      Rep m' L' ∧ Holds (entries (Layout.chains L')) pm' ∧ ∀ c ∈ Layout.chains L', time < c.1 := by
  refine ⟨exists_shows h, fun pm ⟨L, hrep, hpm⟩ => ?_⟩
  obtain ⟨m', L', hop, hrep', hchains⟩ := hrep.forwardTime time callback s
  obtain ⟨pm', href, hholds⟩ := hpm.forwardTime hrep.wf time callback s
  rw [← hchains] at hholds
  generalize hst : (pm', (forwardTime time callback s (chains L)).1) = st at href
  cases href with
  | forwardTime _ _ _ _ ks hks =>
    obtain ⟨hforward, hstate⟩ := forwarded_foldl pm time callback s hks.nodup
    rw [← hst] at hforward hstate
    dsimp only at hforward hstate
    refine ⟨ks, m', pm', L', hks, hforward, by rw [hop, ← hstate], hrep', hholds, ?_⟩
    intro c hc
    -- a chain is not empty, and what is on it was moved there or is not expired
    obtain ⟨e, es, hes⟩ := exists_cons_of_ne_nil (hrep'.wf.full c hc)
    have hk : pm' e.1 = some (c.1, e.2) :=
      (hholds.mem _ _ _).mpr (mem_flatMap.mpr ⟨c, hc, by simp [hes]⟩)
    by_cases hmem : e.1 ∈ ks
    · obtain ⟨t, v, hv, -⟩ := (hks.mem e.1).mp hmem
      obtain ⟨before, after, -, hcall⟩ := hforward.visited e.1 hmem
      rw [hcall t v hv] at hk
      obtain ⟨nt, hnt, heq⟩ := map_eq_some_iff.mp hk
      obtain rfl : nt = c.1 := congrArg fst heq
      exact of_decide_eq_true (filter_eq_some_iff.mp hnt).2
    · rw [hforward.others e.1 hmem] at hk
      exact lt_of_not_ge fun hle => hmem ((hks.mem e.1).mpr ⟨_, _, hk, hle⟩)

/-- One entry of time 1 is inserted, and moved on from there to time 4. -/
theorem forward_time_exact_moved :
    ∃ out s s' m m', step (ChronoMap.new, 0) (.insert 1 7 5) = .ok (out, m, s) ∧
      m.forwardTime 3 (fun s v => (some 4, v, s + v)) s = .ok (s', m') := by
  obtain ⟨out, m, s, L, pm, hstep, hrep, -, hpm⟩ :=
    step_refines (T := Nat) (K := Nat) (V := Nat) rep_new holds_empty 0 (.insert 1 7 5)
  obtain ⟨ks, m', pm', L', -, -, hok, -⟩ :=
    (forward_time_exact ⟨L, hrep⟩ 3 (fun s v => (some 4, v, s + v)) s).2 pm ⟨L, hrep, hpm⟩
  exact ⟨out, s, _, m, m', hstep, hok⟩

end Runs

end ZeroTrace.Chrono
