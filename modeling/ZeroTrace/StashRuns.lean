import ZeroTrace.StashKeyTags

/-!
# Runs of the stash

Between two flushes the stash is a function of what was added: under a key lies the
merge of all meters that were filed there, with the tags of the first.  So its documents
carry the tags of all that was merged into them exactly as long as no two documents of a
window are hidden from each other.
-/

namespace ZeroTrace.Collector

open RustExec Runs List Stash

variable {M : Type}

theorem SameTags.refl (t : Tagger) : SameTags t t :=
  ⟨rfl, fun _ => rfl, fun _ => rfl, fun _ => rfl, fun _ => rfl, fun _ => rfl, fun _ => rfl,
    fun _ => rfl, fun _ => rfl, fun _ => rfl, fun _ => rfl, fun _ => rfl, fun _ => rfl,
    fun _ => rfl, rfl, rfl⟩

/-- What was added since the last flush. -/
abbrev Window (M : Type) := List (Entry × M)

variable [SequentialMerge M] {window : Window M} {p : Entry × M} {e : Entry} {meter : M}

/-- A document with one more meter. -/
def joined (doc : Option (Document M)) (e : Entry) (meter : M) : Document M :=
  match doc with
  | some doc => { doc with meter := SequentialMerge.sequentialMerge doc.meter meter }
  | none => ⟨e.tagger, meter⟩

/-- The document that a window makes under a key. -/
def gather (key : StashKey) (window : Window M) : Option (Document M) :=
  (window.filter fun p => p.1.stashKey = key).foldl (fun doc p => some (joined doc p.1 p.2)) none

theorem gather_append (key : StashKey) (window : Window M) (e : Entry) (meter : M) :
    gather key (window ++ [(e, meter)]) =
      if e.stashKey = key then some (joined (gather key window) e meter)
      else gather key window := by
  unfold gather
  rw [filter_append, foldl_append]
  split_ifs with h
  · rw [filter_cons_of_pos (by simpa using h)]
    rfl
  · rw [filter_cons_of_neg (by simpa using h)]
    rfl

theorem gather_first {key : StashKey} {doc : Document M} (h : gather key window = some doc) :
    ∃ p ∈ window, p.1.stashKey = key ∧ p.1.tagger = doc.tagger := by
  induction window using reverseRecOn generalizing doc with
  | nil => cases h
  | append_singleton window p ih =>
    rw [gather_append] at h
    by_cases hkey : p.1.stashKey = key
    · rw [if_pos hkey] at h
      cases hdoc : gather key window with
      | none =>
        rw [hdoc] at h
        cases h
        exact ⟨p, by simp, hkey, rfl⟩
      | some doc' =>
        obtain ⟨q, hq, hqkey, hqtags⟩ := ih hdoc
        rw [hdoc] at h
        cases h
        exact ⟨q, mem_append_left _ hq, hqkey, hqtags⟩
    · rw [if_neg hkey] at h
      obtain ⟨q, hq, hqkey, hqtags⟩ := ih h
      exact ⟨q, mem_append_left _ hq, hqkey, hqtags⟩

theorem exists_gather (h : p ∈ window) : ∃ doc, gather p.1.stashKey window = some doc := by
  induction window using reverseRecOn with
  | nil => cases h
  | append_singleton window q ih =>
    rw [gather_append]
    by_cases hkey : q.1.stashKey = p.1.stashKey
    · exact ⟨_, if_pos hkey⟩
    rw [if_neg hkey]
    rw [mem_append, mem_singleton] at h
    obtain hp | rfl := h
    · exact ih hp
    · exact absurd rfl hkey

theorem Stash.lookup_add (stash : Stash M) (e : Entry) (meter : M) (key : StashKey) :
    (stash.add e.stashKey e.tagger meter).inner.lookup key =
      if e.stashKey = key then some (joined (stash.inner.lookup e.stashKey) e meter)
      else stash.inner.lookup key := by
  unfold add joined
  cases stash.inner.lookup e.stashKey <;>
    exact (Tables.lookup_insert _ _ _ _).trans (if_congr eq_comm rfl rfl)

/-- A stash together with what was added to it since the last flush. -/
structure Recorded (M : Type) where
  stash : Stash M
  window : Window M

inductive StashCall (M : Type) where
  | add (e : Entry) (meter : M)
  | flushStats

namespace Recorded

def start : Recorded M := ⟨.empty, []⟩

variable (s : Recorded M)

/-- One call. -/
def step : StashCall M → Exec (Recorded M)
  | .add e meter =>
    s.stash.addEntry e meter >>= fun stash => .ok ⟨stash, s.window ++ [(e, meter)]⟩
  | .flushStats => .ok ⟨s.stash.flushStats, []⟩

/-- Under every key lies the merge of the meters that were filed there, and all of them
were filed with the tags of the document. -/
structure Exact (s : Recorded M) : Prop where
  merged : ∀ key, s.stash.inner.lookup key = gather key s.window
  tags : ∀ key doc, s.stash.inner.lookup key = some doc →
    ∀ p ∈ s.window, p.1.key = .ok key → SameTags doc.tagger p.1.tagger

/-- Nothing that the window has is hidden from what is added. -/
def Clear : StashCall M → Prop
  | .add e _ => ∀ p ∈ s.window, ¬ Entry.Hidden p.1 e
  | .flushStats => True

theorem step_add (e : Entry) (meter : M) :
    s.step (.add e meter) =
      .ok ⟨s.stash.add e.stashKey e.tagger meter, s.window ++ [(e, meter)]⟩ := by
  rw [step, addEntry, e.key_eq]
  rfl

theorem exact_start : Exact (start : Recorded M) where
  merged _ := rfl
  tags _ _ _ _ hp := nomatch hp

theorem Exact.add {s : Recorded M} (h : s.Exact) (hclear : ∀ p ∈ s.window, ¬ Entry.Hidden p.1 e) :
    Exact ⟨s.stash.add e.stashKey e.tagger meter, s.window ++ [(e, meter)]⟩ where
  merged key := by
    rw [lookup_add, gather_append, h.merged, h.merged]
    by_cases hkey : e.stashKey = key
    · rw [hkey]
    · rw [if_neg hkey, if_neg hkey]
  tags key doc hdoc p hp hkey := by
    rw [lookup_add] at hdoc
    rw [p.1.key_eq, Except.ok.injEq] at hkey
    rw [mem_append, mem_singleton] at hp
    by_cases hkey' : e.stashKey = key
    · rw [if_pos hkey', Option.some.injEq] at hdoc
      cases hold : s.stash.inner.lookup e.stashKey with
      | none =>
        rw [hold] at hdoc
        obtain hp | rfl := hp
        · -- A document of the window with this key would have been found.
          obtain ⟨old, hgather⟩ := exists_gather hp
          rw [hkey, ← hkey', ← h.merged, hold] at hgather
          cases hgather
        · rw [← hdoc]
          exact SameTags.refl _
      | some old =>
        rw [hold] at hdoc
        have htags : doc.tagger = old.tagger := by rw [← hdoc]; rfl
        rw [htags]
        obtain hp | rfl := hp
        · exact h.tags _ old hold p hp (by rw [p.1.key_eq, hkey, hkey'])
        obtain ⟨q, hq, hqkey, hqtags⟩ := gather_first ((h.merged _).symm.trans hold)
        rw [← hqtags]
        apply (Entry.sameTags_of_key_iff q.1 e).mpr (hclear q hq)
        rw [q.1.key_eq, e.key_eq, hqkey]
    · rw [if_neg hkey'] at hdoc
      obtain hp | rfl := hp
      · exact h.tags key doc hdoc p hp (by rw [p.1.key_eq, hkey])
      · exact absurd hkey hkey'

theorem exact_flushStats : Exact ⟨s.stash.flushStats, []⟩ where
  merged _ := rfl
  tags _ _ _ _ hp := nomatch hp

theorem not_exact_of_hidden {s : Recorded M} (hp : p ∈ s.window) (hhidden : Entry.Hidden p.1 e) :
    ¬ Exact ⟨s.stash.add e.stashKey e.tagger meter, s.window ++ [(e, meter)]⟩ := by
  intro h
  have hdoc : (s.stash.add e.stashKey e.tagger meter).inner.lookup e.stashKey =
      some (joined (s.stash.inner.lookup e.stashKey) e meter) := by
    rw [lookup_add, if_pos rfl]
  have hold := h.tags _ _ hdoc p (mem_append_left _ hp) (by rw [p.1.key_eq, hhidden.key_eq])
  have hnew := h.tags _ _ hdoc (e, meter) (by simp) e.key_eq
  exact hhidden.not_sameTags (hold.of_same hnew)

/-- **The documents of the stash.**  Equal keys stand for the same tags except where
documents are hidden from each other; and a run of the stash merges meters of the same
tags only, exactly when no document is hidden from another of its window. -/
theorem merges_same_tags_iff :
    (∀ a b : Entry, (a.key = b.key → SameTags a.tagger b.tagger) ↔ ¬ Entry.Hidden a b) ∧
      ∀ calls : List (StashCall M),
        StatesHold step Exact start calls ↔ StepsObey step Clear start calls := by
  refine ⟨Entry.sameTags_of_key_iff, fun calls => ?_⟩
  apply statesHold_iff (fun _ h => h) _ _ exact_start
  · intro s call hexact hclear
    cases call with
    | add e meter => exact ⟨_, s.step_add e meter, hexact.add hclear⟩
    | flushStats => exact ⟨_, rfl, s.exact_flushStats⟩
  intro s call _ hclear s' hstep
  cases call with
  | add e meter =>
    rw [step_add] at hstep
    cases hstep
    simp only [Clear, not_forall, not_not] at hclear
    obtain ⟨p, hp, hhidden⟩ := hclear
    exact not_exact_of_hidden hp hhidden
  | flushStats => exact absurd trivial hclear

/-- A flow over TCP whose sides are unknown. -/
def webFlow : MiniFlow where
  flowKey :=
    { tapType := .cloud, tapPort := {}, macSrc := {}, macDst := {}
      ipSrc := .unspecified, ipDst := .unspecified, portSrc := 40000, portDst := 80
      proto := .tcp }
  ethType := .ipv4

def webMeter (l7Protocol : L7Protocol) : AppMeterWithFlow Nat where
  flow := webFlow
  app := { l7Protocol := l7Protocol }
  endpointHash := 0
  isActiveHost0 := true
  isActiveHost1 := true
  appMeter := 1

def webPath (l7Protocol : L7Protocol) : Entry :=
  .edge {} webFlow .none true true { l7Protocol := l7Protocol } true 0

/-- Meters of two protocols on one path are merged into one document, under the tags of
the first. -/
theorem path_hides_protocol :
    collectL7 {} (webMeter .http1) = [webPath .http1] ∧
      collectL7 {} (webMeter .mySql) = [webPath .mySql] ∧
      (webPath .http1).key = (webPath .mySql).key ∧
      ¬ SameTags (webPath .http1).tagger (webPath .mySql).tagger ∧
      ∃ s, run step (start : Recorded Nat)
          [.add (webPath .http1) 1, .add (webPath .mySql) 1] = .ok s ∧
        s.stash.inner.lookup (webPath .mySql).stashKey = some ⟨(webPath .http1).tagger, 2⟩ := by
  have hkey : (webPath .http1).stashKey = (webPath .mySql).stashKey := rfl
  refine ⟨rfl, rfl, by rw [Entry.key_eq, Entry.key_eq, hkey], ?_, ?_⟩
  · intro h
    exact absurd (h.l7Protocol (by decide)) (by decide)
  · refine ⟨_, by rw [run, step_add, ok_bind, run, step_add, ok_bind, run], ?_⟩
    rw [lookup_add, if_pos rfl, lookup_add, if_pos hkey]
    rfl

end Recorded

end ZeroTrace.Collector
