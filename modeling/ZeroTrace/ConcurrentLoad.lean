import ZeroTrace.SubQuadGenSlots

/-!
# The load of a key

Every flow of a key is alive from the slot of its first report to that of its last.
The table of a slot counts, for a key, what was alive before and what is new (`sum`),
and what is still alive afterwards (`living`).  The latter is carried into the next
slot, so the load of a slot is the number of flows alive in it.

The carry drops counts that are not positive.  That loses nothing: once all reports of
a slot are in, what is alive after it is the number of flows that go on, and so never
below zero, whatever the order in which the reports came.
-/

namespace ZeroTrace.Collector

open RustExec Lru Lru.Crate Crate.LruCache FlowGenerator GrowingLru ConcurrentConnection Ledger
open Nat Function
open List hiding count

variable {K M : Type}

/-- The counts of a key: what an entry adds up to, nothing where there is none. -/
structure Counts where
  sum : Int := 0
  living : Int := 0
  deriving DecidableEq

/-- A flow of a key, by the slots of its first and its last report. -/
structure Life where
  first : Nat
  last : Nat
  ordered : first ≤ last

/-- The flows alive at some moment of a slot. -/
def aliveIn (lives : List Life) (slot : Nat) : Nat :=
  lives.countP fun life => life.first ≤ slot ∧ slot ≤ life.last

/-- The flows that are alive before a slot and in it. -/
def carryInto (lives : List Life) (slot : Nat) : Nat :=
  lives.countP fun life => life.first < slot ∧ slot ≤ life.last

/-- Whether a report is the first of its flow, and whether the flow goes on. -/
def kindOf (r : Report K M) : Bool × Bool :=
  (r.taggedFlow.isNewFlow, decide (r.taggedFlow.closeType = .forcedReport))

/-- The report of a flow in a slot. -/
def Life.kindAt (slot : Nat) (life : Life) : Bool × Bool :=
  (decide (slot = life.first), decide (slot < life.last))

/-- Every flow that is alive in a slot has one report in it, in any order. -/
def Reported (rs : List (Report K M)) (lives : List Life) (slot : Nat) : Prop :=
  (rs.map kindOf).Perm
    ((lives.filter fun life => life.first ≤ slot ∧ slot ≤ life.last).map (Life.kindAt slot))

/-- First reports, with those of flows that end at once. -/
def news (kinds : List (Bool × Bool)) : Nat := kinds.countP fun k => k.1

/-- First reports of flows that go on. -/
def opens (kinds : List (Bool × Bool)) : Nat := kinds.countP fun k => k.1 && k.2

/-- Last reports of flows that began before. -/
def closes (kinds : List (Bool × Bool)) : Nat := kinds.countP fun k => !k.1 && !k.2

section Lives

variable (lives : List Life) (slot : Nat)

/-- The reports of the flows that are alive. -/
def kindsIn : List (Bool × Bool) :=
  (lives.filter fun life => life.first ≤ slot ∧ slot ≤ life.last).map (Life.kindAt slot)

theorem countP_kindsIn (p : Bool × Bool → Bool) :
    (kindsIn lives slot).countP p = lives.countP fun life =>
      p (life.kindAt slot) && decide (life.first ≤ slot ∧ slot ≤ life.last) := by
  rw [kindsIn, countP_map, countP_filter]
  rfl

theorem carry_add_news : carryInto lives slot + news (kindsIn lives slot) = aliveIn lives slot := by
  unfold carryInto news aliveIn
  rw [countP_kindsIn]
  induction lives with
  | nil => rfl
  | cons life lives ih =>
    simp only [countP_cons, Life.kindAt, Bool.and_eq_true, decide_eq_true_eq] at ih ⊢
    split_ifs <;> omega

theorem carry_add_opens :
    carryInto lives slot + opens (kindsIn lives slot) =
      carryInto lives (slot + 1) + closes (kindsIn lives slot) := by
  unfold carryInto opens closes
  rw [countP_kindsIn, countP_kindsIn]
  induction lives with
  | nil => rfl
  | cons life lives ih =>
    simp only [countP_cons, Life.kindAt, Bool.and_eq_true, Bool.not_eq_true',
      decide_eq_true_eq, decide_eq_false_iff_not] at ih ⊢
    -- a flow is first, last, both or neither in the slot
    split_ifs <;> omega

theorem carry_eq_zero (h : aliveIn lives slot = 0) :
    carryInto lives slot = 0 ∧ carryInto lives (slot + 1) = 0 := by
  unfold aliveIn at h
  unfold carryInto
  rw [countP_eq_zero] at h ⊢
  rw [countP_eq_zero]
  refine ⟨?_, ?_⟩
  all_goals
    intro life hlife hin
    have hnot := h life hlife
    simp only [decide_eq_true_eq] at hin hnot
    omega

end Lives

namespace SubQuadGen

/-- The counts for what is carried into a slot and the reports in it. -/
def expected (carry : Nat) (rs : List (Report K M)) : Counts where
  sum := carry + news (rs.map kindOf)
  living := carry + opens (rs.map kindOf) - closes (rs.map kindOf)

theorem bare_fields {a b : FlowMeterWithFlow K M} (h : a.bare = b.bare) :
    a.key = b.key ∧ a.timeInSecond = b.timeInSecond ∧ a.flow = b.flow := by
  simp only [FlowMeterWithFlow.bare, FlowMeterWithFlow.mk.injEq] at h
  exact ⟨h.2.2.1, h.2.2.2, h.1⟩

variable {rs : List (Report K M)} {slot : Nat}

theorem expected_of_reported {lives : List Life} (h : Reported rs lives slot) :
    expected (carryInto lives slot) rs = ⟨aliveIn lives slot, carryInto lives (slot + 1)⟩ := by
  have hnews : news (rs.map kindOf) = news (kindsIn lives slot) := h.countP_eq _
  have hopens : opens (rs.map kindOf) = opens (kindsIn lives slot) := h.countP_eq _
  have hcloses : closes (rs.map kindOf) = closes (kindsIn lives slot) := h.countP_eq _
  have hsum := carry_add_news lives slot
  have hliving := carry_add_opens lives slot
  unfold expected
  rw [hnews, hopens, hcloses, Counts.mk.injEq]
  omega

theorem merged_eq_none [SequentialMerge M] : merged rs = none ↔ rs = [] := by
  induction rs using List.reverseRecOn with
  | nil => exact iff_of_true rfl rfl
  | append_singleton rs r ih =>
    rw [merged_concat]
    refine iff_of_false ?_ (by simp)
    unfold mergeNext
    cases merged rs <;> simp

theorem merged_flow [SequentialMerge M] (h : merged rs = some acc) :
    ∃ r ∈ rs, acc.flow = r.taggedFlow := by
  induction rs using List.reverseRecOn generalizing acc with
  | nil => cases h
  | append_singleton rs r ih =>
    rw [merged_concat] at h
    cases hrs : merged rs with
    | none =>
      rw [hrs] at h
      cases h
      exact ⟨r, by simp, rfl⟩
    | some old =>
      rw [hrs] at h
      obtain ⟨q, hq, hflow⟩ := ih hrs
      refine ⟨q, mem_append_left _ hq, ?_⟩
      cases h
      unfold FlowMeterWithFlow.merge
      split <;> exact hflow

theorem length_eq_aliveIn (h : Reported rs lives slot) : rs.length = aliveIn lives slot := by
  have hlen := h.length_eq
  rwa [length_map, length_map, ← countP_eq_length_filter] at hlen

/-- The counts after one more report. -/
def bump (counts : Counts) (kind : Bool × Bool) : Counts where
  sum := counts.sum + if kind.1 then 1 else 0
  living :=
    counts.living + (if kind.1 && kind.2 then 1 else 0) - if !kind.1 && !kind.2 then 1 else 0

theorem expected_concat (carry : Nat) (rs : List (Report K M)) (r : Report K M) :
    expected carry (rs ++ [r]) = bump (expected carry rs) (kindOf r) := by
  unfold expected bump news opens closes
  simp only [map_append, map_cons, map_nil, countP_append, countP_singleton, Counts.mk.injEq]
  refine ⟨?_, ?_⟩ <;> split_ifs <;> omega

end SubQuadGen

section

variable [Crate] [DecidableEq K]

namespace GrowingLru

variable {V : Type} {l : GrowingLru K V} {j k : K} {v : V}

/-- The cache has the size that is remembered for it. -/
def Sized (l : GrowingLru K V) : Prop := l.cache.cap = l.cap

theorem peek_put (hl : l.Sized) (hroom : l.cache.Room k) (v : V) (j : K) :
    (l.put k v).cache.peek j = if j = k then some v else l.cache.peek j := by
  have hplace : (l.cache.place k v).peek j = if j = k then some v else l.cache.peek j :=
    peek_place_of_room hroom v j
  unfold put LruCache.put
  dsimp only
  split
  · have hbound : (l.cache.place k v).len ≤ 2 * l.cap := by
      have hle := (l.cache.place k v).bounded
      have hcap : (l.cache.place k v).cap = l.cap := (cap_place _ _ _).trans hl
      exact le_trans hle (by omega)
    rw [peek_resize hbound, hplace]
  · exact hplace

theorem Sized.put (hl : l.Sized) (k : K) (v : V) : (l.put k v).Sized := by
  unfold GrowingLru.put LruCache.put
  dsimp only
  split
  · exact cap_resize _ _
  · exact (cap_place _ _ _).trans hl

theorem peek_modify (change : V → V) (j : K) :
    (l.modify k change).cache.peek j =
      if j = k then (l.cache.peek k).map change else l.cache.peek j := by
  unfold modify
  cases hk : l.cache.peek k with
  | none =>
    split_ifs with hj
    · rw [hj, hk]
      rfl
    · rfl
  | some v => exact peek_place_of_room (room_of_peek hk) _ j

theorem Sized.modify (hl : l.Sized) (k : K) (change : V → V) : (l.modify k change).Sized := by
  unfold GrowingLru.modify
  cases l.cache.peek k with
  | none => exact hl
  | some v => exact (cap_place _ _ _).trans hl

end GrowingLru

namespace ConcurrentConnection

def countsOf (entry : Option QuadrupleConnections) : Counts :=
  match entry with
  | some v => ⟨v.sum, v.living⟩
  | none => {}

def counts (c : ConcurrentConnection K) (key : QgKey K) : Counts := countsOf (c.peek key)

/-- Both tables have the size remembered for them. -/
def Sized (c : ConcurrentConnection K) : Prop := ∀ family, (c.connections family).Sized

def Room (c : ConcurrentConnection K) (key : QgKey K) : Prop :=
  (c.connections key.isV6).cache.Room key.bytes

variable {c : ConcurrentConnection K} {key other : QgKey K} {time : Nat}

theorem peek_write (table : GrowingLru K QuadrupleConnections) (other : QgKey K) :
    (c.write key table).peek other =
      if other.isV6 = key.isV6 then table.cache.peek other.bytes else c.peek other := by
  unfold peek write
  dsimp only
  split_ifs with hfamily
  · rw [hfamily, update_self]
  · rw [update_of_ne hfamily]

variable {table : GrowingLru K QuadrupleConnections}

omit [DecidableEq K] in
theorem Sized.write (hc : c.Sized) (ht : table.Sized) : (c.write key table).Sized := by
  intro family
  unfold ConcurrentConnection.write
  by_cases hfamily : family = key.isV6
  · subst hfamily
    dsimp only
    rwa [update_self]
  · dsimp only
    rw [update_of_ne hfamily]
    exact hc family

theorem peek_write_entry (entry : Option QuadrupleConnections)
    (h : ∀ b, table.cache.peek b =
      if b = key.bytes then entry else (c.connections key.isV6).cache.peek b) :
    (c.write key table).peek other = if other = key then entry else c.peek other := by
  rw [peek_write]
  by_cases hfamily : other.isV6 = key.isV6
  · rw [if_pos hfamily, h]
    by_cases hkey : other = key
    · rw [if_pos hkey, if_pos (by rw [hkey])]
    have hbytes : other.bytes ≠ key.bytes := by
      intro heq
      apply hkey
      cases other
      cases key
      simp_all
    rw [if_neg hkey, if_neg hbytes, peek, hfamily]
  · rw [if_neg hfamily, if_neg]
    intro hkey
    exact hfamily (by rw [hkey])

theorem addConnection_peek (hc : c.Sized) (hroom : c.Room key) :
    (c.addConnection time key).peek other =
      if other = key then some ⟨(c.counts key).sum + 1, (c.counts key).living + 1, time⟩
      else c.peek other := by
  unfold addConnection counts countsOf
  cases hentry : c.peek key with
  | some v =>
    refine peek_write_entry _ fun b => ?_
    rw [peek_modify]
    have hcache : (c.connections key.isV6).cache.peek key.bytes = some v := hentry
    rw [hcache]
    rfl
  | none =>
    refine peek_write_entry _ fun b => ?_
    rw [peek_put (hc key.isV6) hroom]
    rfl

theorem deleteConnection_peek (hc : c.Sized) (hroom : c.Room key) (isNewFlow : Bool) :
    (c.deleteConnection time key isNewFlow).peek other =
      if other = key then
        some ⟨(c.counts key).sum + (if isNewFlow then 1 else 0),
          (c.counts key).living - (if isNewFlow then 0 else 1), time⟩
      else c.peek other := by
  unfold deleteConnection counts countsOf
  cases hentry : c.peek key with
  | some v =>
    refine peek_write_entry _ fun b => ?_
    have hcache : (c.connections key.isV6).cache.peek key.bytes = some v := hentry
    rw [peek_modify, hcache]
    cases isNewFlow <;> simp
  | none =>
    refine peek_write_entry _ fun b => ?_
    rw [peek_put (hc key.isV6) hroom]
    cases isNewFlow <;> rfl

/-- Counts with what is carried into them. -/
def addCarry (counts : Counts) (living : Int) : Counts :=
  if living ≤ 0 then counts else ⟨counts.sum + living, counts.living + living⟩

/-- No entry is too old, and none falls out of the table it is carried into. -/
def CarryFits (time : Nat) : List (Sigma fun _ : K => QuadrupleConnections) →
    GrowingLru K QuadrupleConnections → Prop
  | [], _ => True
  | e :: es, table =>
    time ≤ e.2.timeInSecond + concurrentTimeout ∧ (0 < e.2.living → table.cache.Room e.1) ∧
      CarryFits time es (carry time table e.1 e.2)

instance decidableCarryFits (time : Nat) :
    ∀ (entries : List (Sigma fun _ : K => QuadrupleConnections))
      (table : GrowingLru K QuadrupleConnections), Decidable (CarryFits time entries table)
  | [], _ => isTrue trivial
  | e :: es, table =>
    have := decidableCarryFits time es (carry time table e.1 e.2)
    inferInstanceAs (Decidable (_ ∧ _ ∧ _))

/-- A merge that loses nothing to time or to the size of the tables. -/
def MergeFits (self : ConcurrentConnection K) (time : Nat) (other : ConcurrentConnection K) :
    Prop :=
  ∀ family, CarryFits time (other.connections family).cache.store.entries (self.connections family)

instance (self other : ConcurrentConnection K) (time : Nat) :
    Decidable (MergeFits self time other) :=
  inferInstanceAs (Decidable (∀ _ : Bool, _))

theorem sized_carry (ht : table.Sized) (k : K) (v : QuadrupleConnections) :
    (carry time table k v).Sized := by
  unfold carry
  split
  · exact ht
  split
  · exact ht
  · split
    · exact ht.modify _ _
    · exact ht.put _ _

theorem countsOf_carry (ht : table.Sized) {k : K} {v : QuadrupleConnections}
    (hage : time ≤ v.timeInSecond + concurrentTimeout) (hroom : 0 < v.living → table.cache.Room k)
    (j : K) :
    countsOf ((carry time table k v).cache.peek j) =
      if j = k then addCarry (countsOf (table.cache.peek k)) v.living
      else countsOf (table.cache.peek j) := by
  unfold carry addCarry
  rw [if_neg (by omega)]
  by_cases hliving : v.living ≤ 0
  · rw [if_pos hliving, if_pos hliving]
    split_ifs with hj
    · rw [hj]
    · rfl
  rw [if_neg hliving, if_neg hliving]
  cases hk : table.cache.peek k with
  | some d =>
    rw [peek_modify, hk]
    split_ifs
    · rfl
    · rfl
  | none =>
    rw [peek_put ht (hroom (by omega))]
    split_ifs
    · simp [countsOf]
    · rfl

theorem foldl_carry {entries : List (Sigma fun _ : K => QuadrupleConnections)}
    (hnodup : entries.NodupKeys) (ht : table.Sized) (hfits : CarryFits time entries table) :
    (entries.foldl (fun table e => carry time table e.1 e.2) table).Sized ∧
      ∀ j, countsOf ((entries.foldl (fun table e => carry time table e.1 e.2) table).cache.peek j) =
        addCarry (countsOf (table.cache.peek j)) (countsOf (entries.dlookup j)).living := by
  induction entries generalizing table with
  | nil => exact ⟨ht, fun j => rfl⟩
  | cons e entries ih =>
    obtain ⟨k, v⟩ := e
    obtain ⟨hage, hroom, hrest⟩ := hfits
    obtain ⟨hnot, hnodup'⟩ := nodupKeys_cons.mp hnodup
    obtain ⟨hsized, hcounts⟩ := ih hnodup' (sized_carry ht k v) hrest
    refine ⟨hsized, ?_⟩
    intro j
    rw [foldl_cons, hcounts, countsOf_carry ht hage hroom]
    by_cases hj : j = k
    · subst hj
      have hnone : List.dlookup j entries = none := dlookup_eq_none.mpr hnot
      rw [if_pos rfl, hnone, dlookup_cons_eq]
      rfl
    · rw [if_neg hj, dlookup_cons_ne _ _ hj]

/-- **A merge carries what is alive.** -/
theorem merge_counts {self other : ConcurrentConnection K} (hs : self.Sized)
    (hfits : MergeFits self time other) :
    (self.merge time other).Sized ∧
      ∀ key, (self.merge time other).counts key =
        addCarry (self.counts key) (other.counts key).living := by
  have hfold := fun family => foldl_carry (other.connections family).cache.store.nodupKeys
    (hs family) (hfits family)
  exact ⟨fun family => (hfold family).1, fun key => (hfold key.isV6).2 key.bytes⟩

theorem getConcurrent_counts (hc : c.Sized) (key other : QgKey K) :
    (c.getConcurrent time key).2.Sized ∧
      (c.getConcurrent time key).2.counts other = c.counts other := by
  unfold getConcurrent
  cases hentry : c.peek key with
  | none => exact ⟨hc, rfl⟩
  | some v =>
    refine ⟨hc.write ((hc key.isV6).modify _ _), ?_⟩
    have hcache : (c.connections key.isV6).cache.peek key.bytes = some v := hentry
    unfold counts
    rw [peek_write_entry (some { v with timeInSecond := time }) fun b => by
      rw [peek_modify, hcache]
      rfl]
    split_ifs with hkey
    · rw [hkey, hentry]
      rfl
    · rfl

/-- The load that is read off the counts of a key. -/
def loadOf (counts : Counts) : Nat := if counts.sum ≤ 0 then 1 else counts.sum.toNat

theorem getConcurrent_fst (c : ConcurrentConnection K) (time : Nat) (key : QgKey K) :
    (c.getConcurrent time key).1 = loadOf (c.counts key) := by
  unfold getConcurrent counts loadOf
  cases c.peek key <;> rfl

end ConcurrentConnection

variable {c : ConcurrentConnection K} {acc : FlowMeterWithFlow K M} {g : SubQuadGen K M}
  {r : Report K M} {stash : QuadrupleStash K M}

namespace SubQuadGen

/-- `c'` counts what `c` counts. -/
structure Agrees (c c' : ConcurrentConnection K) : Prop where
  sized : c.Sized → c'.Sized
  counts : c.Sized → ∀ key, c'.counts key = c.counts key

theorem Agrees.refl (c : ConcurrentConnection K) : Agrees c c := ⟨id, fun _ _ => rfl⟩

theorem Agrees.trans {c₁ c₂ c₃ : ConcurrentConnection K} (h : Agrees c₁ c₂) (h' : Agrees c₂ c₃) :
    Agrees c₁ c₃ :=
  ⟨fun hc => h'.sized (h.sized hc), fun hc key =>
    (h'.counts (h.sized hc) key).trans (h.counts hc key)⟩

/-- A meter of a connection has the load that its key has in the slot. -/
def Loaded (c : ConcurrentConnection K) (acc : FlowMeterWithFlow K M) : Prop :=
  IsConnection acc.flow.proto → acc.flowMeter.load = loadOf (c.counts acc.key)

theorem Loaded.of_agrees {c c' : ConcurrentConnection K} (hc : c.Sized) (h : Agrees c c')
    (hl : Loaded c' acc) : Loaded c acc := by
  intro hconn
  rw [hl hconn, h.counts hc]

theorem setLoad_loaded (acc : FlowMeterWithFlow K M) (c : ConcurrentConnection K) :
    ∃ c', (setLoad acc (some c)).2 = some c' ∧ Agrees c c' ∧ Loaded c (setLoad acc (some c)).1 := by
  unfold setLoad
  split_ifs with hconn
  · refine ⟨_, rfl, ⟨fun hc => (getConcurrent_counts hc acc.key acc.key).1,
      fun hc key => (getConcurrent_counts hc acc.key key).2⟩, ?_⟩
    intro _
    exact getConcurrent_fst c acc.timeInSecond acc.key
  · exact ⟨c, rfl, Agrees.refl c, fun h => absurd h hconn⟩

theorem setLoads_loaded (accs : List (FlowMeterWithFlow K M)) (hc : c.Sized) :
    ∃ c', (setLoads accs (some c)).2 = some c' ∧ Agrees c c' ∧
      ∀ acc ∈ (setLoads accs (some c)).1, Loaded c acc := by
  induction accs generalizing c with
  | nil => exact ⟨c, rfl, Agrees.refl c, by simp [setLoads]⟩
  | cons acc accs ih =>
    obtain ⟨c₁, hsome, hagrees, hloaded⟩ := setLoad_loaded acc c
    obtain ⟨c₂, hsome', hagrees', hloaded'⟩ := ih (hagrees.sized hc)
    unfold setLoads
    dsimp only
    rw [hsome]
    exact ⟨c₂, hsome', hagrees.trans hagrees', forall_mem_cons.mpr
      ⟨hloaded, fun m hm => (hloaded' m hm).of_agrees hc hagrees⟩⟩

/-- No data from eBPF, whose batches get no load. -/
def NoEbpf (accs : List (FlowMeterWithFlow K M)) : Prop :=
  ∀ acc ∈ accs, acc.flow.signalSource ≠ .ebpf

theorem setConnection_loaded {accs : List (FlowMeterWithFlow K M)} (hebpf : NoEbpf accs)
    (hc : c.Sized) :
    ∃ c', (setConnection accs (some c)).2 = some c' ∧ Agrees c c' ∧
      ∀ acc ∈ (setConnection accs (some c)).1, Loaded c acc := by
  cases accs with
  | nil => exact ⟨c, rfl, Agrees.refl c, by simp [setConnection]⟩
  | cons acc accs =>
    unfold setConnection
    dsimp only
    rw [if_neg (hebpf acc mem_cons_self)]
    exact setLoads_loaded (acc :: accs) hc

theorem sendValues_loaded {values buffer : List (FlowMeterWithFlow K M)} (hvalues : NoEbpf values)
    (hbuffer : NoEbpf buffer) (hc : c.Sized) :
    ∃ c', (sendValues values buffer (some c)).2 = some c' ∧ Agrees c c' ∧
      ∀ acc ∈ (sendValues values buffer (some c)).1, Loaded c acc := by
  induction values generalizing buffer c with
  | nil => exact setConnection_loaded hbuffer hc
  | cons flow values ih =>
    obtain ⟨hflow, hrest⟩ := forall_mem_cons.mp hvalues
    have hgrown : NoEbpf (buffer ++ [flow]) :=
      forall_mem_append.mpr ⟨hbuffer, forall_mem_singleton.mpr hflow⟩
    unfold sendValues
    dsimp only
    split
    · obtain ⟨c₁, hsome, hagrees, hloaded⟩ := setConnection_loaded hgrown hc
      obtain ⟨c₂, hsome', hagrees', hloaded'⟩ :=
        ih hrest (forall_mem_nil _) (hagrees.sized hc)
      rw [hsome]
      exact ⟨c₂, hsome', hagrees.trans hagrees', forall_mem_append.mpr
        ⟨hloaded, fun acc hacc => (hloaded' acc hacc).of_agrees hc hagrees⟩⟩
    · exact ih hrest hgrown hc

/-- **One flush with connections**: what is sent has its load, and the counts stay. -/
theorem flushFlow_loaded {i : Nat} (h : i < g.stashs.length)
    (hebpf : NoEbpf (valuesAt (g.stashAt i))) (hc : c.Sized) :
    ∃ g' c' out, g.flushFlow i (some c) = .ok (g', some c') ∧ Agrees c c' ∧
      g'.output = g.output ++ out ∧ ∀ acc ∈ out, Loaded c acc := by
  have hstash : g.stashAt i = g.stashs[i] := getD_eq_getElem _ _ h
  have hnone : NoEbpf ([] : List (FlowMeterWithFlow K M)) := forall_mem_nil _
  rw [hstash] at hebpf
  obtain ⟨hv4, hv6⟩ := forall_mem_append.mp hebpf
  obtain ⟨c₁, hsome₁, hagrees₁, hloaded₁⟩ := sendValues_loaded hv4 hnone hc
  obtain ⟨c₂, hsome₂, hagrees₂, hloaded₂⟩ := sendValues_loaded hv6 hnone (hagrees₁.sized hc)
  have hflush : g.flushFlow i (some c) = .ok
      ({ g with
          stashs := g.stashs.set i .new
          output := g.output ++ (sendValues (valuesOf (g.stashs[i].flows false)) [] (some c)).1 ++
            (sendValues (valuesOf (g.stashs[i].flows true)) [] (some c₁)).1 }, some c₂) := by
    unfold flushFlow
    rw [swapRemoveBack_append h, unwrap_some, ok_bind]
    dsimp only
    rw [hsome₁, hsome₂]
  exact ⟨_, c₂, _, hflush, hagrees₁.trans hagrees₂, append_assoc .., forall_mem_append.mpr
    ⟨hloaded₁, fun acc hacc => (hloaded₂ acc hacc).of_agrees hc hagrees₁⟩⟩

omit [Crate] in
theorem mem_valuesAt (h : acc ∈ valuesAt stash) : ∃ key, stash.get key = some acc := by
  have htable : ∀ family, acc ∈ valuesOf (stash.flows family) →
      ∃ key, stash.get key = some acc := by
    intro family hacc
    obtain ⟨e, he, rfl⟩ := mem_map.mp hacc
    exact ⟨⟨family, e.1⟩, AList.mem_lookup_iff.mpr he⟩
  rcases mem_append.mp h with hv4 | hv6
  · exact htable false hv4
  · exact htable true hv6

/-- The key is that of connections seen in packets, and no data come from eBPF. -/
def Packets (l : Ledger K M) (key : QgKey K) : Prop :=
  ∀ r ∈ l.accepted, r.taggedFlow.signalSource ≠ .ebpf ∧
    (r.key = key → IsConnection r.taggedFlow.proto ∧ r.taggedFlow.signalSource = .packet)

/-- Every meter of the key has the number of flows alive in its slot for load. -/
def LoadsExact (origin interval : Nat) (key : QgKey K) (lives : List Life)
    (out : List (FlowMeterWithFlow K M)) : Prop :=
  ∀ acc ∈ out, acc.key = key →
    acc.flowMeter.load = aliveIn lives (slotOf origin interval acc.timeInSecond)

/-- The tables hold what is expected of the key, from slot `base` on. -/
def Tracks (current : List (ConcurrentConnection K)) (l : Ledger K M) (origin interval base : Nat)
    (key : QgKey K) (lives : List Life) : Prop :=
  ∀ j c, current[j]? = some c → c.Sized ∧
    c.counts key = expected (if j = 0 then carryInto lives base else 0)
      (l.reportsOf origin interval (base + j) key)

variable {current : List (ConcurrentConnection K)} {l : Ledger K M} {origin interval base : Nat}
  {key : QgKey K} {lives : List Life}

theorem counts_new (key : QgKey K)
    (h : ∀ family, (c.connections family).cache = .new (c.connections family).cap) :
    c.Sized ∧ c.counts key = {} := by
  refine ⟨fun family => ?_, ?_⟩
  · rw [GrowingLru.Sized, h, cap_new]
  · rw [counts, ConcurrentConnection.peek, h, peek_new]
    rfl

theorem Tracks.next {base time : Nat} {front next : ConcurrentConnection K}
    (h : Tracks current l origin interval base key lives) (htwo : 2 ≤ current.length)
    (hnext : current[1]? = some next) (hfits : MergeFits next time front)
    (hfront : front.counts key = ⟨aliveIn lives base, carryInto lives (base + 1)⟩)
    (hempty : l.reportsOf origin interval (base + current.length) key = []) :
    Tracks (current.tail.set 0 (next.merge time front) ++ [front.clear]) l origin interval
      (base + 1) key lives := by
  intro j c hc
  have htail : (current.tail.set 0 (next.merge time front)).length = current.length - 1 := by
    rw [length_set, length_tail]
  by_cases hlast : j < current.length - 1
  · rw [getElem?_append_left (by omega)] at hc
    by_cases hj : j = 0
    · subst hj
      rw [getElem?_set_self (by rw [length_tail]; omega)] at hc
      cases hc
      obtain ⟨hsized, hcounts⟩ := h 1 next hnext
      obtain ⟨hsized', hmerge⟩ := merge_counts hsized hfits
      refine ⟨hsized', ?_⟩
      rw [hmerge, hcounts, hfront, if_neg (by omega), if_pos rfl, add_zero]
      unfold addCarry expected
      dsimp only
      split
      · have hzero : carryInto lives (base + 1) = 0 := by omega
        rw [hzero]
      · rw [Counts.mk.injEq]
        omega
    · rw [getElem?_set_ne (Ne.symm hj), getElem?_tail] at hc
      obtain ⟨hsized, hcounts⟩ := h (j + 1) c hc
      refine ⟨hsized, ?_⟩
      rw [hcounts, if_neg (by omega), if_neg hj, show base + (j + 1) = base + 1 + j by omega]
  · have hj : j = current.length - 1 := by
      have hlt := (List.getElem?_eq_some_iff.mp hc).1
      rw [length_append, htail, length_singleton] at hlt
      omega
    rw [getElem?_append_right (by omega), htail, hj, Nat.sub_self] at hc
    cases hc
    obtain ⟨hsized, hcounts⟩ := counts_new (c := front.clear) key fun _ => rfl
    refine ⟨hsized, ?_⟩
    rw [hcounts, if_neg (by omega), hj, show base + 1 + (current.length - 1) = base + current.length
      by omega, hempty]
    rfl

theorem Tracks.skip {interval b b' : Nat} (h : Tracks current l origin interval b key lives)
    (hle : b ≤ b') (hnone : ∀ s, b ≤ s → s < b' → aliveIn lives s = 0)
    (hempty : ∀ s, b ≤ s → l.reportsOf origin interval s key = []) :
    Tracks current l origin interval b' key lives := by
  have hcarry : carryInto lives b = carryInto lives b' := by
    rcases eq_or_lt_of_le hle with rfl | hlt
    · rfl
    have hfirst := (carry_eq_zero lives b (hnone b (le_refl b) hlt)).1
    have hlast := (carry_eq_zero lives (b' - 1) (hnone (b' - 1) (by omega) (by omega))).2
    rw [Nat.sub_add_cancel (by omega)] at hlast
    rw [hfirst, hlast]
  intro j c hc
  obtain ⟨hsized, hcounts⟩ := h j c hc
  refine ⟨hsized, ?_⟩
  rw [hcounts, hempty (b + j) (by omega), hempty (b' + j) (by omega), hcarry]

theorem countConnection_counts (hc : c.Sized) (hroom : c.Room r.key) (key : QgKey K) :
    (countConnection c r).Sized ∧
      (countConnection c r).counts key =
        if r.key = key then bump (c.counts key) (kindOf r) else c.counts key := by
  have htable := hc r.key.isV6
  unfold countConnection
  by_cases hopen : r.taggedFlow.isNewFlow ∧ r.taggedFlow.closeType = .forcedReport
  · rw [if_pos hopen]
    refine ⟨?_, ?_⟩
    · unfold addConnection
      split
      · exact hc.write (htable.modify _ _)
      · exact hc.write (htable.put _ _)
    · unfold counts
      rw [addConnection_peek hc hroom]
      by_cases hkey : key = r.key
      · subst hkey
        rw [if_pos rfl, if_pos rfl]
        simp [countsOf, bump, kindOf, hopen, counts]
      · rw [if_neg hkey, if_neg (Ne.symm hkey)]
  · rw [if_neg hopen]
    by_cases hclose : r.taggedFlow.closeType ≠ .forcedReport
    · rw [if_pos hclose]
      refine ⟨?_, ?_⟩
      · unfold deleteConnection
        split
        · exact hc.write (htable.modify _ _)
        · exact hc.write (htable.put _ _)
      unfold counts
      rw [deleteConnection_peek hc hroom]
      by_cases hkey : key = r.key
      · subst hkey
        rw [if_pos rfl, if_pos rfl]
        cases hnew : r.taggedFlow.isNewFlow <;>
          simp [countsOf, bump, kindOf, hnew, hclose, counts]
      · rw [if_neg hkey, if_neg (Ne.symm hkey)]
    · rw [if_neg hclose]
      refine ⟨hc, ?_⟩
      have hforced : r.taggedFlow.closeType = .forcedReport := not_not.mp hclose
      have hold : r.taggedFlow.isNewFlow = false := by simpa [hforced] using hopen
      split_ifs
      · simp [bump, kindOf, hforced, hold]
      · rfl

/-- All reports of the slots that the window has left were let in. -/
def Passed (l : Ledger K M) (origin interval : Nat) (key : QgKey K) (lives : List Life) : Prop :=
  ∀ s, origin + interval * (s + 1) ≤ l.windowStart →
    Reported (l.reportsOf origin interval s key) lives s

omit [Crate] in
theorem passed_of_concat {interval windowStart : Nat} (hinterval : 0 < interval)
    (horigin : origin ≤ windowStart) (hstart : windowStart ≤ r.timeInSecond)
    (h : Passed { l with windowStart := windowStart, accepted := l.accepted ++ [r] } origin interval
      key lives) :
    Passed { l with windowStart := windowStart } origin interval key lives := by
  intro s hs
  have hreported := h s hs
  have hlate : ¬ (r.key = key ∧ slotOf origin interval r.timeInSecond = s) := by
    intro hr
    have hslot := hr.2
    unfold slotOf at hslot
    have hle : s + 1 ≤ (r.timeInSecond - origin) / interval := by
      rw [le_div_iff_mul_le hinterval, mul_comm]
      dsimp only at hs
      omega
    omega
  have hsame := reportsOf_concat ({ l with windowStart := windowStart } : Ledger K M) r origin
    interval s key
  rw [if_neg hlate, append_nil] at hsame
  rw [← hsame]
  exact hreported

variable [SequentialMerge M] {g' : SubQuadGen K M} {time : Nat}

omit [Crate] in
theorem noEbpf_of_holds {slot : Nat} (hp : Packets l key) (h : Holds stash l origin interval slot) :
    NoEbpf (valuesAt stash) := by
  intro acc hacc
  obtain ⟨k, hk⟩ := mem_valuesAt hacc
  rw [h k] at hk
  obtain ⟨r, hr, hflow⟩ := merged_flow hk
  rw [hflow]
  exact (hp r (mem_filter.mp hr).1).1

/-- **The load of a slot.**  With the counts that are expected, every meter that a flush
sends has the number of flows alive. -/
theorem flushFlow_exact {i slot : Nat} (h : i < g.stashs.length) (hp : Packets l key)
    (hholds : Holds (g.stashAt i) l origin interval slot)
    (hr : Reported (l.reportsOf origin interval slot key) lives slot) (hc : c.Sized)
    (hcounts : c.counts key =
      expected (carryInto lives slot) (l.reportsOf origin interval slot key)) :
    ∃ g' c' out, g.flushFlow i (some c) = .ok (g', some c') ∧ c'.Sized ∧
      c'.counts key = ⟨aliveIn lives slot, carryInto lives (slot + 1)⟩ ∧
      g'.output = g.output ++ out ∧ LoadsExact origin interval key lives out ∧
      Sends g g' (g.stashs.set i .new) (valuesAt (g.stashAt i)) := by
  rw [expected_of_reported hr] at hcounts
  obtain ⟨g', c', out, hok, hagrees, hout, hloaded⟩ :=
    flushFlow_loaded h (noEbpf_of_holds hp hholds) hc
  obtain ⟨g₁, c₁, hok₁, -, -, hsends⟩ := flushFlow_spec h (some c)
  rw [hok] at hok₁
  cases hok₁
  refine ⟨g', c', out, hok, hagrees.sized hc, (hagrees.counts hc key).trans hcounts, hout, ?_,
    hsends⟩
  obtain ⟨out', hout', hbare⟩ := hsends.output
  have hsame : out = out' := append_cancel_left (hout.symm.trans hout')
  subst hsame
  intro acc hacc hkey
  -- the meter is one of the slot, up to its load
  have hmem : acc.bare ∈ (valuesAt (g.stashAt i)).map FlowMeterWithFlow.bare := by
    rw [← hbare]
    exact mem_map_of_mem hacc
  obtain ⟨acc₀, hacc₀, heq⟩ := mem_map.mp hmem
  obtain ⟨k, hk⟩ := mem_valuesAt hacc₀
  rw [hholds k] at hk
  obtain ⟨hk₀, hslot⟩ := merged_place (fun r hr => by simpa using (mem_filter.mp hr).2) hk
  obtain ⟨hkeys, htimes, hflows⟩ := bare_fields heq
  have hkk : k = key := by rw [← hk₀, hkeys, hkey]
  subst hkk
  obtain ⟨r, hrmem, hflow⟩ := merged_flow hk
  have hrkey : r.key = k := by
    have hfilter := (mem_filter.mp hrmem).2
    simp only [decide_eq_true_eq] at hfilter
    exact hfilter.1
  have hconn : IsConnection acc.flow.proto := by
    rw [← hflows, hflow]
    exact ((hp r (mem_filter.mp hrmem).1).2 hrkey).1
  -- a meter has a report, so some flow is alive
  have hpos : 0 < aliveIn lives slot := by
    rw [← length_eq_aliveIn hr]
    exact length_pos_of_mem hrmem
  rw [hloaded acc hacc hconn, hkey, hcounts, ← htimes, hslot, loadOf, if_neg (by dsimp only; omega)]
  exact Int.toNat_natCast _

/-- No merge of the loop that sends slots loses an entry. -/
def LoopFits (time : Nat) : Nat → Nat → List (ConcurrentConnection K) → SubQuadGen K M → Prop
  | 0, _, _, _ => True
  | count + 1, i, current, g =>
    ∀ g' front next, g.flushFlow i current.head? = .ok (g', some front) →
      current.tail.head? = some next →
        MergeFits next time front ∧
          LoopFits time count (i + 1)
            (current.tail.set 0 (next.merge time front) ++ [front.clear]) g'

/-- **The loop over slots.**  All loads that it sends are exact, and the tables are those
of the slots that come next. -/
theorem flushConnected_exact {i count base time : Nat} (h : i + count ≤ g.stashs.length)
    (htwo : 2 ≤ current.length) (hp : Packets l key)
    (hholds : ∀ j, i ≤ j → Holds (g.stashAt j) l origin interval (base + j))
    (hreported : ∀ s, base + i ≤ s → s < base + i + count →
      Reported (l.reportsOf origin interval s key) lives s)
    (hempty : ∀ s, base + i + current.length ≤ s → l.reportsOf origin interval s key = [])
    (htracks : Tracks current l origin interval (base + i) key lives)
    (hfits : LoopFits time count i current g) :
    ∃ g' current' out, flushConnected time count i current g = .ok (g', current') ∧
      Tracks current' l origin interval (base + i + count) key lives ∧
      g'.output = g.output ++ out ∧ LoadsExact origin interval key lives out := by
  induction count generalizing g i current with
  | zero =>
    refine ⟨g, current, [], rfl, htracks, (append_nil _).symm, ?_⟩
    exact nofun
  | succ count ih =>
    have hzero : 0 < current.length := by omega
    have hhead : current.head? = some current[0] := by
      rw [head?_eq_getElem?, getElem?_eq_getElem hzero]
    have hone : current[1]? = some current[1] := getElem?_eq_getElem htwo
    have htail : current.tail.head? = some current[1] := by
      rw [head?_eq_getElem?, getElem?_tail, hone]
    obtain ⟨hsized, hcounts⟩ := htracks 0 _ (getElem?_eq_getElem hzero)
    obtain ⟨g₁, front, out, hflush, hsized', hfront, hout, hloads, hsends⟩ :=
      flushFlow_exact (show i < g.stashs.length by omega) hp (hholds i (le_refl i))
        (hreported (base + i) (le_refl _) (by omega)) hsized hcounts
    rw [← hhead] at hflush
    obtain ⟨hmerge, hrest⟩ := hfits g₁ front current[1] hflush htail
    have htracks' := htracks.next htwo hone hmerge hfront
      (hempty (base + i + current.length) (le_refl _))
    have hlen : (current.tail.set 0 (current[1].merge time front) ++ [front.clear]).length =
        current.length := by
      rw [length_append, length_set, length_tail, length_singleton]
      omega
    obtain ⟨g₂, current₂, out₂, hok, htracks₂, hout₂, hloads₂⟩ := ih (g := g₁) (i := i + 1)
      (by rw [hsends.stashs, length_set]; omega) (by omega)
      (fun j hj => by rw [hsends.stashAt_of_lt (by omega)]; exact hholds j (by omega))
      (fun s hs hlt => hreported s (by omega) (by omega))
      (fun s hs => hempty s (by omega))
      (by rw [← add_assoc]; exact htracks') hrest
    refine ⟨g₂, current₂, out ++ out₂, ?_, ?_, ?_, ?_⟩
    · have hpos : 0 < current.tail.length := by
        rw [length_tail]
        omega
      have hfirst : current.tail[0] = current[1] := by rw [getElem_tail]
      rw [flushConnected, hflush, ok_bind]
      dsimp only
      rw [unwrap_some, ok_bind, mergeFront_ok hpos, ok_bind, hfirst]
      exact hok
    · rw [show base + i + (count + 1) = base + (i + 1) + count by omega]
      exact htracks₂
    · rw [hout₂, hout, append_assoc]
    · exact forall_mem_append.mpr ⟨hloads, hloads₂⟩

/-- The slots that one round of the loop sends. -/
def sentSlots (g : SubQuadGen K M) (time : Nat) : Nat :=
  if g.numberOfSlots ≤ g.slotsToShift time then g.stashs.length else g.slotsToShift time

/-- Nothing is lost to time or to the size of the tables when the window moves. -/
def MoveFits (g : SubQuadGen K M) (time : Nat) : Prop :=
  g.windowStart + g.delaySeconds ≤ time → ∀ current, g.connections = some current →
    LoopFits time (g.sentSlots time) 0 current { g with connections := none }

/-- Nor when a report is counted. -/
def StepFits (g : SubQuadGen K M) : Input K M → Prop
  | .tick time => g.MoveFits time
  | .report r =>
    g.MoveFits r.timeInSecond ∧
      ∀ g' current c, moveLoop r.timeInSecond 2 g = .ok g' → g'.connections = some current →
        current[(r.timeInSecond - g'.windowStart) / g'.slotInterval]? = some c → c.Room r.key

/-- The generator refines the ledger, and its tables and loads are those of the flows. -/
structure Counted (g : SubQuadGen K M) (l : Ledger K M) (origin base : Nat) (key : QgKey K)
    (lives : List Life) : Prop where
  refines : Refines g l origin base
  tracks : ∃ current, g.connections = some current ∧
    Tracks current l origin g.slotInterval base key lives
  packets : Packets l key
  loads : LoadsExact origin g.slotInterval key lives g.output

theorem Refines.reportsOf_eq_nil (h : Refines g l origin base) {s : Nat}
    (hs : base + g.numberOfSlots ≤ s) (key : QgKey K) :
    l.reportsOf origin g.slotInterval s key = [] := by
  have hnone := h.live (s - base) key
  rw [stashAt_of_le (by rw [h.shaped.slots]; omega), Nat.add_sub_cancel' (by omega)] at hnone
  exact merged_eq_none.mp hnone.symm

/-- **A move of the window** keeps the loads exact. -/
theorem Counted.shift (h : Counted g l origin base key lives) (htwo : 2 ≤ g.numberOfSlots)
    (hpast : g.windowStart + g.delaySeconds ≤ time) (hfits : g.MoveFits time)
    (hreported : ∀ s, base ≤ s → s < base + g.slotsToShift time →
      Reported (l.reportsOf origin g.slotInterval s key) lives s) :
    ∃ g', moveLoop time 2 g = .ok g' ∧ Shifted g g' (g.slotsToShift time) ∧
      (∃ current, g'.connections = some current ∧
        Tracks current l origin g.slotInterval (base + g.slotsToShift time) key lives) ∧
      LoadsExact origin g.slotInterval key lives g'.output := by
  obtain ⟨current, hconn, htracks⟩ := h.tracks
  have hlen := h.refines.shaped.connections current hconn
  have hslots := h.refines.shaped.slots
  have hsent : g.sentSlots time ≤ g.stashs.length ∧ g.sentSlots time ≤ g.slotsToShift time := by
    unfold sentSlots
    split <;> omega
  obtain ⟨g₁, current₁, out, hok, htracks₁, hout, hloads⟩ :=
    flushConnected_exact (g := { g with connections := none }) (i := 0)
      (show 0 + g.sentSlots time ≤ g.stashs.length by omega) (by omega) h.packets
      (fun j _ => h.refines.live j) (fun s hs hlt => hreported s (by omega) (by omega))
      (fun s hs => h.refines.reportsOf_eq_nil (by omega) key) htracks (hfits hpast current hconn)
  have htracks₂ :
      Tracks current₁ l origin g.slotInterval (base + g.slotsToShift time) key lives := by
    by_cases hall : g.numberOfSlots ≤ g.slotsToShift time
    · have hcount : g.sentSlots time = g.numberOfSlots := by rw [sentSlots, if_pos hall, hslots]
      rw [hcount] at htracks₁
      refine htracks₁.skip (by omega) ?_ fun s hs => h.refines.reportsOf_eq_nil hs key
      intro s hs hlt
      have hgap := hreported s (by omega) hlt
      rw [h.refines.reportsOf_eq_nil hs key] at hgap
      exact (length_eq_aliveIn hgap).symm
    · have hcount : g.sentSlots time = g.slotsToShift time := if_neg hall
      rwa [hcount] at htracks₁
  have hcarries : g.Carries := fun _ => htwo
  obtain ⟨g', hmove, hshift⟩ := moveLoop_spec h.refines.shaped time fun _ => hcarries
  rw [if_pos hpast] at hshift
  have hfront : g.flushFront time (g.sentSlots time) =
      .ok { g₁ with connections := some current₁ } := by
    rw [flushFront, hconn]
    dsimp only
    rw [hok]
    rfl
  have hend : g'.connections = some current₁ ∧ g'.output = g₁.output := by
    have hloop := hmove
    rw [moveLoop, if_pos hpast] at hloop
    obtain ⟨g₂, hround, hrest⟩ := bind_eq_ok hloop
    have hsame : g₂ = g' := by
      obtain ⟨g₃, hround', hshift'⟩ := shiftWindow_spec h.refines.shaped hcarries time
      rw [hround] at hround'
      cases hround'
      have hinside := lt_of_shifted h.refines.shaped hshift'
      rw [moveLoop, if_neg (by omega)] at hrest
      exact Except.ok.inj hrest
    subst hsame
    unfold shiftWindow at hround
    dsimp only at hround
    by_cases hall : g.numberOfSlots ≤ g.slotsToShift time
    · have hcount : g.sentSlots time = g.stashs.length := if_pos hall
      rw [hcount] at hfront
      rw [if_pos hall, hfront] at hround
      cases hround
      exact ⟨rfl, rfl⟩
    · have hcount : g.sentSlots time = g.slotsToShift time := if_neg hall
      rw [hcount] at hfront
      rw [if_neg hall, hfront, ok_bind] at hround
      obtain ⟨g₃, hrotate, hlast⟩ := bind_eq_ok hround
      obtain ⟨stashs, -, hset⟩ := bind_eq_ok hrotate
      cases hset
      cases hlast
      exact ⟨rfl, rfl⟩
  refine ⟨g', hmove, hshift, ⟨current₁, hend.1, htracks₂⟩, ?_⟩
  rw [hend.2, hout]
  exact forall_mem_append.mpr ⟨h.loads, hloads⟩

theorem Counted.inject (h : Counted g l origin base key lives)
    (hstart : g.windowStart ≤ r.timeInSecond)
    (hend : r.timeInSecond < g.windowStart + g.delaySeconds)
    (hpackets : r.taggedFlow.signalSource ≠ .ebpf ∧
      (r.key = key → IsConnection r.taggedFlow.proto ∧ r.taggedFlow.signalSource = .packet))
    (hroom : ∀ current c, g.connections = some current →
      current[(r.timeInSecond - g.windowStart) / g.slotInterval]? = some c → c.Room r.key) :
    ∃ g', g.injectFlow r = .ok g' ∧ Same g g' ∧
      Counted g' { l with accepted := l.accepted ++ [r] } origin base key lives := by
  obtain ⟨g', hok, hsame, hrefines⟩ := h.refines.inject hstart hend
  obtain ⟨current, hconn, htracks⟩ := h.tracks
  have hgrid := h.refines.slotOf_eq hstart
  have hslot := h.refines.shaped.slot_lt hstart hend
  rw [← h.refines.shaped.connections current hconn] at hslot
  obtain ⟨slot, hs⟩ : ∃ slot, (r.timeInSecond - g.windowStart) / g.slotInterval = slot := ⟨_, rfl⟩
  simp only [hs] at hgrid hslot hroom
  have hget := getElem?_eq_getElem hslot
  obtain ⟨hsized, hcounts⟩ := htracks _ _ hget
  -- what the connections and the output of the new state are
  have hparts : (∃ c', g'.connections = some (current.set slot c') ∧ c'.Sized ∧
      c'.counts key = if r.key = key then bump (current[slot].counts key) (kindOf r)
        else current[slot].counts key) ∧ g'.output = g.output := by
    have hinject := hok
    unfold injectFlow at hinject
    rw [checkedSub_ok hstart, ok_bind, hs] at hinject
    obtain ⟨stash, -, hinject⟩ := bind_eq_ok hinject
    obtain ⟨connections, hconnections, hinject⟩ := bind_eq_ok hinject
    obtain ⟨stashs, -, hinject⟩ := bind_eq_ok hinject
    cases hinject
    refine ⟨?_, rfl⟩
    split at hconnections
    · rw [hconn] at hconnections
      dsimp only at hconnections
      rw [index_ok hget, ok_bind, store_ok _ hslot, ok_bind] at hconnections
      cases hconnections
      obtain ⟨hsized', hcounts'⟩ := countConnection_counts hsized (hroom current _ hconn hget) key
      exact ⟨_, rfl, hsized', hcounts'⟩
    next hnot =>
      cases hconnections
      refine ⟨current[slot], ?_, hsized, ?_⟩
      · rw [hconn, set_getElem_self]
      · rw [if_neg fun hkey => hnot (hpackets.2 hkey)]
  obtain ⟨⟨c', hconn', hsized', hcounts'⟩, houtput⟩ := hparts
  refine ⟨g', hok, hsame, hrefines, ⟨_, hconn', ?_⟩, ?_, ?_⟩
  · intro j c hc
    rw [hsame.slotInterval, reportsOf_concat]
    by_cases hj : j = slot
    · subst hj
      rw [getElem?_set_self hslot] at hc
      cases hc
      refine ⟨hsized', ?_⟩
      rw [hcounts']
      by_cases hkey : r.key = key
      · rw [if_pos hkey, if_pos (And.intro hkey hgrid), hcounts, expected_concat]
      · rw [if_neg hkey, if_neg (not_and_of_not_left _ hkey), append_nil, hcounts]
    · rw [getElem?_set_ne (Ne.symm hj)] at hc
      obtain ⟨hsized'', hcounts''⟩ := htracks j c hc
      refine ⟨hsized'', ?_⟩
      have hout : ¬ (r.key = key ∧ slotOf origin g.slotInterval r.timeInSecond = base + j) := by
        intro hr
        rw [hgrid] at hr
        exact hj (add_left_cancel hr.2).symm
      rw [if_neg hout, append_nil, hcounts'']
  · exact forall_mem_append.mpr ⟨h.packets, forall_mem_singleton.mpr hpackets⟩
  · rw [hsame.slotInterval, houtput]
    exact h.loads

/-- **A move of the window**, whether it has to or not. -/
theorem Counted.move (h : Counted g l origin base key lives) (htwo : 2 ≤ g.numberOfSlots)
    (hfits : g.MoveFits time)
    (hpassed : Passed
      { l with windowStart := startFor g.slotInterval g.delaySeconds l.windowStart time }
      origin g.slotInterval key lives) :
    ∃ g' base', moveLoop time 2 g = .ok g' ∧ Same g g' ∧
      time < g'.windowStart + g'.delaySeconds ∧ (g.windowStart ≤ time → g'.windowStart ≤ time) ∧
      Counted g'
        { l with windowStart := startFor g.slotInterval g.delaySeconds l.windowStart time }
        origin base' key lives := by
  obtain ⟨g', hok, hsame, hinside, hstart, hrefines⟩ := h.refines.move time fun _ _ => htwo
  by_cases hpast : g.windowStart + g.delaySeconds ≤ time
  · rw [if_pos hpast] at hrefines
    have haligned := hrefines.aligned
    rw [hsame.slotInterval] at haligned
    have hreported : ∀ s, base ≤ s → s < base + g.slotsToShift time →
        Reported (l.reportsOf origin g.slotInterval s key) lives s := by
      intro s _ hlt
      apply hpassed s
      rw [haligned]
      exact Nat.add_le_add_left (Nat.mul_le_mul_left _ hlt) _
    obtain ⟨g₁, hok₁, -, ⟨current, hconn, htracks⟩, hloads⟩ := h.shift htwo hpast hfits hreported
    rw [hok] at hok₁
    cases hok₁
    refine ⟨g', _, hok, hsame, hinside, hstart, hrefines, ⟨current, hconn, ?_⟩, h.packets, ?_⟩
    · rw [hsame.slotInterval]
      exact htracks
    · rw [hsame.slotInterval]
      exact hloads
  · have hstay : moveLoop time 2 g = .ok g := by rw [moveLoop, if_neg hpast]
    rw [hok] at hstay
    cases hstay
    rw [if_neg hpast] at hrefines
    exact ⟨g, base, hok, hsame, hinside, hstart, hrefines, h.tracks, h.packets, h.loads⟩

/-- What is asked of a report for the key. -/
def PacketInput (key : QgKey K) : Input K M → Prop
  | .tick _ => True
  | .report r =>
    r.taggedFlow.signalSource ≠ .ebpf ∧
      (r.key = key → IsConnection r.taggedFlow.proto ∧ r.taggedFlow.signalSource = .packet)

/-- **One input** keeps the loads exact. -/
theorem Counted.step (h : Counted g l origin base key lives) (htwo : 2 ≤ g.numberOfSlots)
    (input : Input K M) (hinput : PacketInput key input) (hfits : g.StepFits input)
    (hpassed :
      Passed (l.step g.slotInterval g.delaySeconds input) origin g.slotInterval key lives) :
    ∃ g' base', g.step input = .ok g' ∧ Same g g' ∧
      Counted g' (l.step g.slotInterval g.delaySeconds input) origin base' key lives := by
  have hlate : Counted { g with dropBeforeWindow := g.dropBeforeWindow + 1 }
      { l with dropped := l.dropped + 1 } origin base key lives :=
    ⟨h.refines.late, h.tracks, h.packets, h.loads⟩
  cases input with
  | tick time =>
    unfold Ledger.step at hpassed ⊢
    unfold SubQuadGen.step moveWindow
    dsimp only at hpassed ⊢
    by_cases hbefore : time < l.windowStart
    · rw [if_pos hbefore, if_pos (by rwa [h.refines.windowStart])]
      exact ⟨_, base, rfl, ⟨rfl, rfl, rfl, rfl⟩, hlate⟩
    rw [if_neg hbefore] at hpassed ⊢
    obtain ⟨g', base', hok, hsame, -, -, hcounted⟩ := h.move htwo hfits hpassed
    rw [if_neg (by rwa [h.refines.windowStart]), hok]
    exact ⟨g', base', rfl, hsame, hcounted⟩
  | report r =>
    unfold Ledger.step at hpassed ⊢
    unfold SubQuadGen.step moveWindow
    dsimp only at hpassed ⊢
    by_cases hbefore : r.timeInSecond < l.windowStart
    · rw [if_pos hbefore, if_pos (by rwa [h.refines.windowStart])]
      exact ⟨_, base, rfl, ⟨rfl, rfl, rfl, rfl⟩, hlate⟩
    rw [if_neg hbefore] at hpassed ⊢
    have hnot : ¬ r.timeInSecond < g.windowStart := by rwa [h.refines.windowStart]
    obtain ⟨g₀, hok₀, hsame₀, -, hle, hrefines₀⟩ := h.refines.move r.timeInSecond fun _ _ => htwo
    have hwindow := hrefines₀.windowStart
    have horigin : origin ≤ startFor g.slotInterval g.delaySeconds l.windowStart
        r.timeInSecond := by
      have haligned := hrefines₀.aligned
      dsimp only at haligned
      omega
    have hafter : startFor g.slotInterval g.delaySeconds l.windowStart
        r.timeInSecond ≤ r.timeInSecond := by
      dsimp only at hwindow
      omega
    have hpassed' := passed_of_concat h.refines.shaped.interval horigin hafter hpassed
    obtain ⟨g₁, base₁, hok, hsame, hinside, hstart, hcounted⟩ := h.move htwo hfits.1 hpassed'
    obtain ⟨g₂, hinject, hsame', hcounted'⟩ :=
      hcounted.inject (hstart (Nat.le_of_not_lt hnot)) hinside hinput
        fun current c => hfits.2 g₁ current c hok
    refine ⟨g₂, base₁, ?_, hsame.trans hsame', hcounted'⟩
    rw [if_neg hnot, hok]
    exact hinject

/-- **All inputs** keep the loads exact. -/
theorem Counted.run (h : Counted g l origin base key lives) (htwo : 2 ≤ g.numberOfSlots)
    (inputs : List (Input K M)) (hinputs : ∀ input ∈ inputs, PacketInput key input)
    (hfits : Runs.StepsObey SubQuadGen.step StepFits g inputs)
    (hpassed : ∀ p, p <+: inputs →
      Passed (l.after g.slotInterval g.delaySeconds p) origin g.slotInterval key lives) :
    ∃ g', Runs.run SubQuadGen.step g inputs = .ok g' ∧
      LoadsExact origin g.slotInterval key lives g'.output := by
  induction inputs generalizing g l base with
  | nil => exact ⟨g, rfl, h.loads⟩
  | cons input inputs ih =>
    obtain ⟨hinput, hinputs⟩ := forall_mem_cons.mp hinputs
    obtain ⟨g₁, base₁, hok, hsame, hcounted⟩ :=
      h.step htwo input hinput hfits.1 (hpassed [input] (by simp))
    obtain ⟨g₂, hrun, hloads⟩ := ih hcounted (by rw [hsame.numberOfSlots]; exact htwo) hinputs
      (hfits.2 g₁ hok) (by
        intro p hp
        rw [hsame.slotInterval, hsame.delaySeconds]
        exact hpassed (input :: p) (cons_prefix_cons.mpr ⟨rfl, hp⟩))
    rw [hsame.slotInterval] at hloads
    refine ⟨g₂, ?_, hloads⟩
    rw [Runs.run, hok]
    exact hrun

theorem Constructed.counted (hg : Constructed g) (hconn : g.connections.isSome) (key : QgKey K)
    (lives : List Life) : Counted g { windowStart := g.windowStart } g.windowStart 0 key lives := by
  have hcarry : carryInto lives 0 = 0 := by
    unfold carryInto
    rw [countP_eq_zero]
    intro life _
    simp
  have htable : ∀ (n capacity j : Nat) (c : ConcurrentConnection K),
      (List.replicate n (.withCapacity capacity))[j]? = some c → c.Sized ∧ c.counts key = {} := by
    intro n capacity j c hc
    have hmem := mem_of_getElem? hc
    rw [eq_of_mem_replicate hmem]
    exact counts_new key fun _ => rfl
  obtain ⟨current, hcurrent⟩ := Option.isSome_iff_exists.mp hconn
  have htracks : ∀ (j : Nat) (c : ConcurrentConnection K), current[j]? = some c →
      c.Sized ∧ c.counts key = {} := by
    intro j c hc
    cases hg with
    | second windowStart delay capacity h | minute windowStart delay capacity =>
      obtain ⟨cap, -, rfl⟩ := Option.map_eq_some_iff.mp hcurrent
      exact htable _ _ j c hc
  refine ⟨hg.refines, ⟨current, hcurrent, ?_⟩, ?_, ?_⟩
  · intro j c hc
    obtain ⟨hsized, hcounts⟩ := htracks j c hc
    refine ⟨hsized, ?_⟩
    rw [hcounts, hcarry]
    split
    · rfl
    · rfl
  · exact nofun
  · rw [hg.empty.2.1]
    exact nofun

/-- **The load of a key is the number of its flows.**  In at least two slots, for a key
of TCP or UDP flows seen in packets, with all reports let in and nothing lost to time or
to the size of the tables, every meter that a move of the window sends has the number
of flows alive in its slot for load. -/
theorem load_eq_alive (hg : Constructed g) (hconn : g.connections.isSome)
    (htwo : 2 ≤ g.numberOfSlots) (key : QgKey K) (lives : List Life) (inputs : List (Input K M))
    (hinputs : ∀ input ∈ inputs, PacketInput key input)
    (hreported : ∀ p, p <+: inputs →
      Passed (Ledger.after g.slotInterval g.delaySeconds { windowStart := g.windowStart } p)
        g.windowStart g.slotInterval key lives)
    (hfits : Runs.StepsObey SubQuadGen.step StepFits g inputs) :
    ∃ g', Runs.run SubQuadGen.step g inputs = .ok g' ∧
      LoadsExact g.windowStart g.slotInterval key lives g'.output :=
  (hg.counted hconn key lives).run htwo inputs hinputs hfits hreported

end SubQuadGen

end

namespace SubQuadGen

def tcpReport (source : SignalSource) (isNewFlow : Bool) (closeType : CloseType) (time : Nat) :
    Report Nat Nat where
  taggedFlow :=
    { proto := .tcp, signalSource := source, isNewFlow := isNewFlow, closeType := closeType }
  flowMeter := { rest := 1 }
  key := ⟨false, 0⟩
  timeInSecond := time

/-- One flow that begins and ends in the first second, and the end of this second. -/
def oneFlow : List (Input Nat Nat) :=
  [.report (tcpReport .packet true .finish 0), .tick 2]

theorem load_eq_alive_one_flow :
    ∃ g', Runs.run SubQuadGen.step (second 0 2 (some 64) : SubQuadGen Nat Nat) oneFlow = .ok g' ∧
      LoadsExact 0 1 ⟨false, 0⟩ [⟨0, 0, Nat.le_refl 0⟩] g'.output := by
  refine load_eq_alive (.second 0 2 (some 64) (by decide)) rfl (by decide) _ _ _ ?_ ?_ ?_
  · exact forall_mem_cons.mpr ⟨⟨by decide, fun _ => ⟨.inl rfl, rfl⟩⟩,
      forall_mem_singleton.mpr trivial⟩
  · intro p hp s hs
    -- only the whole run leaves a slot behind, and that is the first
    rcases prefix_cons_iff.mp hp with rfl | ⟨q, rfl, hq⟩
    · exact absurd hs (by change ¬ 0 + 1 * (s + 1) ≤ 0; omega)
    rcases prefix_cons_iff.mp hq with rfl | ⟨q', rfl, hq'⟩
    · exact absurd hs (by change ¬ 0 + 1 * (s + 1) ≤ 0; omega)
    rw [prefix_nil.mp hq'] at hs ⊢
    have hzero : s = 0 := by
      change 0 + 1 * (s + 1) ≤ 1 at hs
      omega
    subst hzero
    exact List.Perm.refl _
  · refine ⟨⟨fun hpast => absurd hpast (by decide), ?_⟩, ?_⟩
    · intro g' current c hmove hconn hget
      cases hmove
      cases hconn
      cases hget
      exact .inr (by decide +kernel)
    · intro g₁ hstep
      cases hstep
      refine ⟨?_, fun _ _ => trivial⟩
      intro _ current hconn
      cases hconn
      intro g' front next hflush hnext
      cases hflush
      cases hnext
      exact ⟨by decide +kernel, trivial⟩

/-- A flow of eBPF data is alive in the first second, and the load is zero: data that has no
layer 4 information is left alone. -/
theorem ebpf_load_differs :
    ∃ g', Runs.run SubQuadGen.step (second 0 6 (some 64) : SubQuadGen Nat Nat)
        [.report (tcpReport .ebpf true .finish 0), .tick 6] = .ok g' ∧
      g'.output.map (fun acc => acc.flowMeter.load) = [0] ∧
      aliveIn [⟨0, 0, Nat.le_refl 0⟩] 0 = 1 ∧
      Reported [tcpReport .ebpf true .finish 0] [⟨0, 0, Nat.le_refl 0⟩] 0 :=
  ⟨_, rfl, by decide +kernel, by decide, List.Perm.refl _⟩

end SubQuadGen

end ZeroTrace.Collector
