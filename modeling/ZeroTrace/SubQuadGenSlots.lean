import ZeroTrace.SubQuadGenSteps

/-!
# Every report in its slot, once

A ledger says what the generator is for: it knows where the window starts, which
reports it let in and how many inputs came too late.  The generator refines it: a slot
holds, for every key, the merge of the reports that were let in for it, in the order
they came, and for every slot that the window has left, exactly one meter of every key
was sent, the merge of all reports of this slot.  A flush of everything sends the rest.

Slots are counted from the first start of the window.  With connections and a single
slot the code stops at the first move of the window; in all other cases it never does.
-/

namespace ZeroTrace.Collector

open RustExec FlowMeterWithFlow Option Lru Nat
open List hiding count

variable {K M : Type} (interval delay : Nat) {time : Nat}

/-- The window, the reports that were let in, and how many inputs came too late. -/
structure Ledger (K M : Type) where
  windowStart : Nat
  accepted : List (Report K M) := []
  dropped : Nat := 0

namespace Ledger

def startFor (interval delay windowStart time : Nat) : Nat :=
  if windowStart + delay ≤ time then
    windowStart + interval * ((time - windowStart - delay) / interval + 1)
  else windowStart

/-- One input. -/
def step (interval delay : Nat) (l : Ledger K M) : SubQuadGen.Input K M → Ledger K M
  | .report r =>
    if r.timeInSecond < l.windowStart then { l with dropped := l.dropped + 1 }
    else
      { l with
        windowStart := startFor interval delay l.windowStart r.timeInSecond
        accepted := l.accepted ++ [r] }
  | .tick time =>
    if time < l.windowStart then { l with dropped := l.dropped + 1 }
    else { l with windowStart := startFor interval delay l.windowStart time }

/-- All inputs, one after the other. -/
def after (interval delay : Nat) (l : Ledger K M) (inputs : List (SubQuadGen.Input K M)) :
    Ledger K M :=
  inputs.foldl (step interval delay) l

end Ledger

def slotOf (origin interval time : Nat) : Nat := (time - origin) / interval

/-- One more report for what is merged so far. -/
def mergeNext [SequentialMerge M] (acc : Option (FlowMeterWithFlow K M)) (r : Report K M) :
    Option (FlowMeterWithFlow K M) :=
  match acc with
  | some acc => some (acc.merge r)
  | none => some (.ofReport r)

/-- The merge of reports in their order. -/
def merged [SequentialMerge M] (rs : List (Report K M)) : Option (FlowMeterWithFlow K M) :=
  rs.foldl mergeNext none

theorem merged_concat [SequentialMerge M] (rs : List (Report K M)) (r : Report K M) :
    merged (rs ++ [r]) = mergeNext (merged rs) r := foldl_concat ..

theorem merged_place [SequentialMerge M] {origin interval slot : Nat} {key : QgKey K}
    {rs : List (Report K M)}
    (h : ∀ r ∈ rs, r.key = key ∧ slotOf origin interval r.timeInSecond = slot)
    {acc : FlowMeterWithFlow K M} (hacc : merged rs = some acc) :
    acc.key = key ∧ slotOf origin interval acc.timeInSecond = slot := by
  induction rs using reverseRecOn generalizing acc with
  | nil => cases hacc
  | append_singleton rs r ih =>
    obtain ⟨hkey, hslot⟩ := h r (by simp)
    rw [merged_concat] at hacc
    cases hrs : merged rs with
    | none =>
      rw [hrs] at hacc
      cases hacc
      exact ⟨hkey, hslot⟩
    | some old =>
      rw [hrs] at hacc
      obtain ⟨hold, -⟩ := ih (fun q hq => h q (mem_append_left _ hq)) hrs
      cases hacc
      unfold FlowMeterWithFlow.merge
      split <;> exact ⟨hold, hslot⟩

namespace SubQuadGen

theorem resetDelaySeconds_bounds (delay : Nat) :
    60 ≤ resetDelaySeconds delay ∧ resetDelaySeconds delay < 120 := by
  unfold resetDelaySeconds secondsInMinute
  split_ifs <;> omega

theorem startFor_eq_self {interval delay windowStart time : Nat} (hinterval : 0 < interval)
    (h : Ledger.startFor interval delay windowStart time = windowStart) :
    time < windowStart + delay := by
  by_contra hpast
  unfold Ledger.startFor at h
  rw [if_pos (by omega), mul_add] at h
  omega

theorem le_startFor {interval delay windowStart time : Nat} :
    windowStart ≤ Ledger.startFor interval delay windowStart time := by
  unfold Ledger.startFor
  split
  · exact le_add_right _ _
  · exact le_refl _

theorem le_step_windowStart (l : Ledger K M) (input : Input K M) :
    l.windowStart ≤ (l.step interval delay input).windowStart := by
  cases input with
  | report r | tick time =>
    unfold Ledger.step
    dsimp only
    split
    · exact le_refl _
    · exact le_startFor

theorem le_after_windowStart (l : Ledger K M) (inputs : List (Input K M)) :
    l.windowStart ≤ (l.after interval delay inputs).windowStart := by
  induction inputs generalizing l with
  | nil => exact le_refl _
  | cons input inputs ih => exact le_trans (le_step_windowStart interval delay l input) (ih _)

variable [Crate] {g g' : SubQuadGen K M}

/-- What no input changes. -/
structure Same (g g' : SubQuadGen K M) : Prop where
  slotInterval : g'.slotInterval = g.slotInterval
  delaySeconds : g'.delaySeconds = g.delaySeconds
  numberOfSlots : g'.numberOfSlots = g.numberOfSlots
  counted : g'.connections.isSome = g.connections.isSome

theorem Same.refl (g : SubQuadGen K M) : Same g g := ⟨rfl, rfl, rfl, rfl⟩

theorem Same.trans {g₁ g₂ g₃ : SubQuadGen K M} (h : Same g₁ g₂) (h' : Same g₂ g₃) : Same g₁ g₃ :=
  ⟨h'.slotInterval.trans h.slotInterval, h'.delaySeconds.trans h.delaySeconds,
    h'.numberOfSlots.trans h.numberOfSlots, h'.counted.trans h.counted⟩

theorem Same.carries (h : Same g g') : g'.Carries ↔ g.Carries := by
  unfold Carries
  rw [h.counted, h.numberOfSlots]

/-- The generators that the constructor makes. -/
inductive Constructed : SubQuadGen K M → Prop
  | second (windowStart delay : Nat) (capacity : Option Nat) (h : 1 ≤ delay) :
      Constructed (SubQuadGen.second windowStart delay capacity)
  | minute (windowStart delay : Nat) (capacity : Option Nat) :
      Constructed (SubQuadGen.minute windowStart delay capacity)

theorem shaped_new {windowStart interval slots delay : Nat} {capacity : Option Nat}
    (hslots : 0 < slots) (hinterval : 0 < interval) (hwide : interval ≤ delay)
    (hdelay : delay ≤ slots * interval) :
    (SubQuadGen.new windowStart interval slots delay capacity : SubQuadGen K M).Shaped := by
  refine ⟨length_replicate, hslots, hinterval, hwide, hdelay, ?_⟩
  intro current hcurrent
  obtain ⟨cap, -, rfl⟩ := map_eq_some_iff.mp hcurrent
  exact length_replicate

theorem Constructed.shaped (h : Constructed g) : g.Shaped := by
  cases h with
  | second windowStart delay capacity h =>
    exact shaped_new h one_pos h (le_of_eq (mul_one delay).symm)
  | minute windowStart delay capacity =>
    obtain ⟨hlow, hhigh⟩ := resetDelaySeconds_bounds delay
    exact shaped_new (by decide) (by decide) hlow (by omega)

theorem Constructed.empty (h : Constructed g) :
    (∀ i, g.stashAt i = .new) ∧ g.output = [] ∧ g.dropBeforeWindow = 0 := by
  cases h <;> exact ⟨fun _ => getElem?_getD_replicate_default_eq _ _ _, rfl, rfl⟩

theorem Shaped.slot_lt (h : g.Shaped) (hstart : g.windowStart ≤ time)
    (hend : time < g.windowStart + g.delaySeconds) :
    (time - g.windowStart) / g.slotInterval < g.numberOfSlots := by
  apply Nat.div_lt_of_lt_mul
  have hdelay := h.delay
  rw [Nat.mul_comm] at hdelay
  omega

end SubQuadGen

variable [DecidableEq K]

def Ledger.reportsOf (l : Ledger K M) (origin interval slot : Nat) (key : QgKey K) :
    List (Report K M) :=
  l.accepted.filter fun r => r.key = key ∧ slotOf origin interval r.timeInSecond = slot

def sentOf (origin interval : Nat) (output : List (FlowMeterWithFlow K M)) (slot : Nat)
    (key : QgKey K) : List (FlowMeterWithFlow K M) :=
  (output.map bare).filter fun acc =>
    acc.key = key ∧ slotOf origin interval acc.timeInSecond = slot

def QuadrupleStash.get (stash : QuadrupleStash K M) (key : QgKey K) :
    Option (FlowMeterWithFlow K M) :=
  (stash.flows key.isV6).lookup key.bytes

namespace SubQuadGen

def Holds [SequentialMerge M] (stash : QuadrupleStash K M) (l : Ledger K M)
    (origin interval slot : Nat) : Prop :=
  ∀ key, stash.get key = merged (l.reportsOf origin interval slot key)

theorem valuesOf_filter (family : Bool) (table : AList fun _ : K => FlowMeterWithFlow K M)
    (htable : ∀ b acc, table.lookup b = some acc → acc.key = ⟨family, b⟩) (key : QgKey K) :
    (valuesOf table).filter (fun acc => acc.key = key) =
      if key.isV6 = family then (table.lookup key.bytes).toList else [] := by
  have hentries : ∀ e ∈ table.entries, e.2.key = ⟨family, e.1⟩ := fun e he =>
    htable e.1 e.2 (AList.mem_lookup_iff.mpr he)
  have hnodup := table.nodupKeys
  change ((table.entries.map fun e => e.2).filter _) =
    if key.isV6 = family then (dlookup key.bytes table.entries).toList else []
  generalize table.entries = entries at hentries hnodup
  induction entries with
  | nil => simp
  | cons e entries ih =>
    obtain ⟨b, acc⟩ := e
    obtain ⟨hhead, hentries⟩ := forall_mem_cons.mp hentries
    have hrest := ih hentries (nodupKeys_cons.mp hnodup).2
    rw [map_cons, filter_cons]
    by_cases hkey : acc.key = key
    · have hfamily : key.isV6 = family := by rw [← hkey, hhead]
      have hbytes : key.bytes = b := by rw [← hkey, hhead]
      have hnone : dlookup b entries = none := dlookup_eq_none.mpr (nodupKeys_cons.mp hnodup).1
      rw [if_pos hfamily, hbytes, hnone] at hrest
      rw [if_pos (by simpa using hkey), hrest, if_pos hfamily, hbytes, dlookup_cons_eq]
      rfl
    · rw [if_neg (by simpa using hkey), hrest]
      by_cases hfamily : key.isV6 = family
      · have hbytes : key.bytes ≠ b := by
          intro heq
          apply hkey
          rw [hhead, ← hfamily, ← heq]
        rw [if_pos hfamily, if_pos hfamily, dlookup_cons_ne _ _ hbytes]
      · rw [if_neg hfamily, if_neg hfamily]

theorem map_bare_filter (origin interval slot : Nat) (key : QgKey K)
    (accs : List (FlowMeterWithFlow K M)) :
    sentOf origin interval accs slot key =
      ((accs.filter fun acc => acc.key = key).filter fun acc =>
        slotOf origin interval acc.timeInSecond = slot).map bare := by
  rw [sentOf, List.filter_map, List.filter_filter]
  congr 1
  apply filter_congr
  intro acc _
  by_cases hkey : acc.key = key <;> simp [bare, hkey]

variable {stash : QuadrupleStash K M}

theorem sentOf_valuesAt [SequentialMerge M] {l : Ledger K M} {origin interval slot : Nat}
    (h : Holds stash l origin interval slot) (s : Nat) (key : QgKey K) :
    sentOf origin interval (valuesAt stash) s key =
      if s = slot then (merged (l.reportsOf origin interval slot key)).toList.map bare
      else [] := by
  have hplace : ∀ key acc, stash.get key = some acc →
      acc.key = key ∧ slotOf origin interval acc.timeInSecond = slot := by
    intro key acc hacc
    rw [h key] at hacc
    exact merged_place (fun r hr => by simpa using (mem_filter.mp hr).2) hacc
  have hvalues : (valuesAt stash).filter (fun acc => acc.key = key) = (stash.get key).toList := by
    rw [valuesAt, filter_append,
      valuesOf_filter false (stash.flows false) (fun b acc hacc => (hplace ⟨false, b⟩ acc hacc).1),
      valuesOf_filter true (stash.flows true) (fun b acc hacc => (hplace ⟨true, b⟩ acc hacc).1),
      QuadrupleStash.get]
    cases key.isV6 <;> simp
  rw [map_bare_filter, hvalues, ← h key]
  cases hacc : stash.get key with
  | none => simp
  | some acc =>
    have hslot := (hplace key acc hacc).2
    split_ifs with hs
    · simp [hslot, hs]
    · simp [hslot, Ne.symm hs]

theorem sentOf_append (origin interval : Nat) (xs ys : List (FlowMeterWithFlow K M)) (s : Nat)
    (key : QgKey K) :
    sentOf origin interval (xs ++ ys) s key =
      sentOf origin interval xs s key ++ sentOf origin interval ys s key := by
  rw [sentOf, sentOf, sentOf, map_append, filter_append]

theorem sentOf_congr {origin interval : Nat} {xs ys : List (FlowMeterWithFlow K M)}
    (h : xs.map bare = ys.map bare) (s : Nat) (key : QgKey K) :
    sentOf origin interval xs s key = sentOf origin interval ys s key := by
  rw [sentOf, sentOf, h]

section Refinement

variable [Crate] {g g' : SubQuadGen K M}

theorem sentOf_valuesFrom [SequentialMerge M] {l : Ledger K M} {origin interval base : Nat}
    (h : ∀ i, Holds (g.stashAt i) l origin interval (base + i)) (i count s : Nat) (key : QgKey K) :
    sentOf origin interval (valuesFrom g i count) s key =
      if base + i ≤ s ∧ s < base + i + count then
        (merged (l.reportsOf origin interval s key)).toList.map bare
      else [] := by
  induction count generalizing i with
  | zero =>
    rw [if_neg (by omega)]
    rfl
  | succ count ih =>
    rw [valuesFrom, sentOf_append, sentOf_valuesAt (h i), ih]
    by_cases hs : s = base + i
    · subst hs
      rw [if_pos rfl, if_neg (by omega), if_pos (by omega), append_nil]
    rw [if_neg hs, nil_append]
    exact if_congr (by omega) rfl rfl

/-- **The generator refines the ledger.**  `base` is the slot at the start of the
window. -/
structure Refines [SequentialMerge M] (g : SubQuadGen K M) (l : Ledger K M)
    (origin base : Nat) : Prop where
  shaped : g.Shaped
  windowStart : g.windowStart = l.windowStart
  aligned : l.windowStart = origin + g.slotInterval * base
  dropped : g.dropBeforeWindow = l.dropped
  live : ∀ i, Holds (g.stashAt i) l origin g.slotInterval (base + i)
  sent : ∀ s key, sentOf origin g.slotInterval g.output s key =
    if s < base then
      (merged (l.reportsOf origin g.slotInterval s key)).toList.map bare
    else []

variable [SequentialMerge M] {l : Ledger K M} {origin base : Nat}

theorem Refines.shifted (h : Refines g l origin base) {shift : Nat} (hs : Shifted g g' shift) :
    Refines g' { l with windowStart := l.windowStart + g.slotInterval * shift } origin
      (base + shift) := by
  refine ⟨hs.shaped h.shaped, ?_, ?_, ?_, ?_, ?_⟩
  · rw [hs.windowStart, h.windowStart]
  · change l.windowStart + g.slotInterval * shift = origin + g'.slotInterval * (base + shift)
    rw [hs.slotInterval, h.aligned, mul_add, add_assoc]
  · rw [hs.dropped, h.dropped]
  · intro i
    rw [hs.stashAt, hs.slotInterval, show base + shift + i = base + (i + shift) by omega]
    exact h.live (i + shift)
  · intro s key
    obtain ⟨out, hout, hbare⟩ := hs.output
    rw [hs.slotInterval, hout, sentOf_append, h.sent, sentOf_congr hbare, sentOf_valuesFrom h.live]
    change _ = if s < base + shift then
      (merged (l.reportsOf origin g.slotInterval s key)).toList.map _ else []
    by_cases hold : s < base
    · rw [if_pos hold, if_neg (by omega), if_pos (by omega), append_nil]
    rw [if_neg hold, nil_append]
    exact if_congr (by omega) rfl rfl

theorem Refines.slotOf_eq (h : Refines g l origin base) (htime : g.windowStart ≤ time) :
    slotOf origin g.slotInterval time = base + (time - g.windowStart) / g.slotInterval := by
  have hstart : g.windowStart = origin + g.slotInterval * base := h.windowStart.trans h.aligned
  have hsplit : time - origin = time - g.windowStart + g.slotInterval * base := by omega
  rw [slotOf, hsplit, add_mul_div_left _ _ h.shaped.interval, add_comm]

omit [Crate] [SequentialMerge M] in
theorem reportsOf_concat (l : Ledger K M) (r : Report K M) (origin interval slot : Nat)
    (key : QgKey K) :
    ({ l with accepted := l.accepted ++ [r] } : Ledger K M).reportsOf origin interval slot key =
      l.reportsOf origin interval slot key ++
        if r.key = key ∧ slotOf origin interval r.timeInSecond = slot then [r] else [] := by
  unfold Ledger.reportsOf
  rw [filter_append]
  congr 1
  by_cases hr : r.key = key ∧ slotOf origin interval r.timeInSecond = slot
  · simp [hr]
  · rw [if_neg hr, filter_cons_of_neg (by simpa using hr), filter_nil]

omit [Crate] in
theorem mergeReport_get (stash : QuadrupleStash K M) (r : Report K M) (key : QgKey K) :
    (mergeReport stash r).get key =
      if r.key = key then mergeNext (stash.get key) r else stash.get key := by
  unfold mergeReport QuadrupleStash.get mergeNext
  by_cases hkey : r.key = key
  · subst hkey
    rw [if_pos rfl]
    dsimp only
    rw [Function.update_self, AList.lookup_insert]
    cases (stash.flows r.key.isV6).lookup r.key.bytes <;> rfl
  rw [if_neg hkey]
  dsimp only
  by_cases hfamily : key.isV6 = r.key.isV6
  · have hbytes : key.bytes ≠ r.key.bytes := by
      intro heq
      apply hkey
      cases hk : r.key
      cases key
      simp_all
    rw [hfamily, Function.update_self, AList.lookup_insert_ne hbytes]
  · rw [Function.update_of_ne hfamily]

variable {r : Report K M}

omit [Crate] in
theorem Holds.mergeReport {interval slot : Nat} (h : Holds stash l origin interval slot)
    (hslot : slotOf origin interval r.timeInSecond = slot) :
    Holds (mergeReport stash r) { l with accepted := l.accepted ++ [r] } origin interval slot := by
  intro key
  rw [mergeReport_get, reportsOf_concat]
  by_cases hkey : r.key = key
  · rw [if_pos hkey, if_pos ⟨hkey, hslot⟩, merged_concat, h key]
  · rw [if_neg hkey, if_neg fun hr => hkey hr.1, append_nil, h key]

omit [Crate] in
theorem Holds.other {interval slot : Nat} (h : Holds stash l origin interval slot)
    (hslot : slotOf origin interval r.timeInSecond ≠ slot) :
    Holds stash { l with accepted := l.accepted ++ [r] } origin interval slot := by
  intro key
  rw [reportsOf_concat, if_neg fun hr => hslot hr.2, append_nil, h key]

theorem injectFlow_ok (hg : g.Shaped) (hstart : g.windowStart ≤ r.timeInSecond)
    {slot : Nat} (hs : (r.timeInSecond - g.windowStart) / g.slotInterval = slot)
    (hslot : slot < g.stashs.length) :
    ∃ connections, connections.map length = g.connections.map length ∧
      g.injectFlow r = .ok
        { g with
          stashs := g.stashs.set slot (mergeReport (g.stashAt slot) r)
          connections := connections } := by
  have hstash : g.stashAt slot = g.stashs[slot] := getD_eq_getElem _ _ hslot
  unfold injectFlow
  rw [checkedSub_ok hstart, ok_bind, hs]
  dsimp only
  rw [index_ok (getElem?_eq_getElem hslot), ok_bind, hstash]
  split
  · cases hconn : g.connections with
    | none =>
      refine ⟨none, rfl, ?_⟩
      rw [ok_bind, store_ok _ hslot]
      rfl
    | some current =>
      have hcurrent : slot < current.length := by
        rw [hg.connections current hconn, ← hg.slots]
        exact hslot
      refine ⟨some (current.set slot (countConnection current[slot] r)), ?_, ?_⟩
      · simp
      dsimp only
      rw [index_ok (getElem?_eq_getElem hcurrent), ok_bind, store_ok _ hcurrent, ok_bind,
        ok_bind, store_ok _ hslot]
      rfl
  · refine ⟨g.connections, rfl, ?_⟩
    rw [ok_bind, store_ok _ hslot]
    rfl

section

variable (h : Refines g l origin base)

include h

theorem Refines.inject (hstart : g.windowStart ≤ r.timeInSecond)
    (hend : r.timeInSecond < g.windowStart + g.delaySeconds) :
    ∃ g', g.injectFlow r = .ok g' ∧ Same g g' ∧
      Refines g' { l with accepted := l.accepted ++ [r] } origin base := by
  have hslot := h.shaped.slot_lt hstart hend
  have hgrid := h.slotOf_eq hstart
  obtain ⟨slot, hs⟩ : ∃ slot, (r.timeInSecond - g.windowStart) / g.slotInterval = slot := ⟨_, rfl⟩
  rw [hs] at hslot hgrid
  obtain ⟨connections, hconn, hok⟩ := injectFlow_ok h.shaped hstart hs (by rwa [h.shaped.slots])
  refine ⟨_, hok, ⟨rfl, rfl, rfl, ?_⟩, ⟨⟨?_, h.shaped.nonempty, h.shaped.interval, h.shaped.wide,
    h.shaped.delay, ?_⟩, h.windowStart, h.aligned, h.dropped, ?_, ?_⟩⟩
  · have hsome := congrArg isSome hconn
    simpa using hsome
  · rw [← h.shaped.slots]
    exact length_set
  · intro current hcurrent
    dsimp only at hcurrent
    rw [hcurrent, map_some] at hconn
    obtain ⟨old, hold, heq⟩ := map_eq_some_iff.mp hconn.symm
    rw [← heq]
    exact h.shaped.connections old hold
  · intro i
    have hset : stashAt { g with
        stashs := g.stashs.set slot (mergeReport (g.stashAt slot) r)
        connections := connections } i =
        if i = slot then mergeReport (g.stashAt i) r else g.stashAt i := by
      by_cases hi : i = slot
      · subst hi
        rw [if_pos rfl, stashAt, getD_eq_getElem?_getD,
          getElem?_set_self (by rwa [h.shaped.slots]), getD_some]
      · rw [if_neg hi, stashAt, getD_eq_getElem?_getD,
          getElem?_set_ne (Ne.symm hi), ← getD_eq_getElem?_getD]
        rfl
    rw [hset]
    split_ifs with hi
    · exact (h.live i).mergeReport (by rw [hgrid, hi])
    · exact (h.live i).other (by rw [hgrid]; omega)
  · intro s key
    change sentOf origin g.slotInterval g.output s key = _
    rw [h.sent s key]
    by_cases hs : s < base
    · -- a report inside the window is in no slot that was sent
      have hlate : ¬ (r.key = key ∧ slotOf origin g.slotInterval r.timeInSecond = s) := by
        intro hr
        omega
      rw [if_pos hs, if_pos hs, reportsOf_concat, if_neg hlate, append_nil]
    · rw [if_neg hs, if_neg hs]

theorem Refines.move (time : Nat) (hc : g.windowStart + g.delaySeconds ≤ time → g.Carries) :
    ∃ g', moveLoop time 2 g = .ok g' ∧ Same g g' ∧
      time < g'.windowStart + g'.delaySeconds ∧
      (g.windowStart ≤ time → g'.windowStart ≤ time) ∧
      Refines g'
        { l with windowStart := Ledger.startFor g.slotInterval g.delaySeconds l.windowStart time }
        origin
        (base + if g.windowStart + g.delaySeconds ≤ time then g.slotsToShift time else 0) := by
  obtain ⟨g', hok, hshift⟩ := moveLoop_spec h.shaped time hc
  have hsome := congrArg isSome hshift.connections
  rw [isSome_map, isSome_map] at hsome
  have hrefines := h.shifted hshift
  have hstart : l.windowStart + g.slotInterval *
      (if g.windowStart + g.delaySeconds ≤ time then g.slotsToShift time else 0) =
        Ledger.startFor g.slotInterval g.delaySeconds l.windowStart time := by
    unfold Ledger.startFor slotsToShift
    rw [h.windowStart]
    split <;> rfl
  rw [hstart] at hrefines
  refine ⟨g', hok, ⟨hshift.slotInterval, hshift.delaySeconds, hshift.numberOfSlots, hsome⟩,
    ?_, ?_, hrefines⟩
  · by_cases hpast : g.windowStart + g.delaySeconds ≤ time
    · rw [if_pos hpast] at hshift
      exact lt_of_shifted h.shaped hshift
    · rw [hshift.windowStart, hshift.delaySeconds]
      omega
  · intro hle
    by_cases hpast : g.windowStart + g.delaySeconds ≤ time
    · rw [if_pos hpast] at hshift
      exact le_of_shifted h.shaped hpast hshift
    · rw [if_neg hpast] at hshift
      rw [hshift.windowStart]
      omega

theorem Refines.late : Refines { g with dropBeforeWindow := g.dropBeforeWindow + 1 }
      { l with dropped := l.dropped + 1 } origin base :=
  ⟨⟨h.shaped.slots, h.shaped.nonempty, h.shaped.interval, h.shaped.wide, h.shaped.delay,
    h.shaped.connections⟩, h.windowStart, h.aligned, congrArg (· + 1) h.dropped, h.live, h.sent⟩

/-- **One input.** -/
theorem Refines.step (input : Input K M) (hc : g.Carries ∨
      (l.step g.slotInterval g.delaySeconds input).windowStart = l.windowStart) :
    ∃ g' base', g.step input = .ok g' ∧ Same g g' ∧
      Refines g' (l.step g.slotInterval g.delaySeconds input) origin base' := by
  have hmove : ∀ time, (g.Carries ∨
      Ledger.startFor g.slotInterval g.delaySeconds l.windowStart time = l.windowStart) →
        g.windowStart + g.delaySeconds ≤ time → g.Carries := by
    intro time hor hpast
    rcases hor with hcarries | hstay
    · exact hcarries
    · have hinside := startFor_eq_self h.shaped.interval hstay
      rw [← h.windowStart] at hinside
      omega
  cases input with
  | tick time =>
    unfold Ledger.step at hc ⊢
    unfold SubQuadGen.step moveWindow
    dsimp only at hc ⊢
    by_cases hlate : time < l.windowStart
    · rw [if_pos hlate, if_pos (by rwa [h.windowStart])]
      exact ⟨_, base, rfl, ⟨rfl, rfl, rfl, rfl⟩, h.late⟩
    rw [if_neg hlate] at hc ⊢
    obtain ⟨g', hok, hsame, -, -, hrefines⟩ := h.move time (hmove time hc)
    rw [if_neg (by rwa [h.windowStart]), hok]
    exact ⟨g', _, rfl, hsame, hrefines⟩
  | report r =>
    unfold Ledger.step at hc ⊢
    unfold SubQuadGen.step moveWindow
    dsimp only at hc ⊢
    by_cases hlate : r.timeInSecond < l.windowStart
    · rw [if_pos hlate, if_pos (by rwa [h.windowStart])]
      exact ⟨_, base, rfl, ⟨rfl, rfl, rfl, rfl⟩, h.late⟩
    rw [if_neg hlate] at hc ⊢
    have hnot : ¬ r.timeInSecond < g.windowStart := by rwa [h.windowStart]
    obtain ⟨g₁, hok, hsame, hinside, hstart, hrefines⟩ :=
      h.move r.timeInSecond (hmove r.timeInSecond hc)
    obtain ⟨g₂, hinject, hsame', hrefines'⟩ :=
      hrefines.inject (hstart (Nat.le_of_not_lt hnot)) hinside
    refine ⟨g₂, _, ?_, hsame.trans hsame', hrefines'⟩
    rw [if_neg hnot, hok]
    exact hinject

/-- **All inputs.** -/
theorem Refines.run (inputs : List (Input K M)) (hc : g.Carries ∨
      (l.after g.slotInterval g.delaySeconds inputs).windowStart = l.windowStart) :
    ∃ g' base', Runs.run SubQuadGen.step g inputs = .ok g' ∧ Same g g' ∧
      Refines g' (l.after g.slotInterval g.delaySeconds inputs) origin base' := by
  induction inputs generalizing g l base with
  | nil => exact ⟨g, base, rfl, Same.refl g, h⟩
  | cons input inputs ih =>
    have hfirst := le_step_windowStart g.slotInterval g.delaySeconds l input
    have hrest := le_after_windowStart g.slotInterval g.delaySeconds
      (l.step g.slotInterval g.delaySeconds input) inputs
    rw [Ledger.after, foldl_cons, ← Ledger.after] at hc ⊢
    obtain ⟨g₁, base₁, hok, hsame, hrefines⟩ := h.step input (hc.imp_right fun heq => by omega)
    obtain ⟨g₂, base₂, hrun, hsame', hrefines'⟩ := ih hrefines (by
      rw [hsame.carries, hsame.slotInterval, hsame.delaySeconds]
      exact hc.imp_right fun heq => by omega)
    rw [hsame.slotInterval, hsame.delaySeconds] at hrefines'
    refine ⟨g₂, base₂, ?_, hsame.trans hsame', hrefines'⟩
    rw [Runs.run, hok]
    exact hrun

theorem Refines.run_fails (hc : ¬ g.Carries) (inputs : List (Input K M))
    (hmoves : (l.after g.slotInterval g.delaySeconds inputs).windowStart ≠ l.windowStart) :
    Runs.run SubQuadGen.step g inputs = .error .outOfBounds := by
  induction inputs generalizing g l base with
  | nil => exact absurd rfl hmoves
  | cons input inputs ih =>
    by_cases hstay : (l.step g.slotInterval g.delaySeconds input).windowStart = l.windowStart
    · obtain ⟨g₁, base₁, hok, hsame, hrefines⟩ := h.step input (.inr hstay)
      rw [Runs.run, hok]
      refine ih hrefines (by rwa [hsame.carries]) ?_
      rwa [hsame.slotInterval, hsame.delaySeconds, hstay]
    -- the window moves only for a time past its end
    have hpast : ∀ time, ¬ time < l.windowStart →
        Ledger.startFor g.slotInterval g.delaySeconds l.windowStart time ≠ l.windowStart →
          moveWindow g time = .error .outOfBounds := by
      intro time hnot hne
      have hend : g.windowStart + g.delaySeconds ≤ time := by
        by_contra hin
        apply hne
        rw [h.windowStart] at hin
        exact if_neg hin
      rw [moveWindow, if_neg (by rwa [h.windowStart]), moveLoop_single h.shaped hc hend]
      rfl
    cases input with
    | tick time | report r =>
      unfold Ledger.step at hstay
      dsimp only at hstay
      split at hstay
      · exact absurd rfl hstay
      next hnot =>
        rw [Runs.run, SubQuadGen.step, hpast _ hnot hstay]
        rfl

theorem Refines.flushed :
    ∃ g', g.flushAllFlow = .ok g' ∧ ∀ s key, sentOf origin g.slotInterval g'.output s key =
      (merged (l.reportsOf origin g.slotInterval s key)).toList.map bare := by
  obtain ⟨g', hok, hsends⟩ := flushAllFlow_spec h.shaped
  refine ⟨g', hok, ?_⟩
  intro s key
  obtain ⟨out, hout, hbare⟩ := hsends.output
  rw [hout, sentOf_append, h.sent, sentOf_congr hbare, sentOf_valuesFrom h.live]
  by_cases hold : s < base
  · rw [if_pos hold, if_neg (by omega), append_nil]
  rw [if_neg hold, nil_append]
  by_cases hin : s < base + g.stashs.length
  · rw [if_pos (by omega)]
  -- past the last slot nothing was let in
  have hnone := h.live (s - base) key
  rw [stashAt_of_le (by omega), Nat.add_sub_cancel' (by omega)] at hnone
  rw [if_neg (by omega), ← hnone]
  rfl

end

theorem Constructed.refines (h : Constructed g) :
    Refines g { windowStart := g.windowStart } g.windowStart 0 := by
  obtain ⟨hstash, houtput, hdropped⟩ := h.empty
  refine ⟨h.shaped, rfl, (add_zero _).symm, hdropped, ?_, ?_⟩
  · intro i key
    rw [hstash i]
    rfl
  · intro s key
    rw [houtput, if_neg (not_lt_zero s)]
    rfl

/-- The generator agrees with the ledger, and a flush of everything sends the rest. -/
structure Exact (g : SubQuadGen K M) (l : Ledger K M) (origin : Nat) : Prop where
  refines : ∃ base, Refines g l origin base
  flushed : ∃ g', g.flushAllFlow = .ok g' ∧ ∀ s key, sentOf origin g.slotInterval g'.output s key =
    (merged (l.reportsOf origin g.slotInterval s key)).toList.map bare

/-- **Every report once, in its slot.**  A generator that the constructor makes takes any
inputs without a panic and agrees with the ledger, if and only if there are two slots
or no connections, or the window never moves. -/
theorem reports_merged_once_iff {g : SubQuadGen K M} (hg : Constructed g)
    (inputs : List (Input K M)) :
    (∃ g', Runs.run SubQuadGen.step g inputs = .ok g' ∧
        Exact g'
          (Ledger.after g.slotInterval g.delaySeconds { windowStart := g.windowStart } inputs)
          g.windowStart) ↔
      (g.connections.isSome → 2 ≤ g.numberOfSlots) ∨
        (Ledger.after g.slotInterval g.delaySeconds
          ({ windowStart := g.windowStart } : Ledger K M) inputs).windowStart = g.windowStart := by
  constructor
  · intro h
    obtain ⟨g', hrun, -⟩ := h
    by_contra hnot
    push Not at hnot
    have hfails := hg.refines.run_fails (fun hc => absurd (hc hnot.1.1) (by omega)) inputs hnot.2
    rw [hfails] at hrun
    cases hrun
  · intro h
    obtain ⟨g', base, hrun, -, hrefines⟩ := hg.refines.run inputs h
    exact ⟨g', hrun, ⟨base, hrefines⟩, hrefines.flushed⟩

end Refinement

section Runs

def reportAt (time : Nat) : Report Nat Nat where
  taggedFlow :=
    { proto := .tcp, signalSource := .packet, isNewFlow := true, closeType := .forcedReport }
  flowMeter := { newFlow := 1, rest := 1 }
  key := ⟨false, 0⟩
  timeInSecond := time

theorem reports_merged_once_two_slots :
    ∃ g', Runs.run SubQuadGen.step (second 0 2 (some 1) : SubQuadGen Nat Nat)
        [.report (reportAt 0), .report (reportAt 0), .tick 5] = .ok g' ∧
      Exact g' (Ledger.after 1 2 { windowStart := 0 }
        [.report (reportAt 0), .report (reportAt 0), .tick 5]) 0 :=
  (reports_merged_once_iff (.second 0 2 (some 1) (by decide)) _).mpr (.inl fun _ => by decide)

/-- With one slot and connections, the first move of the window is a panic. -/
theorem single_slot_panics :
    Runs.run SubQuadGen.step (second 0 1 (some 1) : SubQuadGen Nat Nat)
      [.report (reportAt 0), .tick 1] = .error .outOfBounds :=
  rfl

end Runs

end SubQuadGen

end ZeroTrace.Collector
