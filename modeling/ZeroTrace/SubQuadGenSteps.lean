import ZeroTrace.SubQuadGen

/-!
# What a move of the window does

A slot that is flushed is replaced by an empty one, whichever way the deque goes about
it, and sending changes nothing of a meter but its load.  The window moves by the two
paths of the source, one for a shift within the slots and one beyond them, and both
come to the same: slot `i` afterwards is slot `i + shift` before, empty past the end
(`Shifted`).  The loop of `move_window` is done after one round.

With connections there have to be two slots: with a single one there is no next slot
to carry the connections into, and the code indexes an empty deque.
-/

namespace ZeroTrace.Collector

open RustExec Tables Option FlowMeterWithFlow Lru Nat
open List hiding count

variable {K M : Type}

theorem swapRemoveBack_append {α : Type} {xs : List α} {i : Nat} (h : i < xs.length) (e : α) :
    swapRemoveBack (xs ++ [e]) i = some (xs[i], xs.set i e) := by
  have hget : (xs ++ [e])[i]? = some xs[i] := by rw [getElem?_append_left h, getElem?_eq_getElem h]
  unfold swapRemoveBack
  rw [hget, getLast?_concat]
  dsimp only
  rw [set_append_left _ _ h, dropLast_concat]

theorem rotateLeft_replicate {α : Type} (xs : List α) (k : Nat) (e : α) :
    rotateLeft (replicate k e ++ xs) k = .ok (xs ++ replicate k e) := by
  rw [rotateLeft, if_pos (by simp)]
  simp

def FlowMeterWithFlow.bare (acc : FlowMeterWithFlow K M) : FlowMeterWithFlow K M :=
  { acc with flowMeter := { acc.flowMeter with load := 0, flowCount := 0 } }

namespace SubQuadGen

variable [Crate] {g g' : SubQuadGen K M} {current : List (ConcurrentConnection K)}
  (accs : List (FlowMeterWithFlow K M)) (c : Option (ConcurrentConnection K)) {time : Nat}

/-- The values of a slot, as they are sent. -/
def valuesAt (stash : QuadrupleStash K M) : List (FlowMeterWithFlow K M) :=
  valuesOf (stash.flows false) ++ valuesOf (stash.flows true)

/-- A slot by its index, empty past the end. -/
def stashAt (g : SubQuadGen K M) (i : Nat) : QuadrupleStash K M := g.stashs.getD i .new

/-- `g'` is `g` with other slots, and with `sent` sent. -/
structure Sends (g g' : SubQuadGen K M) (stashs : List (QuadrupleStash K M))
    (sent : List (FlowMeterWithFlow K M)) : Prop where
  stashs : g'.stashs = stashs
  output : ∃ out, g'.output = g.output ++ out ∧
    out.map FlowMeterWithFlow.bare = sent.map FlowMeterWithFlow.bare
  windowStart : g'.windowStart = g.windowStart
  slotInterval : g'.slotInterval = g.slotInterval
  numberOfSlots : g'.numberOfSlots = g.numberOfSlots
  delaySeconds : g'.delaySeconds = g.delaySeconds
  dropped : g'.dropBeforeWindow = g.dropBeforeWindow

theorem Sends.refl (g : SubQuadGen K M) : Sends g g g.stashs [] :=
  ⟨rfl, ⟨[], by simp, rfl⟩, rfl, rfl, rfl, rfl, rfl⟩

theorem Sends.trans {g₁ g₂ g₃ : SubQuadGen K M} {ss ss' : List (QuadrupleStash K M)}
    {sent sent' : List (FlowMeterWithFlow K M)} (h : Sends g₁ g₂ ss sent)
    (h' : Sends g₂ g₃ ss' sent') : Sends g₁ g₃ ss' (sent ++ sent') := by
  obtain ⟨out, hout, hbare⟩ := h.output
  obtain ⟨out', hout', hbare'⟩ := h'.output
  refine ⟨h'.stashs, ⟨out ++ out', ?_, ?_⟩, h'.windowStart.trans h.windowStart,
    h'.slotInterval.trans h.slotInterval, h'.numberOfSlots.trans h.numberOfSlots,
    h'.delaySeconds.trans h.delaySeconds, h'.dropped.trans h.dropped⟩
  · rw [hout', hout, append_assoc]
  · rw [map_append, map_append, hbare, hbare']

/-- Empty the slots from `i` on, `count` of them. -/
def emptied (stashs : List (QuadrupleStash K M)) (i : Nat) : Nat → List (QuadrupleStash K M)
  | 0 => stashs
  | count + 1 => emptied (stashs.set i .new) (i + 1) count

/-- What the slots from `i` on hold, `count` of them. -/
def valuesFrom (g : SubQuadGen K M) (i : Nat) : Nat → List (FlowMeterWithFlow K M)
  | 0 => []
  | count + 1 => valuesAt (g.stashAt i) ++ valuesFrom g (i + 1) count

variable (stashs : List (QuadrupleStash K M)) {i count : Nat}

omit [Crate] in
theorem emptied_append (pre mid post : List (QuadrupleStash K M)) :
    emptied (pre ++ (mid ++ post)) pre.length mid.length =
      pre ++ (replicate mid.length .new ++ post) := by
  induction mid generalizing pre with
  | nil => rfl
  | cons stash mid ih =>
    have hrest := ih (pre ++ [.new])
    rw [length_append, length_singleton, append_assoc, append_assoc] at hrest
    rw [length_cons, emptied, cons_append, set_append_right _ _ le_rfl, Nat.sub_self]
    exact hrest

omit [Crate] in
theorem emptied_zero {k : Nat} (h : k ≤ stashs.length) :
    emptied stashs 0 k = replicate k .new ++ stashs.drop k := by
  have hfirst := emptied_append [] (stashs.take k) (stashs.drop k)
  rwa [nil_append, take_append_drop, length_take_of_le h] at hfirst

theorem valuesFrom_congr (h : ∀ j, i ≤ j → g'.stashAt j = g.stashAt j) :
    valuesFrom g' i count = valuesFrom g i count := by
  induction count generalizing i with
  | zero => rfl
  | succ count ih => rw [valuesFrom, valuesFrom, h i (le_refl i), ih fun j hj => h j (by omega)]

theorem Sends.stashAt_of_lt {j : Nat} {sent : List (FlowMeterWithFlow K M)}
    (h : Sends g g' (g.stashs.set i .new) sent) (hj : i < j) : g'.stashAt j = g.stashAt j := by
  rw [stashAt, stashAt, h.stashs, getD_eq_getElem?_getD, getD_eq_getElem?_getD,
    getElem?_set_ne (by omega)]

theorem stashAt_of_le (h : g.stashs.length ≤ i) : g.stashAt i = .new := getD_eq_default _ _ h

theorem valuesFrom_of_le (h : g.stashs.length ≤ i) : valuesFrom g i count = [] := by
  induction count generalizing i with
  | zero => rfl
  | succ count ih =>
    rw [valuesFrom, stashAt_of_le h, ih (by omega)]
    rfl

theorem valuesFrom_add (g : SubQuadGen K M) (i m n : Nat) :
    valuesFrom g i (m + n) = valuesFrom g i m ++ valuesFrom g (i + m) n := by
  induction m generalizing i with
  | zero =>
    rw [zero_add]
    rfl
  | succ m ih =>
    rw [succ_add, valuesFrom, valuesFrom, ih, append_assoc,
      show i + 1 + m = i + (m + 1) by omega]

/-- The deques are as long as there are slots, and the delay is at least one slot and at
most all of them. -/
structure Shaped (g : SubQuadGen K M) : Prop where
  slots : g.stashs.length = g.numberOfSlots
  nonempty : 0 < g.numberOfSlots
  interval : 0 < g.slotInterval
  wide : g.slotInterval ≤ g.delaySeconds
  delay : g.delaySeconds ≤ g.numberOfSlots * g.slotInterval
  connections : ∀ current, g.connections = some current → current.length = g.numberOfSlots

/-- There is a next slot to carry connections into, where they are counted. -/
def Carries (g : SubQuadGen K M) : Prop := g.connections.isSome → 2 ≤ g.numberOfSlots

/-- The window has left `shift` slots behind, and they were sent. -/
structure Shifted (g g' : SubQuadGen K M) (shift : Nat) : Prop where
  windowStart : g'.windowStart = g.windowStart + g.slotInterval * shift
  slotInterval : g'.slotInterval = g.slotInterval
  numberOfSlots : g'.numberOfSlots = g.numberOfSlots
  delaySeconds : g'.delaySeconds = g.delaySeconds
  dropped : g'.dropBeforeWindow = g.dropBeforeWindow
  stashAt : ∀ i, g'.stashAt i = g.stashAt (i + shift)
  stashs : g'.stashs.length = g.stashs.length
  connections : g'.connections.map List.length = g.connections.map List.length
  output : ∃ out, g'.output = g.output ++ out ∧
    out.map FlowMeterWithFlow.bare = (valuesFrom g 0 shift).map FlowMeterWithFlow.bare

theorem Shifted.shaped {shift : Nat} (h : Shifted g g' shift) (hg : g.Shaped) : g'.Shaped := by
  refine ⟨?_, ?_, ?_, ?_, ?_, ?_⟩
  · rw [h.stashs, h.numberOfSlots, hg.slots]
  · rw [h.numberOfSlots]
    exact hg.nonempty
  · rw [h.slotInterval]
    exact hg.interval
  · rw [h.slotInterval, h.delaySeconds]
    exact hg.wide
  · rw [h.delaySeconds, h.numberOfSlots, h.slotInterval]
    exact hg.delay
  · intro current hcurrent
    have hlen := h.connections
    rw [hcurrent, map_some] at hlen
    obtain ⟨old, hold, heq⟩ := map_eq_some_iff.mp hlen.symm
    rw [h.numberOfSlots, ← heq, hg.connections old hold]

theorem lt_of_shifted (hg : g.Shaped) (h : Shifted g g' (g.slotsToShift time)) :
    time < g'.windowStart + g'.delaySeconds := by
  have hlt := lt_mul_div_succ (time - g.windowStart - g.delaySeconds) hg.interval
  rw [h.windowStart, h.delaySeconds, slotsToShift]
  omega

/-- And the window has not gone past it. -/
theorem le_of_shifted (hg : g.Shaped) (hpast : g.windowStart + g.delaySeconds ≤ time)
    (h : Shifted g g' (g.slotsToShift time)) : g'.windowStart ≤ time := by
  have hle := mul_div_le (time - g.windowStart - g.delaySeconds) g.slotInterval
  have hwide := hg.wide
  rw [h.windowStart, slotsToShift, mul_add, mul_one]
  omega

variable [DecidableEq K]

theorem setLoad_bare (acc : FlowMeterWithFlow K M) (c : Option (ConcurrentConnection K)) :
    (setLoad acc c).1.bare = acc.bare ∧ (setLoad acc c).2.isSome = c.isSome := by
  unfold setLoad
  split
  · cases c <;> exact ⟨rfl, rfl⟩
  · exact ⟨rfl, rfl⟩

theorem setLoads_bare :
    (setLoads accs c).1.map bare = accs.map bare ∧
      (setLoads accs c).2.isSome = c.isSome := by
  induction accs generalizing c with
  | nil => exact ⟨rfl, rfl⟩
  | cons acc accs ih =>
    obtain ⟨hbare, hsome⟩ := setLoad_bare acc c
    obtain ⟨hrest, hsome'⟩ := ih (setLoad acc c).2
    refine ⟨?_, hsome'.trans hsome⟩
    change (setLoad acc c).1.bare :: (setLoads accs (setLoad acc c).2).1.map _ = _
    rw [hbare, hrest, map_cons]

theorem setConnection_bare :
    (setConnection accs c).1.map bare = accs.map bare ∧
      (setConnection accs c).2.isSome = c.isSome := by
  unfold setConnection
  cases accs with
  | nil => exact ⟨rfl, rfl⟩
  | cons acc accs =>
    dsimp only
    split
    · exact ⟨rfl, rfl⟩
    · exact setLoads_bare _ _

theorem sendValues_bare (values buffer : List (FlowMeterWithFlow K M))
    (c : Option (ConcurrentConnection K)) :
    (sendValues values buffer c).1.map bare =
        (buffer ++ values).map bare ∧
      (sendValues values buffer c).2.isSome = c.isSome := by
  induction values generalizing buffer c with
  | nil =>
    rw [append_nil]
    exact setConnection_bare buffer c
  | cons flow values ih =>
    unfold sendValues
    dsimp only
    split
    · obtain ⟨hbatch, hsome⟩ := setConnection_bare (buffer ++ [flow]) c
      obtain ⟨hrest, hsome'⟩ := ih [] (setConnection (buffer ++ [flow]) c).2
      refine ⟨?_, hsome'.trans hsome⟩
      rw [map_append, hbatch, hrest, nil_append, ← map_append, append_assoc, singleton_append]
    · obtain ⟨hrest, hsome⟩ := ih (buffer ++ [flow]) c
      rw [append_assoc, singleton_append] at hrest
      exact ⟨hrest, hsome⟩

/-- **One flush.** -/
theorem flushFlow_spec (h : i < g.stashs.length) (c : Option (ConcurrentConnection K)) :
    ∃ g' c', g.flushFlow i c = .ok (g', c') ∧ c'.isSome = c.isSome ∧
      g'.connections = g.connections ∧
      Sends g g' (g.stashs.set i .new) (valuesAt (g.stashAt i)) := by
  have hstash : g.stashAt i = g.stashs[i] := getD_eq_getElem _ _ h
  obtain ⟨hv4, hsome4⟩ := sendValues_bare (valuesOf (g.stashs[i].flows false)) [] c
  obtain ⟨hv6, hsome6⟩ := sendValues_bare (valuesOf (g.stashs[i].flows true)) []
    (sendValues (valuesOf (g.stashs[i].flows false)) [] c).2
  have hflush : g.flushFlow i c = .ok
      ({ g with
          stashs := g.stashs.set i .new
          output := g.output ++ (sendValues (valuesOf (g.stashs[i].flows false)) [] c).1 ++
            (sendValues (valuesOf (g.stashs[i].flows true)) []
              (sendValues (valuesOf (g.stashs[i].flows false)) [] c).2).1 },
        (sendValues (valuesOf (g.stashs[i].flows true)) []
          (sendValues (valuesOf (g.stashs[i].flows false)) [] c).2).2) := by
    unfold flushFlow
    rw [swapRemoveBack_append h]
    rfl
  refine ⟨_, _, hflush, hsome6.trans hsome4, rfl, rfl, ⟨_, append_assoc .., ?_⟩, rfl, rfl,
    rfl, rfl, rfl⟩
  rw [map_append, hv4, hv6, hstash, nil_append, nil_append, ← map_append]
  rfl

theorem flushSlots_spec (h : i + count ≤ g.stashs.length) :
    ∃ g', flushSlots count i g = .ok g' ∧ g'.connections = g.connections ∧
      Sends g g' (emptied g.stashs i count) (valuesFrom g i count) := by
  induction count generalizing g i with
  | zero => exact ⟨g, rfl, rfl, Sends.refl g⟩
  | succ count ih =>
    obtain ⟨g₁, c₁, hflush, -, hconn, hsends⟩ :=
      flushFlow_spec (show i < g.stashs.length by omega) none
    obtain ⟨g₂, hrest, hconn', hsends'⟩ := ih (g := g₁) (i := i + 1) (by
      rw [hsends.stashs, length_set]
      omega)
    refine ⟨g₂, ?_, hconn'.trans hconn, ?_⟩
    · rw [flushSlots, hflush]
      exact hrest
    · rw [hsends.stashs, valuesFrom_congr fun j hj => hsends.stashAt_of_lt (by omega)] at hsends'
      exact hsends.trans hsends'

theorem mergeFront_ok (h : 0 < current.length) (time : Nat) (front : ConcurrentConnection K) :
    mergeFront current time front = .ok (current.set 0 (current[0].merge time front)) := by
  unfold mergeFront
  rw [index_ok (getElem?_eq_getElem h), ok_bind, store_ok _ h]

theorem flushConnected_spec (time : Nat)
    (h : i + count ≤ g.stashs.length) (htwo : 2 ≤ current.length) :
    ∃ g' current', flushConnected time count i current g = .ok (g', current') ∧
      current'.length = current.length ∧ g'.connections = g.connections ∧
      Sends g g' (emptied g.stashs i count) (valuesFrom g i count) := by
  induction count generalizing g i current with
  | zero => exact ⟨g, current, rfl, rfl, rfl, Sends.refl g⟩
  | succ count ih =>
    obtain ⟨g₁, c₁, hflush, hsome, hconn, hsends⟩ :=
      flushFlow_spec (show i < g.stashs.length by omega) current.head?
    obtain ⟨front, hfront⟩ : ∃ front, c₁ = some front := by
      apply isSome_iff_exists.mp
      rw [hsome, isSome_head?]
      cases current with
      | nil => simp at htwo
      | cons c cs => exact cons_ne_nil c cs
    have htail : 0 < current.tail.length := by
      rw [length_tail]
      omega
    have hmerge := mergeFront_ok htail time front
    have hlen : (current.tail.set 0 (current.tail[0].merge time front) ++
        [front.clear]).length = current.length := by
      rw [length_append, length_set, length_tail, length_singleton]
      omega
    have hleft : i + 1 + count ≤ g₁.stashs.length := by
      rw [hsends.stashs, length_set]
      omega
    have htwo' : 2 ≤ (current.tail.set 0 (current.tail[0].merge time front) ++
        [front.clear]).length := by
      rw [hlen]
      exact htwo
    obtain ⟨g₂, current₂, hrest, hlen', hconn', hsends'⟩ := ih hleft htwo'
    refine ⟨g₂, current₂, ?_, hlen'.trans hlen, hconn'.trans hconn, ?_⟩
    · rw [flushConnected, hflush, ok_bind]
      dsimp only
      rw [hfront, unwrap_some, ok_bind, hmerge, ok_bind]
      exact hrest
    · rw [hsends.stashs, valuesFrom_congr fun j hj => hsends.stashAt_of_lt (by omega)] at hsends'
      exact hsends.trans hsends'

theorem flushConnected_single (h : 0 < g.stashs.length) (count time : Nat)
    (c : ConcurrentConnection K) :
    flushConnected time (count + 1) 0 [c] g = .error .outOfBounds := by
  obtain ⟨g₁, c₁, hflush, hsome, -, -⟩ := flushFlow_spec h [c].head?
  obtain ⟨front, hfront⟩ : ∃ front, c₁ = some front := isSome_iff_exists.mp hsome
  rw [flushConnected, hflush, ok_bind]
  rw [hfront]
  rfl

/-- **A flush from the front.** -/
theorem flushFront_spec (hg : g.Shaped) (hc : g.Carries) {count : Nat} (h : count ≤ g.stashs.length)
    (time : Nat) :
    ∃ g', g.flushFront time count = .ok g' ∧
      g'.connections.map List.length = g.connections.map List.length ∧
      Sends g g' (emptied g.stashs 0 count) (valuesFrom g 0 count) := by
  unfold flushFront
  cases hconn : g.connections with
  | none =>
    obtain ⟨g', hok, hconn', hsends⟩ := flushSlots_spec (g := g) (i := 0)
      (show 0 + count ≤ g.stashs.length by omega)
    exact ⟨g', hok, by rw [hconn', hconn], hsends⟩
  | some current =>
    have htwo : 2 ≤ current.length := by
      rw [hg.connections current hconn]
      exact hc (by rw [hconn]; rfl)
    obtain ⟨g', current', hok, hlen, -, hsends⟩ :=
      flushConnected_spec (g := { g with connections := none }) (i := 0) time
        (show 0 + count ≤ g.stashs.length by omega) htwo
    refine ⟨{ g' with connections := some current' }, ?_, ?_, ?_⟩
    · dsimp only
      rw [hok]
      rfl
    · simp [hlen]
    · have hvalues : valuesFrom { g with connections := none } 0 count = valuesFrom g 0 count :=
        valuesFrom_congr fun _ _ => rfl
      rw [hvalues] at hsends
      exact ⟨hsends.stashs, hsends.output, hsends.windowStart, hsends.slotInterval,
        hsends.numberOfSlots, hsends.delaySeconds, hsends.dropped⟩

/-- **One round of the loop**, by either path. -/
theorem shiftWindow_spec (hg : g.Shaped) (hc : g.Carries) (time : Nat) :
    ∃ g', g.shiftWindow time = .ok g' ∧ Shifted g g' (g.slotsToShift time) := by
  unfold shiftWindow
  dsimp only
  by_cases hall : g.numberOfSlots ≤ g.slotsToShift time
  · obtain ⟨g', hok, hconn, hsends⟩ := flushFront_spec hg hc (le_refl _) time
    have hlong : g.stashs.length ≤ g.slotsToShift time := hg.slots.trans_le hall
    have hnew : g'.stashs = g.stashs.drop (g.slotsToShift time) ++
        replicate g.stashs.length .new := by
      rw [hsends.stashs, emptied_zero _ le_rfl, drop_length, append_nil, drop_of_length_le hlong,
        nil_append]
    rw [if_pos hall, hok]
    refine ⟨_, rfl, ?_, hsends.slotInterval, hsends.numberOfSlots, hsends.delaySeconds,
      hsends.dropped, ?_, ?_, hconn, ?_⟩
    · rw [hsends.windowStart, hsends.slotInterval]
    · intro i
      change g'.stashs.getD i .new = _
      rw [hnew]
      exact getD_drop_append ..
    · change g'.stashs.length = _
      rw [hsends.stashs, emptied_zero _ le_rfl]
      simp
    · -- the slots past the last one are empty, so nothing is missing
      have hsplit := valuesFrom_add g 0 g.stashs.length (g.slotsToShift time - g.stashs.length)
      have hnothing : valuesFrom g (0 + g.stashs.length)
          (g.slotsToShift time - g.stashs.length) = [] := valuesFrom_of_le (by omega)
      rw [hnothing, append_nil, Nat.add_sub_cancel' (by rw [hg.slots]; exact hall)] at hsplit
      rw [hsplit]
      exact hsends.output
  · have hshort : g.slotsToShift time ≤ g.stashs.length := by
      rw [hg.slots]
      omega
    obtain ⟨g', hok, hconn, hsends⟩ := flushFront_spec hg hc hshort time
    rw [if_neg hall, hok, ok_bind, hsends.stashs, emptied_zero _ hshort, rotateLeft_replicate]
    refine ⟨_, rfl, ?_, hsends.slotInterval, hsends.numberOfSlots, hsends.delaySeconds,
      hsends.dropped, getD_drop_append _ _ _ _, ?_, hconn, hsends.output⟩
    · rw [hsends.windowStart, hsends.slotInterval]
    · change (g.stashs.drop _ ++ replicate _ _).length = _
      rw [length_append, length_drop, length_replicate]
      omega

/-- **A move of the window** to a time that is not before it. -/
theorem moveLoop_spec (hg : g.Shaped) (time : Nat)
    (hc : g.windowStart + g.delaySeconds ≤ time → g.Carries) :
    ∃ g', moveLoop time 2 g = .ok g' ∧
      Shifted g g' (if g.windowStart + g.delaySeconds ≤ time then g.slotsToShift time else 0) := by
  by_cases hpast : g.windowStart + g.delaySeconds ≤ time
  · obtain ⟨g', hok, hshift⟩ := shiftWindow_spec hg (hc hpast) time
    have hinside := lt_of_shifted hg hshift
    refine ⟨g', ?_, by rwa [if_pos hpast]⟩
    rw [moveLoop, if_pos hpast, hok, ok_bind, moveLoop, if_neg (by omega)]
  · refine ⟨g, by rw [moveLoop, if_neg hpast], ?_⟩
    rw [if_neg hpast]
    exact ⟨rfl, rfl, rfl, rfl, rfl, fun _ => rfl, rfl, rfl, [], by simp, rfl⟩

/-- With connections and a single slot, the window cannot move. -/
theorem moveLoop_single (hg : g.Shaped) (hc : ¬ g.Carries)
    (hpast : g.windowStart + g.delaySeconds ≤ time) : moveLoop time 2 g = .error .outOfBounds := by
  unfold Carries at hc
  push Not at hc
  obtain ⟨current, hconn⟩ := isSome_iff_exists.mp hc.1
  have hone : g.numberOfSlots = 1 := by
    have hpos := hg.nonempty
    omega
  have hlen := hg.connections current hconn
  rw [hone] at hlen
  obtain ⟨c, rfl⟩ := length_eq_one_iff.mp hlen
  have hslots : g.stashs.length = 1 := by rw [hg.slots, hone]
  have hall : g.numberOfSlots ≤ g.slotsToShift time := by
    rw [hone, slotsToShift]
    exact le_add_left 1 _
  have hfail := flushConnected_single (g := { g with connections := none })
    (show 0 < g.stashs.length by omega) 0 time c
  rw [moveLoop, if_pos hpast, shiftWindow, if_pos hall, flushFront, hconn, hslots]
  dsimp only
  rw [hfail]
  rfl

theorem flushAllConnected_spec {connections : List (ConcurrentConnection K)}
    (tmp : ConcurrentConnection K) (h : i + count ≤ g.stashs.length)
    (hlen : connections.length = g.stashs.length) :
    ∃ g', flushAllConnected connections count i tmp g = .ok g' ∧
      Sends g g' (emptied g.stashs i count) (valuesFrom g i count) := by
  induction count generalizing g i tmp with
  | zero => exact ⟨g, rfl, Sends.refl g⟩
  | succ count ih =>
    have hi : i < connections.length := by omega
    obtain ⟨g₁, c₁, hflush, hsome, -, hsends⟩ :=
      flushFlow_spec (show i < g.stashs.length by omega) (some (tmp.merge 0 connections[i]))
    obtain ⟨tmp₁, htmp⟩ : ∃ tmp₁, c₁ = some tmp₁ := isSome_iff_exists.mp hsome
    have hlen' : g₁.stashs.length = g.stashs.length := by rw [hsends.stashs, length_set]
    obtain ⟨g₂, hrest, hsends'⟩ := ih (g := g₁) (i := i + 1) tmp₁ (by omega) (by omega)
    refine ⟨g₂, ?_, ?_⟩
    · rw [flushAllConnected, index_ok (getElem?_eq_getElem hi), ok_bind, hflush, ok_bind]
      dsimp only
      rw [htmp, unwrap_some, ok_bind]
      exact hrest
    · rw [hsends.stashs, valuesFrom_congr fun j hj => hsends.stashAt_of_lt (by omega)] at hsends'
      exact hsends.trans hsends'

/-- **A flush of everything.** -/
theorem flushAllFlow_spec (hg : g.Shaped) :
    ∃ g', g.flushAllFlow = .ok g' ∧
      Sends g g' (emptied g.stashs 0 g.stashs.length) (valuesFrom g 0 g.stashs.length) := by
  unfold flushAllFlow
  cases hconn : g.connections with
  | none =>
    obtain ⟨g', hok, -, hsends⟩ := flushSlots_spec (g := g) (i := 0) (le_of_eq (zero_add _))
    exact ⟨g', hok, hsends⟩
  | some connections =>
    exact flushAllConnected_spec _ (le_of_eq (zero_add _))
      ((hg.connections connections hconn).trans hg.slots.symm)

end SubQuadGen

end ZeroTrace.Collector
