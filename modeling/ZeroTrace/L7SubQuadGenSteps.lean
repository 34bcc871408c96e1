import ZeroTrace.L7SubQuadGen
import ZeroTrace.SubQuadGenSteps

/-!
# What the generator of the application layer does to its slots

As in the generator of the layers below, a move of the window comes to the same by both
paths of the source: slot `i` afterwards is slot `i + shift` before, empty past the end.
Of what was handed on nothing is lost, neither by a move nor by the batches in which
meters of closed flows are sent.
-/

namespace ZeroTrace.Collector.L7

open RustExec Tables List List.Perm L7.QuadrupleStash

namespace SubQuadGen

variable {g : SubQuadGen} {l7Stats : L7Stats} {time : Nat}

/-- A slot by its index, empty past the end. -/
def stashAt (g : SubQuadGen) (i : Nat) : QuadrupleStash := g.stashs.getD i .new

/-- All that was handed on: what was sent, what is about to be, and what waits for the
window. -/
def handedOn (g : SubQuadGen) : List (AppMeterWithFlow AppMeter) :=
  g.output ++ g.closedAppMeters ++ g.stashs.flatMap QuadrupleStash.meters

/-- The deque is as long as there are slots, and they have a length. -/
structure Shaped (g : SubQuadGen) : Prop where
  slots : g.stashs.length = g.numberOfSlots
  interval : 0 < g.slotInterval

theorem flushSlots_eq (pre mid post : List QuadrupleStash) (h : g.stashs = pre ++ mid ++ post) :
    flushSlots mid.length pre.length g =
      .ok { g with
        stashs := pre ++ replicate mid.length .new ++ post
        output := g.output ++ mid.flatMap meters } := by
  induction mid generalizing g pre with
  | nil =>
    rw [append_nil] at h
    simp [flushSlots, ← h]
  | cons stash mid ih =>
    have hlt : pre.length < g.stashs.length := by
      rw [h]
      simp
    have hget : g.stashs[pre.length] = stash := by simp [h]
    have hset : g.stashs.set pre.length .new = (pre ++ [.new]) ++ mid ++ post := by simp [h]
    have hflush : g.flushStats pre.length =
        .ok { g with
          stashs := (pre ++ [.new]) ++ mid ++ post, output := g.output ++ stash.meters } := by
      rw [flushStats, swapRemoveBack_append hlt, hget, hset]
      rfl
    have hrest := ih (g := { g with
      stashs := (pre ++ [.new]) ++ mid ++ post, output := g.output ++ stash.meters })
      (pre ++ [.new]) rfl
    rw [length_append, length_singleton] at hrest
    rw [length_cons, flushSlots, hflush, ok_bind, hrest]
    simp [replicate_succ]

/-- The window has left `shift` slots behind; nothing of what was handed on is lost. -/
structure Shifted (g g' : SubQuadGen) (shift : Nat) : Prop where
  windowStart : g'.windowStart = g.windowStart + g.slotInterval * shift
  slotInterval : g'.slotInterval = g.slotInterval
  numberOfSlots : g'.numberOfSlots = g.numberOfSlots
  stashs : g'.stashs.length = g.stashs.length
  stashAt : ∀ i, g'.stashAt i = g.stashAt (i + shift)
  handedOn : g'.handedOn.Perm g.handedOn

theorem Shifted.refl (g : SubQuadGen) : Shifted g g 0 :=
  ⟨rfl, rfl, rfl, rfl, fun _ => rfl, .refl _⟩

theorem Shifted.shaped {g g' : SubQuadGen} {shift : Nat} (h : Shifted g g' shift) (hg : g.Shaped) :
    g'.Shaped :=
  ⟨by rw [h.stashs, h.numberOfSlots, hg.slots], by rw [h.slotInterval]; exact hg.interval⟩

theorem flatMap_replicate_new (n : Nat) :
    (replicate n QuadrupleStash.new).flatMap QuadrupleStash.meters = [] := by
  rw [flatMap_eq_nil_iff]
  intro stash hstash
  rw [eq_of_mem_replicate hstash]
  rfl

theorem handedOn_shift (output closed : List (AppMeterWithFlow AppMeter))
    (stashs : List QuadrupleStash) (k n : Nat) :
    ((output ++ (stashs.take k).flatMap meters) ++ closed ++
        (stashs.drop k ++ replicate n QuadrupleStash.new).flatMap QuadrupleStash.meters).Perm
      (output ++ closed ++ stashs.flatMap meters) := by
  have hsplit : stashs.flatMap meters =
      (stashs.take k).flatMap meters ++
        (stashs.drop k).flatMap meters := by
    rw [← flatMap_append, take_append_drop]
  rw [flatMap_append, flatMap_replicate_new, append_nil, hsplit, ← append_assoc]
  refine append_right _ ?_
  rw [append_assoc, append_assoc]
  exact append_left _ perm_append_comm

/-- **One round of the loop**, by either path. -/
theorem shiftWindow_spec (hg : g.Shaped) (time : Nat) :
    ∃ g', g.shiftWindow time = .ok g' ∧ g'.delaySeconds = g.delaySeconds ∧
      Shifted g g' (g.slotsToShift time) := by
  unfold shiftWindow
  dsimp only
  by_cases hall : g.numberOfSlots ≤ g.slotsToShift time
  · have hflush := flushSlots_eq (g := g) [] g.stashs [] (by simp)
    have hlong : g.stashs.length ≤ g.slotsToShift time := by rw [hg.slots]; exact hall
    rw [if_pos hall]
    rw [length_nil] at hflush
    rw [hflush]
    refine ⟨_, rfl, rfl, rfl, rfl, rfl, by simp, fun i => ?_, ?_⟩
    · have hget := getD_drop_append g.stashs .new (g.slotsToShift time) g.stashs.length i
      rw [drop_of_length_le hlong, nil_append] at hget
      simpa [stashAt] using hget
    · have hperm := handedOn_shift g.output g.closedAppMeters g.stashs g.stashs.length
        g.stashs.length
      simpa [handedOn] using hperm
  · have hshort : g.slotsToShift time ≤ g.stashs.length := by
      rw [hg.slots]
      omega
    have hlen : (g.stashs.take (g.slotsToShift time)).length = g.slotsToShift time :=
      length_take_of_le (by omega)
    have hflush := flushSlots_eq (g := g) [] (g.stashs.take (g.slotsToShift time))
      (g.stashs.drop (g.slotsToShift time)) (by simp)
    rw [hlen, length_nil, nil_append] at hflush
    rw [if_neg hall, hflush, ok_bind, rotateLeft_replicate]
    refine ⟨_, rfl, rfl, rfl, rfl, rfl, ?_, getD_drop_append _ _ _ _, handedOn_shift _ _ _ _ _⟩
    change (g.stashs.drop _ ++ replicate _ _).length = _
    rw [length_append, length_drop, length_replicate]
    omega

/-- **A move of the window**; the loop is done after one round. -/
theorem moveWindow_spec (hg : g.Shaped) (time : Nat) :
    ∃ inside g' shift, g.moveWindow time = .ok (inside, g') ∧ Shifted g g' shift := by
  unfold moveWindow
  split_ifs
  · exact ⟨false, _, 0, rfl, rfl, rfl, rfl, rfl, fun _ => rfl, .refl _⟩
  by_cases hpast : g.windowStart + g.delaySeconds ≤ time
  · obtain ⟨g', hok, hdelay, hshift⟩ := shiftWindow_spec hg time
    have hinside : ¬ g'.windowStart + g'.delaySeconds ≤ time := by
      have hlt := Nat.lt_mul_div_succ (time - g.windowStart - g.delaySeconds) hg.interval
      rw [hshift.windowStart, hdelay, slotsToShift]
      omega
    refine ⟨true, g', _, ?_, hshift⟩
    rw [moveLoop, if_pos hpast, hok, ok_bind, moveLoop, if_neg hinside]
    rfl
  · exact ⟨true, g, 0, by rw [moveLoop, if_neg hpast]; rfl, .refl g⟩

theorem slotFor_ok (h : 0 < g.stashs.length) (time : Nat) :
    ∃ slot, g.slotFor time = .ok slot ∧ slot < g.stashs.length := by
  refine ⟨_, by rw [slotFor, checkedSub_ok h]; rfl, ?_⟩
  omega

theorem timeSpanFor_ok (h : l7Stats.timeSpan.toNat ≤ time) :
    ∃ timeSpan, g.timeSpanFor l7Stats time = .ok timeSpan := by
  have hle : (time - l7Stats.timeSpan.toNat) / g.slotInterval ≤ time / g.slotInterval :=
    Nat.div_le_div_right (Nat.sub_le _ _)
  exact ⟨_, by rw [timeSpanFor, checkedSub_ok h, ok_bind, checkedSub_ok hle]; rfl⟩

theorem timeSpanFor_fails (h : ¬ l7Stats.timeSpan.toNat ≤ time) :
    g.timeSpanFor l7Stats time = .error .overflow := by
  rw [timeSpanFor, checkedSub, if_neg h]
  rfl

theorem foldl_pushClosedAppMeter (meters : List (AppMeterWithFlow AppMeter)) (g : SubQuadGen) :
    ∃ closed output, meters.foldl pushClosedAppMeter g =
        { g with closedAppMeters := closed, output := output } ∧
      output ++ closed = g.output ++ g.closedAppMeters ++ meters := by
  induction meters generalizing g with
  | nil => exact ⟨g.closedAppMeters, g.output, rfl, (append_nil _).symm⟩
  | cons m meters ih =>
    rw [foldl_cons]
    by_cases hfull : queueBatchSize ≤ (g.closedAppMeters ++ [m]).length
    · rw [pushClosedAppMeter, if_pos hfull]
      obtain ⟨closed, output, hfold, happend⟩ :=
        ih { g with closedAppMeters := [], output := g.output ++ (g.closedAppMeters ++ [m]) }
      refine ⟨closed, output, hfold, ?_⟩
      simpa using happend
    · rw [pushClosedAppMeter, if_neg hfull]
      obtain ⟨closed, output, hfold, happend⟩ :=
        ih { g with closedAppMeters := g.closedAppMeters ++ [m] }
      refine ⟨closed, output, hfold, ?_⟩
      simpa using happend

/-- One slot has other waiting meters, and `meters` were handed on. -/
structure Stored (g g' : SubQuadGen) (slot : Nat)
    (l7Stats : AList fun _ : BitVec 64 => List AppMeterWithL7Protocol)
    (meters : List (AppMeterWithFlow AppMeter)) : Prop where
  windowStart : g'.windowStart = g.windowStart
  slotInterval : g'.slotInterval = g.slotInterval
  numberOfSlots : g'.numberOfSlots = g.numberOfSlots
  stashs : g'.stashs.length = g.stashs.length
  l7Stats : ∀ i, (g'.stashAt i).l7Stats = if i = slot then l7Stats else (g.stashAt i).l7Stats
  handedOn : g'.handedOn.Perm (g.handedOn ++ meters)

variable {slot : Nat} {stashs : List QuadrupleStash}

theorem l7Stats_set (h : slot < stashs.length) (stash : QuadrupleStash) (i : Nat) :
    ((stashs.set slot stash).getD i .new).l7Stats =
      if i = slot then stash.l7Stats else (stashs.getD i .new).l7Stats := by
  rw [getD_eq_getElem?_getD, getD_eq_getElem?_getD]
  split_ifs with hi
  · rw [hi, getElem?_set_self h, Option.getD_some]
  · rw [getElem?_set_ne (Ne.symm hi)]

theorem flatMap_set_perm {stash old : QuadrupleStash} {meters : List (AppMeterWithFlow AppMeter)}
    (hget : stashs[slot]? = some old) (hmeters : stash.meters = old.meters ++ meters) :
    ((stashs.set slot stash).flatMap QuadrupleStash.meters).Perm
      (stashs.flatMap QuadrupleStash.meters ++ meters) := by
  obtain ⟨rest, hold, hset⟩ := exists_flatMap_set QuadrupleStash.meters hget
  refine (hset stash).trans (.trans ?_ (append_right meters hold).symm)
  rw [hmeters, append_assoc, append_assoc]
  exact append_left _ perm_append_comm

theorem stored_of_set {old : QuadrupleStash} (hget : g.stashs[slot]? = some old)
    (stash : QuadrupleStash) (hmeters : stash.meters = old.meters) :
    Stored g { g with stashs := g.stashs.set slot stash } slot stash.l7Stats [] := by
  have hlt : slot < g.stashs.length := (List.getElem?_eq_some_iff.mp hget).1
  refine ⟨rfl, rfl, rfl, length_set, l7Stats_set hlt stash, ?_⟩
  have hperm := flatMap_set_perm hget (by rw [hmeters, append_nil])
  rw [append_nil] at hperm ⊢
  exact append_left _ hperm

theorem keep_spec {stash : QuadrupleStash} (hget : g.stashs[slot]? = some stash)
    (flowId : BitVec 64) (meters : List AppMeterWithL7Protocol) :
    ∃ g', g.keep slot stash flowId meters = .ok g' ∧
      Stored g g' slot (stash.l7Stats.insert flowId meters) [] := by
  have hlt : slot < g.stashs.length := (List.getElem?_eq_some_iff.mp hget).1
  have hstored := stored_of_set hget
    { stash with l7Stats := stash.l7Stats.insert flowId meters } rfl
  exact ⟨_, by rw [keep, store_ok _ hlt]; rfl, hstored⟩

theorem handOn_spec {old stash : QuadrupleStash} (hget : g.stashs[slot]? = some old)
    (hmeters : stash.meters = old.meters) (closeType : CloseType)
    (meters : List (AppMeterWithFlow AppMeter)) :
    ∃ g', g.handOn slot stash closeType meters = .ok g' ∧
      Stored g g' slot stash.l7Stats meters := by
  have hlt : slot < g.stashs.length := (List.getElem?_eq_some_iff.mp hget).1
  unfold handOn
  split_ifs
  · rw [store_ok _ hlt, ok_bind]
    obtain ⟨closed, output, hfold, happend⟩ :=
      foldl_pushClosedAppMeter meters { g with stashs := g.stashs.set slot stash }
    have hset := stored_of_set hget stash hmeters
    rw [hfold]
    refine ⟨_, rfl, rfl, rfl, rfl, hset.stashs, hset.l7Stats, ?_⟩
    have hflat := flatMap_set_perm hget (by rw [hmeters, append_nil])
    rw [append_nil] at hflat
    change (output ++ closed ++ _).Perm _
    rw [happend, handedOn, append_assoc (g.output ++ g.closedAppMeters),
      append_assoc (g.output ++ g.closedAppMeters)]
    exact append_left _ (perm_append_comm.trans (append_right _ hflat))
  · rw [store_ok _ hlt, ok_bind]
    refine ⟨_, rfl, rfl, rfl, rfl, length_set, l7Stats_set hlt _, ?_⟩
    have hmore : ({ stash with meters := stash.meters ++ meters } : QuadrupleStash).meters =
        old.meters ++ meters := congrArg (· ++ meters) hmeters
    have hflat := flatMap_set_perm hget hmore
    rw [handedOn, handedOn, append_assoc (g.output ++ g.closedAppMeters)]
    exact append_left _ hflat

end SubQuadGen

end ZeroTrace.Collector.L7
