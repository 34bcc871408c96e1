import ZeroTrace.QueueRefCounter

/-!
# Who frees the overwrite queue

The store of a side's flag and its loads of the two others are separate steps.
A side that stores last always finds the other flags set; a side that stored
earlier finds them set too if it has not finished its loads by then.  So the
last store is the moment that decides: the counter is freed once for the side
that stores, and once more for every other side that has not returned.
-/

namespace ZeroTrace.RefCounter

open RustExec Runs State Bool
open OverwriteQueue (ClosePc)

/-- The side has stored its flag and not returned yet. -/
def State.waits (s : State) (side : Side) : Nat :=
  if s.dropped side && !s.ended side then 1 else 0

/-- The sides that have stored their flag and not returned yet. -/
def State.busy (s : State) : Nat :=
  s.waits .sender + s.waits .receiver + s.waits .statsHandle

theorem busy_eq (s : State) (side : Side) :
    s.busy = s.waits side + s.waits side.first + s.waits side.second := by
  cases side <;> simp only [busy, Side.first, Side.second] <;> omega

variable {s s' : State} {a : Action} {p : Party}

/-- What a step does to the flags and the frees: nothing; it stores a flag; a
side returns since some flag is not set; or a side frees. -/
theorem step_effect (hok : step s a = .ok s') :
    (s'.dropped = s.dropped ∧ s'.ended = s.ended ∧ s'.frees = s.frees) ∨
    (∃ p, a = .run p ∧ s.places p = .storing ∧
      s'.dropped = (fun side => if side = p.side then true else s.dropped side) ∧
      s'.ended = s.ended ∧ s'.frees = s.frees) ∨
    (s'.dropped = s.dropped ∧ s'.frees = s.frees ∧ ∃ side, s.dropped side = false) ∨
    (∃ p, s.places p = .freeing ∧ s'.dropped = s.dropped ∧
      s'.ended = (fun side => if side = p.side then true else s.ended side) ∧
      s'.frees = s.frees + 1) := by
  cases a with
  | clone i j =>
    cases hok
    left
    split <;> exact ⟨rfl, rfl, rfl⟩
  | use p | drop p =>
    cases hok
    left
    split <;> exact ⟨rfl, rfl, rfl⟩
  | run p =>
    cases hok
    unfold dropStep
    split
    · exact .inl ⟨rfl, rfl, rfl⟩
    next pc hp =>
      left
      cases pc with
      | lockReader =>
        simp only [closeAccess]
        split <;> exact ⟨rfl, rfl, rfl⟩
      | _ => exact ⟨rfl, rfl, rfl⟩
    next hp => exact .inr (.inl ⟨p, rfl, hp, rfl, rfl, rfl⟩)
    next hp =>
      split
      · exact .inl ⟨rfl, rfl, rfl⟩
      next hflag => exact .inr (.inr (.inl ⟨rfl, rfl, p.side.first, by simpa using hflag⟩))
    next hp =>
      split
      · exact .inl ⟨rfl, rfl, rfl⟩
      next hflag => exact .inr (.inr (.inl ⟨rfl, rfl, p.side.second, by simpa using hflag⟩))
    next hp => exact .inr (.inr (.inr ⟨p, hp, rfl, rfl, rfl⟩))
    · exact .inl ⟨rfl, rfl, rfl⟩

/-- An access is marked only when the counter has been freed. -/
theorem step_afterFree (hok : step s a = .ok s') (hfrees : s.frees = 0)
    (hclean : s.afterFree = false) : s'.afterFree = false := by
  have htouch : s.touch.afterFree = false := by simp [touch, hfrees, hclean]
  cases a with
  | use p =>
    cases hok
    split
    · exact htouch
    · exact hclean
  | clone i j =>
    cases hok
    split
    · exact htouch
    · exact hclean
  | drop p =>
    cases hok
    split <;> exact hclean
  | run p =>
    cases hok
    unfold dropStep
    split
    · exact htouch
    next pc hp =>
      cases pc with
      | lockReader =>
        simp only [closeAccess]
        split <;> exact htouch
      | _ => exact htouch
    · exact htouch
    · split <;> exact htouch
    · split <;> exact htouch
    · exact hclean
    · exact hclean

/-- So far the counter is freed at most once, by the side that stored last. -/
structure Good (s : State) : Prop where
  fits : Fits s
  clean : s.afterFree = false
  all : (∀ side, s.dropped side = true) → s.frees + s.busy = 1
  some : ∀ side, s.dropped side = false → s.frees = 0

/-- Two sides have freed the counter or are bound to. -/
structure Bad (s : State) : Prop where
  fits : Fits s
  all : ∀ side, s.dropped side = true
  twice : 2 ≤ s.frees + s.busy

theorem waits_congr {side : Side} (hd : s'.dropped side = s.dropped side)
    (he : s'.ended side = s.ended side) : s'.waits side = s.waits side := by
  simp only [waits, hd, he]

theorem free_balance (h : Fits s) (hp : s.places p = .freeing) (hdropped : s'.dropped = s.dropped)
    (hended : s'.ended = fun side => if side = p.side then true else s.ended side)
    (hfrees : s'.frees = s.frees + 1) : s'.frees + s'.busy = s.frees + s.busy := by
  obtain ⟨hflag, hend⟩ := h.flags p (by rw [hp]; rfl)
  rw [hp] at hflag hend
  have hbefore : s.waits p.side = 1 := by
    simp only [waits, hflag, hend]
    rfl
  have hafter : s'.waits p.side = 0 := by simp [waits, hended]
  have hothers : ∀ side, side ≠ p.side → s'.waits side = s.waits side := by
    intro side hside
    refine waits_congr (by rw [hdropped]) ?_
    rw [hended]
    exact if_neg hside
  rw [busy_eq s p.side, busy_eq s' p.side, hothers _ (first_ne p.side),
    hothers _ (second_ne p.side)]
  omega

/-- **Bad states stay bad.** -/
theorem Bad.step (h : Bad s) (hok : step s a = .ok s') : Bad s' := by
  have hfits := h.fits.step hok
  rcases step_effect hok with ⟨hd, he, hf⟩ | ⟨p, -, hp, -⟩ | ⟨-, -, side, hside⟩ |
    ⟨p, hp, hd, he, hf⟩
  · refine ⟨hfits, fun side => by rw [hd]; exact h.all side, ?_⟩
    have hbusy : s'.busy = s.busy := by simp only [busy, waits, hd, he]
    rw [hf, hbusy]
    exact h.twice
  · have hflag := (h.fits.flags p (by rw [hp]; rfl)).1
    rw [hp, h.all] at hflag
    cases hflag
  · rw [h.all] at hside
    cases hside
  · refine ⟨hfits, fun side => by rw [hd]; exact h.all side, ?_⟩
    rw [free_balance h.fits hp hd he hf]
    exact h.twice

theorem Fits.early_eq_false {s : State} (h : Fits s) (hflag : s.dropped p.side = true) :
    (s.places p).early = false := by
  cases hearly : (s.places p).early with
  | false => rfl
  | true =>
    rw [(h.unled p.side (h.alone hearly)).1] at hflag
    cases hflag

theorem Good.over {s : State} (h : Good s) (hfreed : 0 < s.frees) (p : Party) :
    s.places p = .done ∨ s.places p = .gone ∨ s.places p = .absent := by
  have hall : ∀ side, s.dropped side = true := by
    intro side
    cases hside : s.dropped side with
    | true => rfl
    | false =>
      have hnone := h.some side hside
      omega
  have hended : s.ended p.side = true := by
    have hone := h.all hall
    rw [busy_eq s p.side] at hone
    have hzero : s.waits p.side = 0 := by omega
    simpa [waits, hall] using hzero
  have hearly := h.fits.early_eq_false (hall p.side)
  cases hlate : (s.places p).late with
  | true =>
    rw [(h.fits.flags p hlate).2] at hended
    cases hp : s.places p with
    | done => exact .inl rfl
    | _ =>
      rw [hp] at hended
      cases hended
  | false => exact .inr (neither_early_nor_late hearly hlate)

theorem Good.still (h : Good s) (hfreed : 0 < s.frees) (hok : step s a = .ok s') : s' = s := by
  have hover := h.over hfreed
  have hnot : ∀ p, s.places p ≠ .holding := by
    intro p hp
    rcases hover p with hd | hd | hd <;> rw [hp] at hd <;> cases hd
  cases a with
  | clone i j =>
    have hij : ¬ (s.places (.sender i) = .holding ∧ s.places (.sender j) = .absent) :=
      fun hboth => hnot _ hboth.1
    simp only [RefCounter.step, if_neg hij] at hok
    cases hok
    rfl
  | use p | drop p =>
    simp only [RefCounter.step, if_neg (hnot p)] at hok
    cases hok
    rfl
  | run p =>
    cases hok
    unfold dropStep
    rcases hover p with hd | hd | hd <;> rw [hd]

theorem Good.quiet (h : Good s) (hok : step s a = .ok s') (hdropped : s'.dropped = s.dropped)
    (hall : (∀ side, s.dropped side = true) → s'.frees + s'.busy = s.frees + s.busy)
    (hsome : ∀ side, s.dropped side = false → s'.frees = s.frees) : Good s' := by
  rcases Nat.eq_zero_or_pos s.frees with hzero | hfreed
  · refine ⟨h.fits.step hok, step_afterFree hok hzero h.clean, ?_, ?_⟩
    · intro hdr
      rw [hdropped] at hdr
      rw [hall hdr]
      exact h.all hdr
    · intro side hside
      rw [hdropped] at hside
      rw [hsome side hside]
      exact h.some side hside
  · rw [h.still hfreed hok]
    exact h

theorem store_waits (h : Fits s) (hp : s.places p = .storing)
    (hdropped : s'.dropped = fun side => if side = p.side then true else s.dropped side)
    (hended : s'.ended = s.ended) : s'.busy = 1 + s.waits p.side.first + s.waits p.side.second := by
  obtain ⟨-, hend⟩ := h.flags p (by rw [hp]; rfl)
  rw [hp] at hend
  have hself : s'.waits p.side = 1 := by
    simp only [waits, hdropped, hended, hend, if_true]
    rfl
  have hothers : ∀ side, side ≠ p.side → s'.waits side = s.waits side := by
    intro side hside
    refine waits_congr ?_ (by rw [hended])
    rw [hdropped]
    exact if_neg hside
  rw [busy_eq s' p.side, hself, hothers _ (first_ne p.side), hothers _ (second_ne p.side)]

theorem store_not_all {s : State} (h : Fits s) (hp : s.places p = .storing) :
    s.dropped p.side = false := by
  rw [(h.flags p (by rw [hp]; rfl)).1, hp]
  rfl

/-- **A step keeps a good state good** unless the last flag is stored while
another side has not returned. -/
theorem Good.step (h : Good s) (halone : lastAlone s a = true) (hok : step s a = .ok s') :
    Good s' := by
  rcases step_effect hok with ⟨hd, he, hf⟩ | ⟨p, rfl, hp, hd, he, hf⟩ | ⟨hd, hf, side, hside⟩ |
    ⟨p, hp, hd, he, hf⟩
  · refine h.quiet hok hd (fun _ => ?_) fun _ _ => hf
    have hbusy : s'.busy = s.busy := by simp only [busy, waits, hd, he]
    rw [hf, hbusy]
  · have hzero := h.some _ (store_not_all h.fits hp)
    refine ⟨h.fits.step hok, step_afterFree hok hzero h.clean, ?_, ?_⟩
    · intro hall
      have hfirst : s.dropped p.side.first = true := by
        have hx := hall p.side.first
        rw [hd] at hx
        simpa [first_ne] using hx
      have hsecond : s.dropped p.side.second = true := by
        have hx := hall p.side.second
        rw [hd] at hx
        simpa [second_ne] using hx
      have hboth : s.ended p.side.first = true ∧ s.ended p.side.second = true := by
        simpa [lastAlone, hp, hfirst, hsecond] using halone
      rw [store_waits h.fits hp hd he, hf, hzero]
      simp [waits, hboth.1, hboth.2]
    · intro _ _
      rw [hf]
      exact hzero
  · refine h.quiet hok hd (fun hall => ?_) fun _ _ => hf
    rw [hall] at hside
    cases hside
  · refine h.quiet hok hd (fun _ => free_balance h.fits hp hd he hf) ?_
    intro side hside
    rw [h.fits.freeing p hp side] at hside
    cases hside

/-- The last flag stored while another side has not returned: two frees are
bound to come. -/
theorem Good.spoil (h : Good s) (halone : lastAlone s a ≠ true)
    (hok : RefCounter.step s a = .ok s') :
    Bad s' := by
  cases a with
  | run p =>
    have hfalse : lastAlone s (.run p) = false := by simpa using halone
    simp only [lastAlone, or_eq_false_iff, not_eq_false', and_eq_true,
      decide_eq_true_eq, and_eq_false_iff] at hfalse
    obtain ⟨⟨⟨hp, hfirst⟩, hsecond⟩, hend⟩ := hfalse
    have hs' : s' = { s.touch.goto p .loadingFirst with
        dropped := fun side => if side = p.side then true else s.dropped side } := by
      simp only [RefCounter.step, dropStep, hp] at hok
      cases hok
      rfl
    have hd : s'.dropped = fun side => if side = p.side then true else s.dropped side := by rw [hs']
    have he : s'.ended = s.ended := by
      rw [hs']
      rfl
    refine ⟨h.fits.step hok, ?_, ?_⟩
    · intro side
      rw [hd]
      rcases side_cases p.side side with rfl | rfl | rfl
      · exact if_pos rfl
      · simpa [first_ne] using hfirst
      · simpa [second_ne] using hsecond
    · rw [store_waits h.fits hp hd he]
      rcases hend with hone | htwo
      · have hwaits : s.waits p.side.first = 1 := by simp [waits, hfirst, hone]
        omega
      · have hwaits : s.waits p.side.second = 1 := by simp [waits, hsecond, htwo]
        omega
  | _ => exact (halone rfl).elim

/-! ## Whole runs -/

theorem good_initial : Good {} where
  fits := fits_initial
  clean := rfl
  all := fun hall => by cases hall .sender
  some := fun _ _ => rfl

theorem AllDropped.settled {s : State} (h : Fits s) (hover : AllDropped s) :
    (∀ side, s.dropped side = true) ∧ s.busy = 0 := by
  obtain ⟨hrecv, hstats, hsenders⟩ := hover
  have hled : ∀ p, s.places p = .done →
      s.dropped p.side = true ∧ s.ended p.side = true := by
    intro p hp
    have hflags := h.flags p (by rw [hp]; rfl)
    rw [hp] at hflags
    exact hflags
  obtain ⟨i, hi⟩ : ∃ i, s.places (.sender i) = .done := by
    obtain ⟨live, hcard, hlive⟩ := h.counted
    have hempty : live = ∅ := by
      refine Finset.eq_empty_of_forall_notMem fun j hj => ?_
      rw [hlive j] at hj
      rcases hsenders j with hp | hp | hp <;> rw [hp] at hj <;> cases hj
    rw [hempty] at hcard
    obtain ⟨i, hi⟩ := h.zero_late hcard.symm
    refine ⟨i, ?_⟩
    rcases hsenders i with hp | hp | hp
    · rw [hp] at hi
      cases hi
    · rw [hp] at hi
      cases hi
    · exact hp
  have hside : ∀ side, s.dropped side = true ∧ s.ended side = true := by
    intro side
    cases side with
    | sender => exact hled _ hi
    | receiver => exact hled _ hrecv
    | statsHandle => exact hled _ hstats
  refine ⟨fun side => (hside side).1, ?_⟩
  simp [busy, waits, (hside _).1, (hside _).2]

/-- **The counter is freed exactly once, and not used afterwards, exactly when
the side that stores its flag last finds the two other drops returned.** -/
theorem freed_once_iff {acts : List Action} {s : State} (hrun : run step {} acts = .ok s)
    (hover : AllDropped s) :
    FreedOnce s ↔ StepsObey step (fun s a => lastAlone s a = true) {} acts := by
  rcases run_dichotomy (fun _ _ _ hs ha hok => hs.step ha hok)
    (fun _ _ _ hs ha hok => hs.spoil ha hok) (fun _ _ _ hs hok => hs.step hok) good_initial
    hrun with ⟨hobey, hgood⟩ | ⟨hnot, hbad⟩
  · obtain ⟨hall, hbusy⟩ := hover.settled hgood.fits
    have hone := hgood.all hall
    refine iff_of_true ⟨by omega, hgood.clean⟩ hobey
  · obtain ⟨-, hbusy⟩ := hover.settled hbad.fits
    have htwo := hbad.twice
    refine iff_of_false (fun honce => ?_) hnot
    have hone := honce.1
    omega

theorem allDropped_of_single {s : State} (h : Fits s) (hsender : s.places (.sender 0) = .done)
    (hrecv : s.places .receiver = .done) (hstats : s.places .statsHandle = .done) :
    AllDropped s := by
  refine ⟨hrecv, hstats, fun i => ?_⟩
  have hflag : s.dropped (Party.sender i).side = true := by
    change s.dropped (Party.sender 0).side = true
    rw [(h.flags (.sender 0) (by rw [hsender]; rfl)).1, hsender]
    rfl
  have hearly := h.early_eq_false hflag
  cases hlate : (s.places (.sender i)).late with
  | true =>
    have heq := h.unique (.sender i) (.sender 0) rfl hlate (by rw [hsender]; rfl)
    rw [heq]
    exact .inr (.inr hsender)
  | false =>
    rcases neither_early_nor_late hearly hlate with hp | hp
    · exact .inr (.inl hp)
    · exact .inl hp

theorem fits_of_run {acts : List Action} {s : State} (hrun : run step {} acts = .ok s) : Fits s :=
  run_induction (fun _ _ _ hs _ hok => hs.step hok) fits_initial (fun _ _ => trivial) hrun

/-- The places at which the drops have returned. -/
def allDone (s : State) : Bool :=
  decide (s.places (.sender 0) = .done) && decide (s.places .receiver = .done) &&
    decide (s.places .statsHandle = .done)

def upToStore (p : Party) : Nat → List Action
  | n => .drop p :: List.replicate n (.run p)

/-- The three sides are dropped one after the other. -/
def orderly : List Action :=
  upToStore (.sender 0) 8 ++ upToStore .receiver 8 ++ upToStore .statsHandle 4

theorem freed_once_orderly :
    ∃ s, run step {} orderly = .ok s ∧ AllDropped s ∧ FreedOnce s := by
  obtain ⟨s, hrun, htest⟩ := eq_ok_of_delivers
    (by decide +kernel : delivers (run step {} orderly) allDone = true)
  simp only [allDone, and_eq_true, decide_eq_true_eq] at htest
  have hover := allDropped_of_single (fits_of_run hrun) htest.1.1 htest.1.2 htest.2
  refine ⟨s, hrun, hover, (freed_once_iff hrun hover).mpr ?_⟩
  exact stepsObey_of_check (fun _ _ h => h) (by decide +kernel)

/-- All three sides store their flags before any of them loads another's. -/
def crossed : List Action :=
  upToStore (.sender 0) 6 ++ upToStore .receiver 5 ++ upToStore .statsHandle 1 ++
    List.replicate 3 (.run (.sender 0)) ++ List.replicate 3 (.run .receiver) ++
    List.replicate 3 (.run .statsHandle)

theorem freed_three_times :
    ∃ s, run step {} crossed = .ok s ∧ AllDropped s ∧ s.frees = 3 ∧ s.afterFree = true := by
  obtain ⟨s, hrun, htest⟩ := eq_ok_of_delivers
    (by decide +kernel : delivers (run step {} crossed)
      (fun s => allDone s && decide (s.frees = 3) && s.afterFree) = true)
  simp only [allDone, and_eq_true, decide_eq_true_eq] at htest
  obtain ⟨⟨⟨⟨hsender, hrecv⟩, hstats⟩, hfrees⟩, hafter⟩ := htest
  exact ⟨s, hrun, allDropped_of_single (fits_of_run hrun) hsender hrecv hstats, hfrees, hafter⟩

end ZeroTrace.RefCounter
