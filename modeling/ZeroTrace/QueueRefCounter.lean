import Mathlib.Data.Finset.Card
import ZeroTrace.OverwriteQueue

/-!
# The owners of the overwrite queue

The queue lives in a `RefCounter` that the senders, the receiver and the stats
handle share.  Each of the three sides, when it is dropped for good, stores a
flag of its own and then loads the flags of the two others; the one that finds
them both set frees the `RefCounter`.

`Fits` says how the places of the handles fit the count of the senders and the
flags.  Only the last sender comes to the part of the drop that stores a flag,
so on each side there is one handle at most that leads it.
-/

namespace ZeroTrace.RefCounter

open RustExec Finset
open OverwriteQueue (ClosePc)

/-- The three owners of the `RefCounter`. -/
inductive Side where
  | sender
  | receiver
  | statsHandle
  deriving DecidableEq

/-- The handles. -/
inductive Party where
  | sender (i : Nat)
  | receiver
  | statsHandle
  deriving DecidableEq

def Party.side : Party → Side
  | .sender _ => .sender
  | .receiver => .receiver
  | .statsHandle => .statsHandle

def Side.first : Side → Side
  | .sender => .receiver
  | .receiver => .sender
  | .statsHandle => .sender

def Side.second : Side → Side
  | .sender => .statsHandle
  | .receiver => .statsHandle
  | .statsHandle => .receiver

/-- Where a handle is: not cloned yet, in use, or in its `drop`. -/
inductive Place where
  | absent
  | holding
  | counting
  | gone
  | closing (pc : ClosePc)
  | storing
  | loadingFirst
  | loadingSecond
  | freeing
  | done
  deriving DecidableEq

/-- The `RefCounter` and its handles.  `dropped` are the three flags.  The
history says which sides have returned from their drop, how often the counter
was freed, and whether it was accessed after that. -/
structure State where
  senders : Nat := 1
  dropped : Side → Bool := fun _ => false
  readerLock : Option Party := none
  terminated : Bool := false
  places : Party → Place := fun p => if p.side = .sender ∧ p ≠ .sender 0 then .absent else .holding
  -- history
  ended : Side → Bool := fun _ => false
  frees : Nat := 0
  afterFree : Bool := false

variable (s : State) (side : Side)

/-- An access to the `RefCounter`. -/
def State.touch : State :=
  { s with afterFree := s.afterFree || decide (0 < s.frees) }

def State.goto (p : Party) (place : Place) : State :=
  { s with places := fun p' => if p' = p then place else s.places p' }

/-- The drop of `p` returns. -/
def State.finish (p : Party) : State :=
  { s.goto p .done with ended := fun side => if side = p.side then true else s.ended side }

/-- One access of `close`. -/
def closeAccess (p : Party) : ClosePc → State
  | .lockReader =>
    if s.readerLock = none then
      { s.goto p (.closing .setTerminated) with readerLock := some p }
    else
      s
  | .setTerminated => { s.goto p (.closing .notify) with terminated := true }
  | .notify => s.goto p (.closing .unlockReader)
  | .unlockReader => { s.goto p .storing with readerLock := none }
  | .closed => s

/-- One step of the drop of `p`. -/
def dropStep (p : Party) : State :=
  match s.places p with
  | .counting =>
    { s.touch.goto p (if s.senders = 1 then .closing .lockReader else .gone) with
      senders := s.senders - 1 }
  | .closing pc => closeAccess s.touch p pc
  | .storing =>
    { s.touch.goto p .loadingFirst with
      dropped := fun side => if side = p.side then true else s.dropped side }
  | .loadingFirst =>
    if s.dropped p.side.first then s.touch.goto p .loadingSecond else s.touch.finish p
  | .loadingSecond =>
    if s.dropped p.side.second then s.touch.goto p .freeing else s.touch.finish p
  | .freeing => { s.finish p with frees := s.frees + 1 }
  | _ => s

def Party.dropPlace : Party → Place
  | .sender _ => .counting
  | .receiver => .closing .lockReader
  | .statsHandle => .storing

/-- What the threads can do: use a handle, clone a sender, begin a drop, go on
with it. -/
inductive Action where
  | use (p : Party)
  | clone (i j : Nat)
  | drop (p : Party)
  | run (p : Party)
  deriving DecidableEq

def step : Action → Exec State
  | .use p => .ok (if s.places p = .holding then s.touch else s)
  | .clone i j =>
    .ok (if s.places (.sender i) = .holding ∧ s.places (.sender j) = .absent then
      { s.touch.goto (.sender j) .holding with senders := s.senders + 1 }
    else s)
  | .drop p => .ok (if s.places p = .holding then s.goto p p.dropPlace else s)
  | .run p => .ok (dropStep s p)

/-- All handles have been dropped and every drop has returned. -/
def AllDropped : Prop :=
  s.places .receiver = .done ∧ s.places .statsHandle = .done ∧
    ∀ i, s.places (.sender i) = .absent ∨ s.places (.sender i) = .gone ∨
      s.places (.sender i) = .done

def FreedOnce : Prop := s.frees = 1 ∧ s.afterFree = false

/-- The side that stores its flag last finds the two other drops returned. -/
def lastAlone : Action → Bool
  | .run p =>
    !(decide (s.places p = .storing) && s.dropped p.side.first && s.dropped p.side.second) ||
      (s.ended p.side.first && s.ended p.side.second)
  | _ => true

/-! ## Places and flags -/

def Place.early : Place → Bool
  | .holding => true
  | .counting => true
  | _ => false

/-- In the part of the drop that only the last handle of a side comes to. -/
def Place.late : Place → Bool
  | .closing _ => true
  | .storing => true
  | .loadingFirst => true
  | .loadingSecond => true
  | .freeing => true
  | .done => true
  | _ => false

/-- Past the store of the flag. -/
def Place.stored : Place → Bool
  | .loadingFirst => true
  | .loadingSecond => true
  | .freeing => true
  | .done => true
  | _ => false

def Place.isDone : Place → Bool
  | .done => true
  | _ => false

/-- How the places of the handles fit the counter and the flags. -/
structure Fits (s : State) : Prop where
  unique : ∀ p q, p.side = q.side → (s.places p).late = true → (s.places q).late = true → p = q
  flags : ∀ p, (s.places p).late = true →
    s.dropped p.side = (s.places p).stored ∧ s.ended p.side = (s.places p).isDone
  unled : ∀ side, (∀ p, p.side = side → (s.places p).late = false) →
    s.dropped side = false ∧ s.ended side = false
  first : ∀ p, s.places p = .loadingSecond → s.dropped p.side.first = true
  freeing : ∀ p, s.places p = .freeing → ∀ side, s.dropped side = true
  counted : ∃ live : Finset Nat, live.card = s.senders ∧
    ∀ i, i ∈ live ↔ (s.places (.sender i)).early = true
  late_zero : ∀ i, (s.places (.sender i)).late = true → s.senders = 0
  zero_late : s.senders = 0 → ∃ i, (s.places (.sender i)).late = true
  lone : ∀ p, p.side ≠ .sender → (s.places p).early = false → (s.places p).late = true
  uncounted : ∀ p, p.side ≠ .sender → s.places p ≠ .counting

theorem side_cases (side x : Side) : x = side ∨ x = side.first ∨ x = side.second := by
  cases side <;> cases x <;> simp [Side.first, Side.second]

theorem first_ne : side.first ≠ side := by
  cases side <;> simp [Side.first]

theorem second_ne : side.second ≠ side := by
  cases side <;> simp [Side.second]

@[simp] theorem goto_self (p : Party) (place : Place) : (s.goto p place).places p = place := by
  simp [State.goto]

theorem goto_other {p q : Party} (place : Place) (h : q ≠ p) :
    (s.goto p place).places q = s.places q := by
  simp [State.goto, h]

variable {s} {p : Party} {s' : State} {place : Place} {old : Place} {i : Nat}

theorem places_goto (h : s'.places = (s.goto p place).places) :
    s'.places p = place ∧ ∀ q, q ≠ p → s'.places q = s.places q := by
  refine ⟨by rw [h, goto_self], fun q hq => ?_⟩
  rw [h, goto_other s place hq]

theorem places_keep {β : Type} (f : Place → β) (h : s'.places = (s.goto p place).places)
    (hf : f place = f (s.places p)) (q : Party) : f (s'.places q) = f (s.places q) := by
  obtain ⟨hself, hother⟩ := places_goto h
  by_cases hq : q = p
  · rw [hq, hself, hf]
  · rw [hother q hq]

theorem sender_ne (h : p.side ≠ .sender) (i : Nat) : .sender i ≠ p := by
  rintro rfl
  exact h rfl

theorem sender_side (h : p.side = .sender) : ∃ i, p = .sender i := by
  cases p with
  | sender i => exact ⟨i, rfl⟩
  | _ => cases h

theorem early_not_late (h : place.early = true) : place.late = false := by
  cases place <;> first | rfl | cases h

theorem late_not_early (h : place.late = true) : place.early = false := by
  cases place <;> first | rfl | cases h

theorem neither_early_nor_late (hearly : place.early = false) (hlate : place.late = false) :
    place = .gone ∨ place = .absent := by
  cases place <;> simp_all [Place.early, Place.late]

section

variable (h : Fits s)

include h

theorem Fits.move (place : Place) (hp : (s.places p).late = true) (hlate : place.late = true)
    (hplaces : s'.places = (s.goto p place).places) (hsenders : s'.senders = s.senders)
    (hdropped : ∀ x, s'.dropped x = if x = p.side then place.stored else s.dropped x)
    (hended : ∀ x, s'.ended x = if x = p.side then place.isDone else s.ended x)
    (hstored : (s.places p).stored = true → place.stored = true)
    (hfirst : place = .loadingSecond → s'.dropped p.side.first = true)
    (hfree : place = .freeing → ∀ x, s'.dropped x = true) : Fits s' := by
  have hmono : ∀ x, s.dropped x = true → s'.dropped x = true := by
    intro x hx
    rw [hdropped]
    split
    next heq =>
      rw [heq, (h.flags p hp).1] at hx
      exact hstored hx
    · exact hx
  obtain ⟨hself, hother⟩ := places_goto hplaces
  have hsame := places_keep Place.late hplaces (hlate.trans hp.symm)
  have hearly := places_keep Place.early hplaces
    ((late_not_early hlate).trans (late_not_early hp).symm)
  constructor
  case unique =>
    intro q r hside hq hr
    rw [hsame] at hq hr
    exact h.unique q r hside hq hr
  case flags =>
    intro q hq
    rw [hsame] at hq
    by_cases hqp : q = p
    · rw [hqp, hdropped, hended, if_pos rfl, if_pos rfl, hself]
      exact ⟨rfl, rfl⟩
    have hside : q.side ≠ p.side := by
      intro hside
      exact hqp (h.unique q p hside hq hp)
    rw [hdropped, hended, if_neg hside, if_neg hside, hother q hqp]
    exact h.flags q hq
  case unled =>
    intro side hall
    have hside : side ≠ p.side := by
      intro heq
      have hcontra := hall p heq.symm
      rw [hself, hlate] at hcontra
      cases hcontra
    rw [hdropped, hended, if_neg hside, if_neg hside]
    refine h.unled side fun q hq => ?_
    rw [← hsame]
    exact hall q hq
  case first =>
    intro q hq
    by_cases hqp : q = p
    · rw [hqp, hself] at hq
      rw [hqp]
      exact hfirst hq
    · rw [hother q hqp] at hq
      exact hmono _ (h.first q hq)
  case freeing =>
    intro q hq
    by_cases hqp : q = p
    · rw [hqp, hself] at hq
      exact hfree hq
    · rw [hother q hqp] at hq
      exact fun x => hmono x (h.freeing q hq x)
  case counted =>
    obtain ⟨live, hcard, hlive⟩ := h.counted
    refine ⟨live, by rw [hcard, hsenders], fun i => ?_⟩
    rw [hearly]
    exact hlive i
  case late_zero =>
    intro i hi
    rw [hsame] at hi
    rw [hsenders]
    exact h.late_zero i hi
  case zero_late =>
    intro hzero
    rw [hsenders] at hzero
    obtain ⟨i, hi⟩ := h.zero_late hzero
    exact ⟨i, by rw [hsame, hi]⟩
  case lone =>
    intro q hq hne
    rw [hearly] at hne
    rw [hsame]
    exact h.lone q hq hne
  case uncounted =>
    intro q hq hcount
    by_cases hqp : q = p
    · rw [hqp, hself] at hcount
      rw [hcount] at hlate
      cases hlate
    · rw [hother q hqp] at hcount
      exact h.uncounted q hq hcount

theorem Fits.no_late (hi : (s.places (.sender i)).early = true) (j : Nat) :
    (s.places (.sender j)).late = false := by
  cases hj : (s.places (.sender j)).late with
  | false => rfl
  | true =>
    obtain ⟨live, hcard, hlive⟩ := h.counted
    rw [h.late_zero j hj, card_eq_zero] at hcard
    have hmem := (hlive i).mpr hi
    rw [hcard] at hmem
    simp at hmem

theorem Fits.alone (hp : (s.places p).early = true) (q : Party) (hq : q.side = p.side) :
    (s.places q).late = false := by
  cases p with
  | sender i =>
    obtain ⟨j, rfl⟩ := sender_side hq
    exact h.no_late hp j
  | _ =>
    cases q <;> cases hq
    exact early_not_late hp

theorem Fits.enter (hp : (s.places p).early = true) (hlate : place.late = true)
    (hstored : place.stored = false) (hplaces : s'.places = (s.goto p place).places)
    (hdropped : s'.dropped = s.dropped) (hended : s'.ended = s.ended)
    (hsender : p.side = .sender → s.senders = 1 ∧ s'.senders = 0)
    (hothers : p.side ≠ .sender → s'.senders = s.senders) : Fits s' := by
  obtain ⟨hself, hother⟩ := places_goto hplaces
  have hplace : place.isDone = false ∧ place ≠ .loadingSecond ∧ place ≠ .freeing ∧
      place ≠ .counting ∧ place.early = false := by
    revert hlate hstored
    cases place <;> simp [Place.late, Place.stored, Place.isDone, Place.early]
  have halone := h.alone hp
  have hoff := h.unled p.side halone
  constructor
  case unique =>
    intro q r hside hq hr
    by_cases hqp : q = p
    · by_cases hrp : r = p
      · rw [hqp, hrp]
      · rw [hother r hrp, halone r (by rw [← hside, hqp])] at hr
        cases hr
    · rw [hother q hqp] at hq
      by_cases hrp : r = p
      · rw [halone q (by rw [hside, hrp])] at hq
        cases hq
      · rw [hother r hrp] at hr
        exact h.unique q r hside hq hr
  case flags =>
    intro q hq
    rw [hdropped, hended]
    by_cases hqp : q = p
    · rw [hqp, hself, hstored, hplace.1]
      exact hoff
    · rw [hother q hqp] at hq ⊢
      exact h.flags q hq
  case unled =>
    intro side hall
    rw [hdropped, hended]
    refine h.unled side fun q hq => ?_
    by_cases hqp : q = p
    · rw [hqp]
      exact early_not_late hp
    · rw [← hother q hqp]
      exact hall q hq
  case first =>
    intro q hq
    by_cases hqp : q = p
    · rw [hqp, hself] at hq
      exact (hplace.2.1 hq).elim
    · rw [hother q hqp] at hq
      rw [hdropped]
      exact h.first q hq
  case freeing =>
    intro q hq
    by_cases hqp : q = p
    · rw [hqp, hself] at hq
      exact (hplace.2.2.1 hq).elim
    · rw [hother q hqp] at hq
      rw [hdropped]
      exact h.freeing q hq
  case counted =>
    obtain ⟨live, hcard, hlive⟩ := h.counted
    by_cases hside : p.side = .sender
    · obtain ⟨i, rfl⟩ := sender_side hside
      obtain ⟨hone, hzero⟩ := hsender hside
      have hi := (hlive i).mpr hp
      refine ⟨live.erase i, ?_, fun j => ?_⟩
      · rw [card_erase_of_mem hi, hcard, hone, hzero]
      rw [mem_erase, hlive j]
      by_cases hji : j = i
      · rw [hji, hself, hplace.2.2.2.2]
        simp
      · rw [hother (.sender j) (by simpa using hji)]
        simp [hji]
    · refine ⟨live, by rw [hcard, hothers hside], fun i => ?_⟩
      rw [hother _ (sender_ne hside i)]
      exact hlive i
  case late_zero =>
    intro i hi
    by_cases hside : p.side = .sender
    · exact (hsender hside).2
    · rw [hother _ (sender_ne hside i)] at hi
      rw [hothers hside]
      exact h.late_zero i hi
  case zero_late =>
    intro hzero
    by_cases hside : p.side = .sender
    · obtain ⟨i, rfl⟩ := sender_side hside
      refine ⟨i, ?_⟩
      rw [hself]
      exact hlate
    · rw [hothers hside] at hzero
      obtain ⟨i, hi⟩ := h.zero_late hzero
      refine ⟨i, ?_⟩
      rw [hother _ (sender_ne hside i)]
      exact hi
  case lone =>
    intro q hq hne
    by_cases hqp : q = p
    · rw [hqp, hself]
      exact hlate
    · rw [hother q hqp] at hne ⊢
      exact h.lone q hq hne
  case uncounted =>
    intro q hq hcount
    by_cases hqp : q = p
    · rw [hqp, hself] at hcount
      exact hplace.2.2.2.1 hcount
    · rw [hother q hqp] at hcount
      exact h.uncounted q hq hcount

theorem Fits.outside (i : Nat) (place : Place) (hp : (s.places (.sender i)).late = false)
    (hlate : place.late = false) (hplaces : s'.places = (s.goto (.sender i) place).places)
    (hdropped : s'.dropped = s.dropped) (hended : s'.ended = s.ended)
    (hcounted : ∃ live : Finset Nat, live.card = s'.senders ∧
      ∀ j, j ∈ live ↔ (s'.places (.sender j)).early = true) (hzero : s'.senders = 0 ↔ s.senders = 0)
    : Fits s' := by
  obtain ⟨hself, hother⟩ := places_goto hplaces
  have hsame := places_keep Place.late hplaces (hlate.trans hp.symm)
  have hled : ∀ q, (s.places q).late = true → s'.places q = s.places q := by
    intro q hq
    refine hother q ?_
    intro heq
    rw [heq, hp] at hq
    cases hq
  have hnot : ∀ {q pl}, pl.late = true → s'.places q = pl → s.places q = pl := by
    intro q pl hpl hq
    have hlq : (s.places q).late = true := by
      rw [← hsame, hq]
      exact hpl
    rw [← hled q hlq]
    exact hq
  constructor
  case unique =>
    intro q r hside hq hr
    rw [hsame] at hq hr
    exact h.unique q r hside hq hr
  case flags =>
    intro q hq
    rw [hsame] at hq
    rw [hdropped, hended, hled q hq]
    exact h.flags q hq
  case unled =>
    intro side hall
    rw [hdropped, hended]
    refine h.unled side fun q hq => ?_
    rw [← hsame]
    exact hall q hq
  case first =>
    intro q hq
    rw [hdropped]
    exact h.first q (hnot rfl hq)
  case freeing =>
    intro q hq
    rw [hdropped]
    exact h.freeing q (hnot rfl hq)
  case counted => exact hcounted
  case late_zero =>
    intro j hj
    rw [hsame] at hj
    exact hzero.mpr (h.late_zero j hj)
  case zero_late =>
    intro hz
    obtain ⟨j, hj⟩ := h.zero_late (hzero.mp hz)
    refine ⟨j, ?_⟩
    rw [hsame]
    exact hj
  case lone =>
    intro q hq hne
    rw [hother q (sender_ne hq i).symm] at hne ⊢
    exact h.lone q hq hne
  case uncounted =>
    intro q hq hcount
    rw [hother q (sender_ne hq i).symm] at hcount
    exact h.uncounted q hq hcount

theorem Fits.senders_pos (hi : (s.places (.sender i)).early = true) : 0 < s.senders := by
  obtain ⟨live, hcard, hlive⟩ := h.counted
  rw [← hcard]
  exact card_pos.mpr ⟨i, (hlive i).mpr hi⟩

theorem Fits.touch : Fits s.touch :=
  ⟨h.unique, h.flags, h.unled, h.first, h.freeing, h.counted, h.late_zero, h.zero_late, h.lone,
    h.uncounted⟩

theorem Fits.clone {i j : Nat} (hi : s.places (.sender i) = .holding)
    (hj : s.places (.sender j) = .absent) :
    Fits { s.touch.goto (.sender j) .holding with senders := s.senders + 1 } := by
  have hpos := h.senders_pos (i := i) (by rw [hi]; rfl)
  refine h.touch.outside j .holding (by simp [State.touch, hj, Place.late]) rfl
    rfl rfl rfl ?_ ?_
  · obtain ⟨live, hcard, hlive⟩ := h.counted
    have hnot : j ∉ live := by
      rw [hlive j, hj]
      simp [Place.early]
    refine ⟨insert j live, ?_, fun k => ?_⟩
    · rw [card_insert_of_notMem hnot, hcard]
    rw [mem_insert, hlive k]
    by_cases hk : k = j
    · simp [hk, State.goto, Place.early]
    · simp [hk, State.goto, State.touch]
  · simp only [State.touch]
    omega

theorem Fits.drop (hp : s.places p = .holding) : Fits (s.goto p p.dropPlace) := by
  cases p with
  | sender i =>
    refine h.outside i .counting (by simp [hp, Place.late]) rfl rfl rfl rfl ?_ Iff.rfl
    obtain ⟨live, hcard, hlive⟩ := h.counted
    refine ⟨live, hcard, fun k => ?_⟩
    rw [hlive k]
    by_cases hk : k = i
    · simp [hk, hp, State.goto, Place.early, Party.dropPlace]
    · simp [hk, State.goto]
  | _ => exact h.enter (by rw [hp]; rfl) rfl rfl rfl rfl rfl nofun fun _ => rfl

theorem Fits.countDown (hp : s.places p = .counting) :
    Fits { s.touch.goto p (if s.senders = 1 then .closing .lockReader else .gone) with
      senders := s.senders - 1 } := by
  have hside : p.side = .sender := by
    by_contra hne
    exact h.uncounted p hne hp
  obtain ⟨i, rfl⟩ := sender_side hside
  have hearly : (s.places (.sender i)).early = true := by rw [hp]; rfl
  split_ifs
  · refine h.touch.enter hearly rfl rfl rfl rfl rfl ?_ ?_
    · intro _
      simp only [State.touch]
      omega
    · intro hne
      exact (hne rfl).elim
  refine h.touch.outside i .gone (by simp [State.touch, hp, Place.late]) rfl
    rfl rfl rfl ?_ ?_
  · obtain ⟨live, hcard, hlive⟩ := h.counted
    have hmem := (hlive i).mpr hearly
    refine ⟨live.erase i, ?_, fun k => ?_⟩
    · rw [card_erase_of_mem hmem, hcard]
    rw [mem_erase, hlive k]
    by_cases hk : k = i
    · simp [hk, State.goto, Place.early]
    · simp [hk, State.goto, State.touch]
  · simp only [State.touch]
    omega

theorem Fits.goOn (place : Place) (hp : s.places p = old) (hold : old.late = true)
    (hlate : place.late = true) (hplaces : s'.places = (s.goto p place).places)
    (hsenders : s'.senders = s.senders) (hdropped : s'.dropped = s.dropped)
    (hended : s'.ended = s.ended) (hstored : place.stored = old.stored)
    (hdone : place.isDone = old.isDone)
    (hfirst : place = .loadingSecond → s.dropped p.side.first = true)
    (hfree : place = .freeing → ∀ x, s.dropped x = true) : Fits s' := by
  subst hp
  obtain ⟨hflag, hend⟩ := h.flags p hold
  refine h.move place hold hlate hplaces hsenders ?_ ?_ (fun hs => hstored.trans hs) ?_ ?_
  · intro x
    rw [hdropped]
    split
    next hx => rw [hx, hflag, hstored]
    · rfl
  · intro x
    rw [hended]
    split
    next hx => rw [hx, hend, hdone]
    · rfl
  · rw [hdropped]
    exact hfirst
  · rw [hdropped]
    exact hfree

theorem Fits.closeAccess {pc : ClosePc} (hp : s.places p = .closing pc) :
    Fits (closeAccess s p pc) := by
  cases pc with
  | lockReader =>
    simp only [RefCounter.closeAccess]
    split
    · exact h.goOn (.closing .setTerminated) hp rfl rfl rfl rfl rfl rfl rfl rfl nofun
        nofun
    · exact h
  | setTerminated =>
    exact h.goOn (.closing .notify) hp rfl rfl rfl rfl rfl rfl rfl rfl nofun nofun
  | notify =>
    exact h.goOn (.closing .unlockReader) hp rfl rfl rfl rfl rfl rfl rfl rfl nofun
      nofun
  | unlockReader =>
    exact h.goOn .storing hp rfl rfl rfl rfl rfl rfl rfl rfl nofun nofun
  | closed => exact h

theorem Fits.store (hp : s.places p = .storing) :
    Fits { s.touch.goto p .loadingFirst with
      dropped := fun side => if side = p.side then true else s.dropped side } := by
  have hlate : (s.places p).late = true := by rw [hp]; rfl
  refine h.touch.move .loadingFirst hlate rfl rfl rfl (fun _ => rfl) ?_ (fun _ => rfl) nofun nofun
  intro x
  split
  next hx =>
    rw [hx]
    change s.ended p.side = _
    rw [(h.flags p hlate).2, hp]
    rfl
  · rfl

theorem Fits.finish (hp : s.places p = old) (hlate : old.late = true)
    (hstored : old.stored = true) : Fits (s.finish p) := by
  subst hp
  refine h.move .done hlate rfl rfl rfl ?_ ?_ (fun _ => rfl) nofun nofun
  · intro x
    split
    next hx =>
      rw [hx]
      change s.dropped p.side = _
      rw [(h.flags p hlate).1, hstored]
      rfl
    · rfl
  · intro x
    rfl

theorem Fits.dropStep (p : Party) : Fits (dropStep s p) := by
  unfold RefCounter.dropStep
  split
  next hp => exact h.countDown hp
  next pc hp => exact h.touch.closeAccess hp
  next hp => exact h.store hp
  next hp =>
    split
    next hflag =>
      exact h.touch.goOn .loadingSecond hp rfl rfl rfl rfl rfl rfl rfl rfl (fun _ => hflag)
        nofun
    · exact h.touch.finish hp rfl rfl
  next hp =>
    split
    next hflag =>
      refine h.touch.goOn .freeing hp rfl rfl rfl rfl rfl rfl rfl rfl nofun ?_
      intro _ x
      rcases side_cases p.side x with rfl | rfl | rfl
      · change s.dropped p.side = true
        rw [(h.flags p (by rw [hp]; rfl)).1, hp]
        rfl
      · exact h.first p hp
      · exact hflag
    · exact h.touch.finish hp rfl rfl
  next hp =>
    have hfin := h.finish hp rfl rfl
    exact ⟨hfin.unique, hfin.flags, hfin.unled, hfin.first, hfin.freeing, hfin.counted,
      hfin.late_zero, hfin.zero_late, hfin.lone, hfin.uncounted⟩
  · exact h

/-- **The places fit the counter and the flags** after every step. -/
theorem Fits.step {a : Action} (hok : step s a = .ok s') : Fits s' := by
  cases a with
  | use p =>
    cases hok
    split
    · exact h.touch
    · exact h
  | clone i j =>
    cases hok
    split
    next hij => exact h.clone hij.1 hij.2
    · exact h
  | drop p =>
    cases hok
    split
    next hp => exact h.drop hp
    · exact h
  | run p =>
    cases hok
    exact h.dropStep p

end

theorem fits_initial : Fits {} := by
  have hplace : ∀ p : Party, ({} : State).places p = .holding ∨
      ({} : State).places p = .absent ∧ p.side = .sender := by
    intro p
    by_cases hp : p.side = .sender ∧ p ≠ .sender 0
    · exact .inr ⟨if_pos hp, hp.1⟩
    · exact .inl (if_neg hp)
  have hlone : ∀ p : Party, p.side ≠ .sender → ({} : State).places p = .holding :=
    fun p hp => (hplace p).resolve_right fun habsent => hp habsent.2
  have hlate : ∀ p : Party, (({} : State).places p).late = false := by
    intro p
    rcases hplace p with hp | ⟨hp, -⟩
    · rw [hp]; rfl
    · rw [hp]; rfl
  have hno : ∀ (p : Party) {pl : Place}, pl.late = true → ({} : State).places p ≠ pl := by
    intro p pl hpl heq
    have hcontra := hlate p
    rw [heq, hpl] at hcontra
    cases hcontra
  constructor
  case unique =>
    intro p q _ hp
    rw [hlate] at hp
    cases hp
  case flags =>
    intro p hp
    rw [hlate] at hp
    cases hp
  case unled => exact fun _ _ => ⟨rfl, rfl⟩
  case first => exact fun p hp => (hno p rfl hp).elim
  case freeing => exact fun p hp => (hno p rfl hp).elim
  case counted =>
    refine ⟨{0}, rfl, fun i => ?_⟩
    rw [mem_singleton]
    by_cases hi : i = 0 <;> simp [hi, Place.early, Party.side]
  case late_zero =>
    intro i hi
    rw [hlate] at hi
    cases hi
  case zero_late => exact nofun
  case lone =>
    intro p hp hearly
    rw [hlone p hp] at hearly
    cases hearly
  case uncounted =>
    intro p hp hcount
    rw [hlone p hp] at hcount
    cases hcount

end ZeroTrace.RefCounter
