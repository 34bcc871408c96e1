import ZeroTrace.RunInvariants

/-!
# Concurrent inserts of a resource

`World::insert` looks for the resource under the read lock, releases it, and
takes the write lock to store the value.  An insert that found none makes new
metadata and returns true, whatever is there by then.

The inserts are put in the order in which they held the write lock.  In that
order each behaves as if it were alone, as long as nobody looks between the
look and the write of an insert that found nothing.
-/

namespace ZeroTrace.Kernel

open RustExec Runs List

structure ResourceMeta where
  addedTick : Nat
  changedTick : Nat

/-- Where an `insert` is after its look: it found the resource, it found none, or
it has made new metadata since. -/
inductive Phase where
  | overwriting
  | stamping
  | writing (arc : Nat)
  deriving DecidableEq

/-- An `insert` that has not returned; `before` inserts had when it began. -/
structure Call (V : Type) where
  value : V
  phase : Phase
  before : Nat

/-- An `insert` that has returned: the metadata it stored and its answer. -/
structure Done (V : Type) where
  value : V
  arc : Nat
  first : Bool
  before : Nat

/-- One resource of the world.  Metadata is shared, so it is named by its place in
`metas`.  `World::new` has taken two ticks.  `calls` are on their way, and `history`
is for the statement. -/
structure World (V : Type) where
  entry : Option (V × Nat) := none
  metas : List ResourceMeta := []
  changeTick : Nat := 3
  calls : List (Call V) := []
  history : List (Done V) := []

/-- An `insert` begins and looks, or one of those on their way goes on. -/
inductive Event (V : Type) where
  | insert (value : V)
  | go (i : Nat)

variable {V : Type}

namespace World

variable (s : World V)

/-- `get`, under the read lock. -/
def get : Option (V × ResourceMeta) :=
  s.entry.map fun e => (e.1, s.metas.getD e.2 ⟨0, 0⟩)

/-- `ResourceMeta::new(self.next_tick())`. -/
def newMeta : World V :=
  { s with
    metas := s.metas ++ [⟨s.changeTick, s.changeTick⟩]
    changeTick := s.changeTick + 1 }

/-- The call at a place stores its value and returns. -/
def store (i : Nat) (c : Call V) (arc : Nat) (first : Bool) : World V :=
  { s with
    entry := some (c.value, arc)
    calls := s.calls.eraseIdx i
    history := s.history ++ [⟨c.value, arc, first, c.before⟩] }

/-- The call at a place goes on. -/
def go (i : Nat) (c : Call V) : World V :=
  match c.phase, s.entry with
  | .overwriting, some e =>
    { s.store i c e.2 false with
      metas := s.metas.set e.2 ⟨s.changeTick, s.changeTick⟩
      changeTick := s.changeTick + 1 }
  | .overwriting, none => s.newMeta.store i c s.metas.length false
  | .stamping, _ =>
    { s.newMeta with calls := s.calls.set i { c with phase := .writing s.metas.length } }
  | .writing arc, _ => s.store i c arc true

def step : Event V → Exec (World V)
  | .insert value =>
    let phase := if s.entry.isSome then .overwriting else .stamping
    .ok { s with calls := s.calls ++ [⟨value, phase, s.history.length⟩] }
  | .go i => .ok (s.calls[i]?.elim s (s.go i))

/-- Nobody looks between the look and the write of an insert that found nothing. -/
def Undisturbed : Event V → Prop
  | .insert _ => ∀ c ∈ s.calls, c.phase = .overwriting
  | .go _ => True

instance : DecidablePred s.Undisturbed
  | .insert _ => inferInstanceAs (Decidable (∀ c ∈ s.calls, _))
  | .go _ => isTrue trivial

end World

/-- Every insert that returned stands behind those that had before it began.  The first
one returned true and all others false, all stored the same metadata, and the value is
that of the last one. -/
structure Linearized (s : World V) : Prop where
  order : ∀ i (d : Done V), s.history[i]? = some d → d.before ≤ i ∧ (d.first = true ↔ i = 0)
  shared : ∀ d ∈ s.history, ∀ e ∈ s.entry, d.arc = e.2
  latest : s.entry.map Prod.fst = s.history.getLast?.map Done.value

/-- An insert found an entry if there is one, and while there is none one insert at most
is on its way. -/
structure Sound (s : World V) : Prop extends Linearized s where
  begun : ∀ c ∈ s.calls, c.before ≤ s.history.length
  found : ∀ c ∈ s.calls, (c.phase = .overwriting ↔ s.entry.isSome = true)
  alone : s.entry = none → s.calls.length ≤ 1

section Steps

variable {s : World V} {i : Nat} {c : Call V}

theorem Sound.history_eq_nil (h : Sound s) : s.history = [] ↔ s.entry = none := by
  have hlatest := h.latest
  cases hentry : s.entry with
  | none => simpa [hentry, eq_comm] using hlatest
  | some e =>
    refine iff_of_false (fun hnil => ?_) (by simp)
    simp [hentry, hnil] at hlatest

theorem Sound.store (h : Sound s) (hc : s.calls[i]? = some c) {arc : Nat} {first : Bool}
    (hfirst : first = true ↔ s.entry = none) (harc : ∀ e ∈ s.entry, arc = e.2)
    (metas : List ResourceMeta) (tick : Nat) :
    Sound { s.store i c arc first with metas := metas, changeTick := tick } := by
  have hmem : c ∈ s.calls := mem_of_getElem? hc
  refine ⟨⟨?_, ?_, ?_⟩, ?_, ?_, nofun⟩
  · intro k d hd
    rcases Nat.lt_trichotomy k s.history.length with hk | rfl | hk
    · exact h.order k d (by rwa [World.store, getElem?_append_left hk] at hd)
    · obtain rfl : _ = d := by simpa [World.store] using hd
      rw [hfirst, ← h.history_eq_nil, length_eq_zero_iff]
      exact ⟨h.begun c hmem, Iff.rfl⟩
    · rw [getElem?_eq_none (by simp [World.store]; omega)] at hd
      cases hd
  · rintro d hd _ ⟨⟩
    rcases mem_append.mp hd with hd | hd
    · cases hentry : s.entry with
      | none => simp [h.history_eq_nil.mpr hentry] at hd
      | some e => rw [h.shared d hd e hentry, harc e hentry]
    · rw [mem_singleton.mp hd]
  · simp [World.store]
  · intro c' hc'
    exact (h.begun c' (mem_of_mem_eraseIdx hc')).trans (by simp [World.store])
  · intro c' hc'
    refine iff_of_true ?_ rfl
    rw [h.found c' (mem_of_mem_eraseIdx hc'), ← Option.ne_none_iff_isSome]
    intro hentry
    have halone := h.alone hentry
    have hlt := (List.getElem?_eq_some_iff.mp hc).1
    have hempty : s.calls.eraseIdx i = [] :=
      length_eq_zero_iff.mp (by rw [length_eraseIdx_of_lt hlt]; omega)
    rw [World.store, hempty] at hc'
    cases hc'

theorem Sound.go (h : Sound s) (hc : s.calls[i]? = some c) : Sound (s.go i c) := by
  have hmem : c ∈ s.calls := mem_of_getElem? hc
  have hfound := h.found c hmem
  unfold World.go
  cases hphase : c.phase with
  | overwriting =>
    cases hentry : s.entry with
    | none => simp [hphase, hentry] at hfound
    | some e => exact h.store hc (by simp [hentry]) (by simp [hentry]) _ _
  | writing arc =>
    have hentry : s.entry = none := by simpa [hphase] using hfound
    exact h.store hc (by simp [hentry]) (by simp [hentry]) _ _
  | stamping =>
    refine ⟨⟨h.order, h.shared, h.latest⟩, fun c' hc' => ?_, fun c' hc' => ?_, fun hnone => ?_⟩
    · rcases mem_or_eq_of_mem_set hc' with hold | rfl
      · exact h.begun c' hold
      · exact h.begun c hmem
    · rcases mem_or_eq_of_mem_set hc' with hold | rfl
      · exact h.found c' hold
      · simpa [hphase, World.newMeta] using hfound
    · rw [length_set]
      exact h.alone hnone

theorem Sound.step (h : Sound s) {event : Event V} (hevent : s.Undisturbed event) :
    ∃ s', s.step event = .ok s' ∧ Sound s' := by
  cases event with
  | go i =>
    refine ⟨_, rfl, ?_⟩
    cases hc : s.calls[i]? with
    | none => exact h
    | some c => exact h.go hc
  | insert value =>
    refine ⟨_, rfl, ⟨h.order, h.shared, h.latest⟩, ?_, ?_, fun hnone => ?_⟩
    · exact forall_mem_append.mpr ⟨h.begun, by simp⟩
    · refine forall_mem_append.mpr ⟨h.found, ?_⟩
      cases hentry : s.entry <;> simp
    -- without an entry nothing overwrites, so nothing at all is on its way
    have hempty : s.calls = [] := by
      refine eq_nil_iff_forall_not_mem.mpr fun c hc => ?_
      have hsome := (h.found c hc).mp (hevent c hc)
      rw [show s.entry = none from hnone] at hsome
      cases hsome
    simp [hempty]

end Steps

/-- **Inserts without a look in between.**  Whatever the inserts of a resource that is not
there do, if none looks between the look and the write of one that found nothing, then at
every moment those that returned are in an order of real time in which the first one returned
true and every other one reused its metadata, and a get finds the value of the last one. -/
theorem insert_linearizable (events : List (Event V))
    (h : StepsObey World.step World.Undisturbed ({} : World V) events) :
    StatesHold World.step (fun s => Linearized s ∧
      s.get.map Prod.fst = s.history.getLast?.map Done.value) ({} : World V) events := by
  have hnew : Sound ({} : World V) :=
    ⟨⟨by simp, by simp, rfl⟩, by simp, by simp, fun _ => Nat.zero_le _⟩
  have hruns : StatesHold World.step Sound ({} : World V) events :=
    statesHold_of_invariant (fun s event hs hevent => hs.step hevent) hnew h
  refine hruns.mono fun s hs => ⟨hs.toLinearized, ?_⟩
  rw [World.get, Option.map_map, ← hs.latest]
  rfl

/-- One insert, and another one behind it. -/
theorem insert_linearizable_behind :
    ∃ s, run World.step ({} : World Nat) [.insert 7, .go 0, .go 0, .insert 8, .go 0] = .ok s ∧
      s.get.map Prod.fst = s.history.getLast?.map Done.value := by
  have hobeys : StepsObey World.step World.Undisturbed ({} : World Nat)
      [.insert 7, .go 0, .go 0, .insert 8, .go 0] :=
    stepsObey_of_check (fun _ _ => of_decide_eq_true) rfl
  obtain ⟨s, hrun, hs⟩ := (insert_linearizable _ hobeys).run_ok
  exact ⟨s, hrun, hs.2⟩

/-- Two inserts look before either writes: both return true, each with metadata of its
own. -/
theorem two_inserts_return_true :
    ∃ s, run World.step ({} : World Nat)
        [.insert 7, .insert 8, .go 0, .go 1, .go 0, .go 0] = .ok s ∧
      s.history.map (fun d => (d.value, d.arc, d.first)) = [(7, 0, true), (8, 1, true)] :=
  ⟨_, rfl, rfl⟩

end ZeroTrace.Kernel
