import ZeroTrace.RustExec

/-!
# Computations that leave a trace

A traced computation delivers a value or stops, as in `Exec`, and has left
behind a list of events when it does either.  The events are how a statement
can speak of the steps of a run that stopped or that would go on for ever: a
run with too little fuel still shows what it came to.

`Exact` ties the events to the outcome: the run crashes, other than for want
of fuel, exactly if one of its events is not safe.  `Ends` is for termination:
the events are good exactly if they are nice and the run does not want for fuel,
and then their number is bounded.  Each has the rules for putting computations
together.

Nothing here mentions a particular program.
-/

namespace TracedExec

open RustExec List

/-- A computation with its events. -/
structure Traced (ε α : Type) where
  log : List ε
  result : Exec α

variable {ε α β : Type}

namespace Traced

/-- A value, without an event. -/
def pure (a : α) : Traced ε α := ⟨[], .ok a⟩

/-- A computation without events. -/
def lift (x : Exec α) : Traced ε α := ⟨[], x⟩

/-- An event. -/
def tell (e : ε) : Traced ε Unit := ⟨[e], .ok ()⟩

def outOfFuel : Traced ε α := ⟨[], .error .outOfFuel⟩

/-- One computation after the other. -/
def bind (x : Traced ε α) (f : α → Traced ε β) : Traced ε β :=
  match x.result with
  | .ok a => ⟨x.log ++ (f a).log, (f a).result⟩
  | .error e => ⟨x.log, .error e⟩

end Traced

instance : Monad (Traced ε) where
  pure := Traced.pure
  bind := Traced.bind

variable {x : Traced ε α} {f : α → Traced ε β} {a : α}

theorem bind_of_ok (h : x.result = .ok a) : x >>= f = ⟨x.log ++ (f a).log, (f a).result⟩ := by
  change Traced.bind x f = _
  unfold Traced.bind
  rw [h]

theorem bind_of_error {e : Panic} (h : x.result = .error e) : x >>= f = ⟨x.log, .error e⟩ := by
  change Traced.bind x f = _
  unfold Traced.bind
  rw [h]

variable {y : Exec α}

theorem lift_bind_of_ok (h : y = .ok a) : Traced.lift y >>= f = f a :=
  bind_of_ok h

theorem tell_bind_eq (e : ε) (g : Unit → Traced ε β) :
    (Traced.tell e >>= g) = ⟨e :: (g ()).log, (g ()).result⟩ :=
  bind_of_ok rfl

/-- The computation stops, and not for want of fuel. -/
def Crashes (r : Exec α) : Prop := ∃ e, r = .error e ∧ e ≠ .outOfFuel

theorem not_crashes_ok (a : α) : ¬ Crashes (.ok a : Exec α) := by
  rintro ⟨e, h, -⟩
  cases h

theorem crashes_error_iff (e : Panic) : Crashes (.error e : Exec α) ↔ e ≠ .outOfFuel := by
  constructor
  · rintro ⟨e', h, hne⟩
    cases h
    exact hne
  · intro hne
    exact ⟨e, rfl, hne⟩

/-- The computation delivers a value with `Q` if the condition holds, and
crashes if it does not. -/
def Settles (c : Prop) (y : Exec α) (Q : α → Prop) : Prop :=
  (c ∧ ∃ a, y = .ok a ∧ Q a) ∨ (¬ c ∧ Crashes y)

variable {Q : α → Prop} {c : Prop}

theorem Settles.ok (hc : c) (h : Q a) : Settles c (.ok a) Q :=
  .inl ⟨hc, a, rfl, h⟩

theorem Settles.error {e : Panic} (hc : ¬ c) (he : e ≠ .outOfFuel) : Settles c (.error e) Q :=
  .inr ⟨hc, e, rfl, he⟩

theorem Settles.congr {c d : Prop} (h : Settles c y Q) (hcd : c ↔ d) : Settles d y Q := by
  rw [Settles, ← hcd]
  exact h

theorem Settles.exists_ok (h : Settles c y Q) (hc : c) : ∃ a, y = .ok a ∧ Q a := by
  rcases h with ⟨-, hok⟩ | ⟨hnot, -⟩
  · exact hok
  · exact absurd hc hnot

theorem Settles.crashes (h : Settles c y Q) (hc : ¬ c) : Crashes y := by
  rcases h with ⟨hyes, -⟩ | ⟨-, hcrash⟩
  · exact absurd hyes hc
  · exact hcrash

variable {g : Unit → Traced ε β} {e : ε}

section Exact

variable {safe : ε → Prop} {R : β → Prop}

/-- The run crashes exactly if one of its events is not safe, and a value it
delivers satisfies `Q`. -/
structure Exact (safe : ε → Prop) (x : Traced ε α) (Q : α → Prop) : Prop where
  iff : (∀ e ∈ x.log, safe e) ↔ ¬ Crashes x.result
  post : ∀ a, x.result = .ok a → Q a

theorem Exact.pure (h : Q a) : Exact safe (Traced.pure a) Q where
  iff := iff_of_true nofun (not_crashes_ok a)
  post := by
    rintro _ ⟨⟩
    exact h

theorem Exact.outOfFuel : Exact safe (Traced.outOfFuel : Traced ε α) Q where
  iff := iff_of_true nofun (by simp [Traced.outOfFuel, crashes_error_iff])
  post := by
    intro a h
    cases h

theorem Exact.lift_bind (hy : y = .ok a) (hf : Exact safe (f a) R) :
    Exact safe (Traced.lift y >>= f) R := by
  rw [lift_bind_of_ok hy]
  exact hf

theorem Exact.tell_bind (he : safe e) (hg : Exact safe (g ()) R) :
    Exact safe (Traced.tell e >>= g) R := by
  rw [tell_bind_eq]
  refine ⟨?_, hg.post⟩
  rw [← hg.iff, forall_mem_cons]
  exact and_iff_right he

theorem Exact.bind (hx : Exact safe x Q) (hf : ∀ a, Q a → Exact safe (f a) R) :
    Exact safe (x >>= f) R := by
  cases h : x.result with
  | error e =>
    rw [bind_of_error h]
    refine ⟨?_, nofun⟩
    rw [crashes_error_iff, hx.iff, h, crashes_error_iff]
  | ok a =>
    have hfa := hf a (hx.post a h)
    rw [bind_of_ok h]
    refine ⟨?_, hfa.post⟩
    have hall : ∀ e ∈ x.log, safe e := by
      rw [hx.iff, h]
      exact not_crashes_ok a
    rw [← hfa.iff, forall_mem_append]
    exact and_iff_right hall

/-- Both ends meet at an event that is not safe: what follows it crashes. -/
theorem Exact.event_not_safe (he : ¬ safe e) (hg : Crashes (g ()).result) :
    Exact safe (Traced.tell e >>= g) R := by
  rw [tell_bind_eq]
  refine ⟨iff_of_false ?_ (fun hnot => hnot hg), ?_⟩
  · intro hall
    exact he (hall e mem_cons_self)
  intro b hb
  obtain ⟨err, herr, -⟩ := hg
  rw [herr] at hb
  cases hb

/-- What is bound behind a computation that crashes does not matter. -/
theorem crashes_bind (h : Crashes x.result) : Crashes (x >>= f).result := by
  obtain ⟨e, he, hne⟩ := h
  rw [bind_of_error he]
  exact ⟨e, rfl, hne⟩

/-- An exact run that does not want for fuel. -/
def Total (safe : ε → Prop) (x : Traced ε α) : Prop :=
  Exact safe x (fun _ => True) ∧ x.result ≠ .error .outOfFuel

theorem Total.pure : Total safe (Traced.pure a) :=
  ⟨.pure trivial, by simp [Traced.pure]⟩

theorem Total.bind (hx : Total safe x) (hf : ∀ a, Total safe (f a)) : Total safe (x >>= f) := by
  refine ⟨hx.1.bind fun a _ => (hf a).1, ?_⟩
  cases h : x.result with
  | error e =>
    rw [bind_of_error h]
    intro herr
    cases herr
    exact hx.2 h
  | ok a =>
    rw [bind_of_ok h]
    exact (hf a).2

end Exact

section Ends

variable {good nice : ε → Prop} {Q' : α → Prop} {R : β → Prop} {k m : Nat}

/-- If all its events are good, they are nice as well and no more than `k`, the
run does not want for fuel, and a value it delivers satisfies `Q`.  If they are nice
and the run does not want for fuel, they are good. -/
structure Ends (good nice : ε → Prop) (k : Nat) (x : Traced ε α) (Q : α → Prop) : Prop where
  ends : (∀ e ∈ x.log, good e) → ((∀ e ∈ x.log, nice e) ∧ x.log.length ≤ k) ∧
    x.result ≠ .error .outOfFuel ∧ ∀ a, x.result = .ok a → Q a
  good : (∀ e ∈ x.log, nice e) → x.result ≠ .error .outOfFuel → ∀ e ∈ x.log, good e

/-- The run has an event that is not nice, or wants for fuel. -/
def Stuck (nice : ε → Prop) (x : Traced ε α) : Prop :=
  (∀ e ∈ x.log, nice e) → x.result = .error .outOfFuel

theorem Stuck.bind (hx : x.result = .ok a) (hf : Stuck nice (f a)) : Stuck nice (x >>= f) := by
  rw [bind_of_ok hx]
  intro hall
  exact hf (forall_mem_append.mp hall).2

theorem Stuck.lift_bind (hy : y = .ok a) (hf : Stuck nice (f a)) :
    Stuck nice (Traced.lift y >>= f) :=
  hf.bind hy

theorem Stuck.tell_bind (hg : Stuck nice (g ())) : Stuck nice (Traced.tell e >>= g) :=
  hg.bind rfl

theorem Stuck.of_tell (h : Stuck nice (Traced.tell e >>= g)) (he : nice e) :
    Stuck nice (g ()) := by
  rw [tell_bind_eq] at h
  exact fun hall => h (forall_mem_cons.mpr ⟨he, hall⟩)

theorem Stuck.not_nice (he : ¬ nice e) : Stuck nice (Traced.tell e >>= g) := by
  rw [tell_bind_eq]
  intro hall
  exact absurd (hall e mem_cons_self) he

theorem Ends.mono (hx : Ends good nice k x Q) (h : ∀ a, Q a → Q' a) : Ends good nice k x Q' := by
  refine ⟨fun hall => ?_, hx.good⟩
  obtain ⟨hevents, hend, hpost⟩ := hx.ends hall
  exact ⟨hevents, hend, fun a ha => h a (hpost a ha)⟩

theorem Ends.le (hx : Ends good nice k x Q) (hk : k ≤ m) : Ends good nice m x Q := by
  refine ⟨fun hall => ?_, hx.good⟩
  obtain ⟨⟨hnice, hlen⟩, hend⟩ := hx.ends hall
  exact ⟨⟨hnice, le_trans hlen hk⟩, hend⟩

theorem Ends.of_nil {r : Exec α} (hr : r ≠ .error .outOfFuel) (h : ∀ a, r = .ok a → Q a) :
    Ends good nice k ⟨[], r⟩ Q :=
  ⟨fun _ => ⟨⟨nofun, Nat.zero_le k⟩, hr, h⟩, fun _ _ => nofun⟩

theorem Ends.pure (h : Q a) : Ends good nice k (Traced.pure a) Q := by
  refine .of_nil nofun ?_
  rintro _ ⟨⟩
  exact h

/-- A part without events is followed with the value it delivers. -/
theorem Ends.lift_bind (hy : y ≠ .error .outOfFuel)
    (hf : ∀ a, y = .ok a → Ends good nice k (f a) R) :
    Ends good nice k (Traced.lift y >>= f) R := by
  cases y with
  | ok a =>
    rw [lift_bind_of_ok rfl]
    exact hf a rfl
  | error e =>
    have hbind : (Traced.lift (.error e) >>= f) = ⟨[], .error e⟩ := bind_of_error rfl
    rw [hbind]
    refine .of_nil (fun herr => ?_) nofun
    cases herr
    exact hy rfl

theorem Ends.ok_bind (hy : y = .ok a) (hf : Ends good nice k (f a) R) :
    Ends good nice k (Traced.lift y >>= f) R := by
  rw [lift_bind_of_ok hy]
  exact hf

/-- A checked addition that does not fit ends the run. -/
theorem Ends.add_bind {w a b : Nat} {f : Nat → Traced ε β}
    (hf : a + b < 2 ^ w → Ends good nice k (f (a + b)) R) :
    Ends good nice k (Traced.lift (checkedAdd w a b) >>= f) R := by
  refine .lift_bind (fun herr => ?_) fun c hc => ?_
  · unfold checkedAdd at herr
    split at herr <;> cases herr
  · obtain ⟨hfit, rfl⟩ := checkedAdd_eq_ok hc
    exact hf hfit

theorem Ends.sub_bind {a b : Nat} {f : Nat → Traced ε β} (hf : Ends good nice k (f (a - b)) R) :
    Ends good nice k (Traced.lift (checkedSub a b) >>= f) R := by
  refine .lift_bind (fun herr => ?_) fun c hc => ?_
  · unfold checkedSub at herr
    split at herr <;> cases herr
  · obtain ⟨-, rfl⟩ := checkedSub_eq_ok hc
    exact hf

theorem Ends.bind (hx : Ends good nice k x Q) (hf : ∀ a, Q a → Ends good nice m (f a) R) :
    Ends good nice (k + m) (x >>= f) R := by
  cases h : x.result with
  | error e =>
    rw [bind_of_error h]
    constructor
    · intro hall
      obtain ⟨⟨hnice, hlen⟩, hfuel, -⟩ := hx.ends hall
      rw [h] at hfuel
      refine ⟨⟨hnice, le_trans hlen (Nat.le_add_right k m)⟩, fun heq => ?_, nofun⟩
      cases heq
      exact hfuel rfl
    · intro hnice hend
      refine hx.good hnice fun heq => hend ?_
      rw [h] at heq
      cases heq
      rfl
  | ok a =>
    rw [bind_of_ok h]
    constructor
    · intro hall
      obtain ⟨hfirst, hrest⟩ := forall_mem_append.mp hall
      obtain ⟨⟨hnice, hlen⟩, -, hpost⟩ := hx.ends hfirst
      obtain ⟨⟨hmore, hlen'⟩, hend⟩ := (hf a (hpost a h)).ends hrest
      refine ⟨⟨forall_mem_append.mpr ⟨hnice, hmore⟩, ?_⟩, hend⟩
      rw [length_append]
      exact Nat.add_le_add hlen hlen'
    · intro hall hend
      obtain ⟨hfirst, hrest⟩ := forall_mem_append.mp hall
      have hgood := hx.good hfirst (by rw [h]; nofun)
      have hpost := (hx.ends hgood).2.2 a h
      exact forall_mem_append.mpr ⟨hgood, (hf a hpost).good hrest hend⟩

theorem Ends.bind_quiet (hx : Ends good nice k x Q) (hf : ∀ a, Q a → Ends good nice 0 (f a) R) :
    Ends good nice k (x >>= f) R :=
  hx.bind hf

/-- A good event can be counted on in what follows; with any other, the run gets stuck. -/
theorem Ends.tell_bind (he : good e → nice e) (hg : good e → Ends good nice k (g ()) R)
    (hbad : ¬ good e → Stuck nice (g ())) : Ends good nice (1 + k) (Traced.tell e >>= g) R := by
  rw [tell_bind_eq]
  constructor
  · intro hall
    obtain ⟨hgood, hrest⟩ := forall_mem_cons.mp hall
    obtain ⟨⟨hnice, hlen⟩, hend⟩ := (hg hgood).ends hrest
    refine ⟨⟨forall_mem_cons.mpr ⟨he hgood, hnice⟩, ?_⟩, hend⟩
    rw [length_cons]
    omega
  · intro hall hend
    obtain ⟨-, hrest⟩ := forall_mem_cons.mp hall
    by_cases hgood : good e
    · exact forall_mem_cons.mpr ⟨hgood, (hg hgood).good hrest hend⟩
    · exact absurd (hbad hgood hrest) hend

/-- An event of which nothing is asked. -/
theorem Ends.note_bind (hgood : good e) (he : nice e) (hg : Ends good nice k (g ()) R) :
    Ends good nice (1 + k) (Traced.tell e >>= g) R :=
  .tell_bind (fun _ => he) (fun _ => hg) fun hnot => absurd hgood hnot

theorem Settles.ne_outOfFuel (h : Settles c y Q) : y ≠ .error .outOfFuel := by
  rcases h with ⟨-, a, rfl, -⟩ | ⟨-, e, rfl, hne⟩
  · intro heq
    cases heq
  · intro heq
    cases heq
    exact hne rfl

theorem Settles.post (h : Settles c y Q) (ha : y = .ok a) : Q a := by
  subst ha
  rcases h with ⟨-, b, hb, hQ⟩ | ⟨-, e, he, -⟩
  · cases hb
    exact hQ
  · cases he

end Ends

end TracedExec
