import ZeroTrace.RunInvariants

/-!
# The leaky bucket

A thread adds tokens to the bucket ten times a second, and `acquire` takes them out.  Both
change the count by `fetch_update`, a loop around a compare-and-swap, so that a turn of
the loop may work with a value that is no longer the count.  At a fixed rate, what is
granted after the first tick is at most the burst and what the later ticks add.
-/

namespace ZeroTrace

open RustExec Runs

def tickPerSecond : Nat := 10

def burstMultiple : Nat := 10

/-- Where the tick thread is: at the head of its loop, in its `fetch_update`, or stopped by
an overflow. -/
inductive TickThread where
  | head
  | update
  | stopped
  deriving DecidableEq

/-- The shared rate and count of tokens, and the variables of the tick thread, whose `rate`
is `seen`. -/
structure LeakyBucket where
  rate : Nat
  token : Nat := 0
  thread : TickThread := .head
  seen : Nat := 0
  quantityPerTick : Nat := 0
  full : Nat := 0
  deriving DecidableEq

/-- How a turn of `fetch_update` ends. -/
inductive Turn where
  | err
  | ok (token : Nat)
  | again
  deriving DecidableEq

/-- A turn of `fetch_update` that has read `loaded`: what the closure makes of it is written
if it still is the count. -/
def fetchUpdate (token loaded : Nat) : Option Nat → Turn
  | none => .err
  | some value => if loaded = token then .ok value else .again

namespace LeakyBucket

/-- `LeakyBucket::new`. -/
def new (rate : Option Nat) : LeakyBucket := { rate := rate.getD 0 }

/-- The tokens of a tick. -/
def quantity (rate : Nat) : Nat := max 1 (rate / tickPerSecond)

/-- The head of the tick thread's loop.  The product is at most the rate or 10. -/
def look (b : LeakyBucket) : LeakyBucket :=
  if b.thread ≠ .head then b
  else if b.rate = 0 then { b with seen := 0 } -- parked
  else if b.rate ≠ b.seen then
    { b with
      seen := b.rate
      quantityPerTick := quantity b.rate
      full := quantity b.rate * burstMultiple
      token := quantity b.rate * burstMultiple
      thread := .update }
  else { b with thread := .update }

/-- `t + quantity_per_tick`, with or without overflow checks. -/
def addQuantity (checks : Bool) (b : LeakyBucket) (t : Nat) : Exec Nat :=
  if checks then checkedAdd 64 t b.quantityPerTick else .ok (wrappingAdd 64 t b.quantityPerTick)

/-- A turn of the tick thread's `fetch_update`. -/
def refill (checks : Bool) (b : LeakyBucket) (loaded : Nat) : LeakyBucket :=
  if b.thread ≠ .update then b
  else
    match b.addQuantity checks loaded with
    | .error _ => { b with thread := .stopped }
    | .ok sum =>
      match fetchUpdate b.token loaded (if b.full < sum then none else some sum) with
      | .err => { b with thread := .head }
      | .ok token => { b with token := token, thread := .head }
      | .again => b

/-- A turn of `acquire`, with the answer if it is the last one. -/
def acquire (b : LeakyBucket) (size loaded : Nat) : LeakyBucket × Option Bool :=
  if b.rate = 0 then (b, some true)
  else
    match fetchUpdate b.token loaded (if loaded < size then none else some (loaded - size)) with
    | .err => (b, some false)
    | .ok token => ({ b with token := token }, some true)
    | .again => (b, none)

/-- What a thread can do next.  What it has read is any value, as other threads may have
changed the count since; the turns of any number of calls of `acquire` are interleaved. -/
inductive Action where
  | look
  | refill (loaded : Nat)
  | acquire (size loaded : Nat)
  deriving DecidableEq

/-- One action of one thread. -/
def step (checks : Bool) (b : LeakyBucket) : Action → Exec LeakyBucket
  | .look => .ok b.look
  | .refill loaded => .ok (b.refill checks loaded)
  | .acquire size loaded => .ok (b.acquire size loaded).1

def granted (b : LeakyBucket) : Action → Nat
  | .acquire size loaded => if (b.acquire size loaded).2 = some true then size else 0
  | _ => 0

/-- Whether an action ends the `fetch_update` of a tick. -/
def ticks (checks : Bool) (b : LeakyBucket) : Action → Nat
  | .refill loaded =>
    if b.thread = .update ∧ (b.refill checks loaded).thread = .head then 1 else 0
  | _ => 0

/-- The tick thread has seen the rate, and the bucket is not overfull. -/
structure Ticking (rate : Nat) (b : LeakyBucket) : Prop where
  rate_eq : b.rate = rate
  seen_eq : b.seen = rate
  quantity_eq : b.quantityPerTick = quantity rate
  full_eq : b.full = quantity rate * burstMultiple
  token_le : b.token ≤ b.full

/-- Before its first tick a bucket is empty. -/
structure Fresh (rate : Nat) (b : LeakyBucket) : Prop where
  rate_eq : b.rate = rate
  thread_eq : b.thread = .head
  seen_eq : b.seen = 0
  token_eq : b.token = 0

variable {checks : Bool} {rate : Nat} {b : LeakyBucket} (a : Action)

theorem addQuantity_le {t sum : Nat} (h : b.addQuantity checks t = .ok sum) :
    sum ≤ t + b.quantityPerTick := by
  unfold addQuantity checkedAdd wrappingAdd at h
  split_ifs at h with hchecks hfits
  · exact (Except.ok.inj h).ge
  · exact Except.ok.inj h ▸ Nat.mod_le _ _

/-- **A step after the first tick.**  What is granted leaves the bucket, and only ticks fill
it. -/
theorem Ticking.after_step (hrate : 0 < rate) (h : Ticking rate b) :
    ∃ b', b.step checks a = .ok b' ∧ Ticking rate b' ∧
      b'.token + b.granted a ≤ b.token + b.ticks checks a * quantity rate := by
  obtain ⟨hrate_eq, hseen, hquantity, hfull, htoken⟩ := h
  cases a with
  | look =>
    refine ⟨_, rfl, ?_, ?_⟩
    · grind [look, Ticking]
    · grind [look, granted]
  | refill loaded =>
    refine ⟨_, rfl, ?_⟩
    have hsum := @addQuantity_le checks b loaded
    constructor
    · grind [refill, fetchUpdate, Ticking]
    · grind [refill, fetchUpdate, granted, ticks]
  | acquire size loaded =>
    refine ⟨_, rfl, ?_, ?_⟩
    · grind [acquire, fetchUpdate, Ticking]
    · grind [acquire, fetchUpdate, granted]

theorem Fresh.after_step (hrate : 0 < rate) (h : Fresh rate b) :
    ∃ b', b.step checks a = .ok b' ∧ (Fresh rate b' ∨ Ticking rate b') := by
  obtain ⟨hrate_eq, hthread, hseen, htoken⟩ := h
  cases a with
  | look =>
    refine ⟨_, rfl, .inr ?_⟩
    grind [look, Ticking]
  | refill loaded =>
    refine ⟨_, rfl, .inl ?_⟩
    grind [refill, Fresh]
  | acquire size loaded =>
    refine ⟨_, rfl, .inl ?_⟩
    grind [acquire, fetchUpdate, Fresh]

/-- **What a run grants.** -/
theorem Ticking.granted_le (hrate : 0 < rate) (h : Ticking rate b) (later : List Action) :
    total (step checks) granted b later ≤
      b.token + total (step checks) (ticks checks) b later * quantity rate := by
  induction later generalizing b with
  | nil => exact Nat.zero_le _
  | cons a later ih =>
    obtain ⟨b', hstep, hticking, hmove⟩ := h.after_step a hrate
    have hrest := ih hticking
    rw [total_cons hstep, total_cons hstep, Nat.add_mul]
    omega

/-- **The bucket bounds what is granted.**  At a fixed rate, the count of tokens is within the
burst in every interleaving, and in each part of one that begins after the store of the
first tick and has `n` ticks, at most the burst and the tokens of `n` ticks are granted. -/
theorem granted_bounded (checks : Bool) (hrate : 0 < rate) (first : List Action) :
    ∃ b, run (step checks) (new (some rate)) first = .ok b ∧
      b.token ≤ quantity rate * burstMultiple ∧
      (b.seen ≠ 0 → ∀ later,
        total (step checks) granted b later ≤ quantity rate * burstMultiple +
          total (step checks) (ticks checks) b later * quantity rate) := by
  have hholds : StatesHold (step checks) (fun b => Fresh rate b ∨ Ticking rate b)
      (new (some rate)) first := by
    refine statesHold_of_invariant ?_ (.inl ⟨rfl, rfl, rfl, rfl⟩) (stepsObey_true _ _)
    rintro b a (hfresh | hticking) -
    · exact hfresh.after_step a hrate
    · obtain ⟨b', hstep, hticking', -⟩ := hticking.after_step a hrate
      exact ⟨b', hstep, .inr hticking'⟩
  obtain ⟨b, hrun, hb⟩ := hholds.run_ok
  refine ⟨b, hrun, ?_⟩
  rcases hb with hfresh | hticking
  · exact ⟨hfresh.token_eq ▸ Nat.zero_le _, fun hseen => absurd hfresh.seen_eq hseen⟩
  · have hle := hticking.full_eq ▸ hticking.token_le
    refine ⟨hle, fun _ later => (hticking.granted_le hrate later).trans ?_⟩
    exact Nat.add_le_add_right hle _

/-- At 20 tokens a second, two calls take 15 and 5 tokens and a third one has to wait for the
next tick. -/
theorem granted_bounded_twenty :
    0 < 20 ∧ ∃ b, run (step true) (new (some 20)) [.look] = .ok b ∧
      total (step true) granted b [.acquire 15 20, .acquire 5 5, .acquire 2 0, .refill 0,
        .acquire 2 2] = 22 ∧
      total (step true) granted b [.acquire 15 20, .acquire 5 5, .acquire 2 0, .refill 0,
        .acquire 2 2] ≤ quantity 20 * burstMultiple + 1 * quantity 20 := by
  obtain ⟨b, hrun, -, hlater⟩ := granted_bounded true (by decide : 0 < 20) [.look]
  obtain rfl : (⟨20, 20, .update, 20, 2, 20⟩ : LeakyBucket) = b := Except.ok.inj hrun
  exact ⟨by decide, _, hrun, by decide, hlater (by decide) _⟩

end LeakyBucket

end ZeroTrace
