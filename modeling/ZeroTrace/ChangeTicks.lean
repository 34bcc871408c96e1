import ZeroTrace.RunInvariants

/-!
# Change detection by ticks

An insert stamps its resource with the tick of the world and moves the tick on.  A call of
the scheduler takes the tick as it finds it, and a system that ran to its end in the call
remembers that one as its last run; one that failed and was kept, and any asynchronous one,
remembers nothing new.  The first write of a run through a guard adds one to the stamp of
its own resource.

A system takes a resource for changed when its stamp is above the system's last run.  Seen
from the past alone, the stamp is as far above the last run as there were inserts since the
call of that run and writes of the resource since its last insert, less the inserts since
(and with) its last insert.  So a system is answered rightly exactly if, whenever it starts,
this count is positive just when the resource has changed, and what changes the resource
while it runs comes late enough by the same count.
-/

namespace ZeroTrace.ChangeTicks

open Runs RustExec Function

variable {R S : Type}

/-- `run`, `run_async` or `run_parallel` takes its tick; a system fetches its parameters;
it drops a guard that it has written through; it returns, with its last run `stored` or not;
or something is inserted, directly or by a command. -/
inductive Event (R S : Type) where
  | call
  | start (sys : S)
  | write (sys : S) (r : R)
  | ends (sys : S) (stored : Bool)
  | insert (r : R)
  deriving DecidableEq

/-- What the scheduler and its world remember.  `mutated` is the flag of the parameter that a
system holds; `past` has what happened, the last event first, and is for the statements. -/
structure World (R S : Type) where
  changeTick : Nat := 3
  changedTick : R → Option Nat := fun _ => none
  lastRun : S → Nat := fun _ => 0
  thisRun : Nat := 3
  mutated : S → R → Bool := fun _ _ => false
  past : List (Event R S) := []

/-- `Res::is_changed`. -/
def isChanged (changedTick lastRun : Nat) : Bool := changedTick > lastRun

/-- `ResMut::is_changed`, with its flag. -/
def isChangedMut (mutated : Bool) (changedTick lastRun : Nat) : Bool :=
  mutated || changedTick > lastRun

variable [DecidableEq R] [DecidableEq S]

namespace World

variable (w : World R S)

/-- What an event does to the ticks and flags. -/
def next : Event R S → World R S
  | .call => { w with thisRun := w.changeTick }
  | .start sys => { w with mutated := update w.mutated sys fun _ => false }
  | .write sys r =>
    { w with
      changedTick := update w.changedTick r
        ((w.changedTick r).map (· + if w.mutated sys r then 0 else 1))
      mutated := update w.mutated sys (update (w.mutated sys) r true) }
  | .ends sys stored =>
    { w with lastRun := if stored then update w.lastRun sys w.thisRun else w.lastRun }
  | .insert r =>
    { w with
      changedTick := update w.changedTick r (some w.changeTick)
      changeTick := w.changeTick + 1 }

def step (event : Event R S) : Exec (World R S) :=
  .ok { w.next event with past := event :: w.past }

end World

/-! ## What happened -/

section Past

variable (sys : S) (r : R)

/-- The system has started and not ended. -/
def running : List (Event R S) → Bool
  | [] => false
  | .start sys' :: past => sys' = sys || running past
  | .ends sys' _ :: past => sys' ≠ sys && running past
  | _ :: past => running past

/-- The others have changed the resource since the system began to run. -/
def byOthers : List (Event R S) → Bool
  | [] => false
  | .start sys' :: past => sys' ≠ sys && byOthers past
  | .write sys' r' :: past => (r' = r && sys' ≠ sys) || byOthers past
  | .insert r' :: past => r' = r || byOthers past
  | .call :: past | .ends _ _ :: past => byOthers past

/-- The resource has changed since the previous run of the system began, apart from what the
system changed then. -/
def changed : List (Event R S) → Bool
  | [] => false
  | .ends sys' _ :: past => if sys' = sys then byOthers sys r past else changed past
  | .write _ r' :: past | .insert r' :: past => r' = r || changed past
  | .call :: past | .start _ :: past => changed past

/-- The system has written the resource since it started. -/
def wrote : List (Event R S) → Bool
  | [] => false
  | .write sys' r' :: past => (sys' = sys && r' = r) || wrote past
  | .start sys' :: past => sys' ≠ sys && wrote past
  | _ :: past => wrote past

def insertsInCall : List (Event R S) → Nat
  | [] => 0
  | .call :: _ => 0
  | .insert _ :: past => insertsInCall past + 1
  | _ :: past => insertsInCall past

/-- Inserts since the call in which the system last ran to its end, if there was one. -/
def insertsSinceRun : List (Event R S) → Option Nat
  | [] => none
  | .ends sys' stored :: past =>
    if sys' = sys ∧ stored = true then some (insertsInCall past) else insertsSinceRun past
  | .insert _ :: past => (insertsSinceRun past).map (· + 1)
  | _ :: past => insertsSinceRun past

/-- Inserts since the last one of the resource, which is counted too. -/
def insertsSinceOwn : List (Event R S) → Nat
  | [] => 0
  | .insert r' :: past => if r' = r then 1 else insertsSinceOwn past + 1
  | _ :: past => insertsSinceOwn past

/-- Writes of the resource since its last insert, the first of each run. -/
def writesSinceOwn : List (Event R S) → Nat
  | [] => 0
  | .insert r' :: past => if r' = r then 0 else writesSinceOwn past
  | .write sys' r' :: past =>
    writesSinceOwn past + if r' = r ∧ wrote sys' r past = false then 1 else 0
  | _ :: past => writesSinceOwn past

attribute [simp] running changed wrote insertsSinceRun insertsSinceOwn writesSinceOwn

/-- By the counts, the resource is stamped above the last run of the system. -/
def Recent (past : List (Event R S)) : Prop :=
  ∀ n ∈ insertsSinceRun sys past, insertsSinceOwn r past < n + writesSinceOwn r past

/-- When the events come, by what was inserted and written before them.

* When the system starts, the inserts since the call of its last run and the writes of the
  resource outnumber the inserts since the last one of the resource, exactly if this has
  changed since the previous run began.
* While it runs, an insert of the resource comes behind another insert since that call.
* While it runs, they outnumber the latter with each write by another system.

The last two are not asked for a system that has written the resource itself in its run. -/
def Timely (past : List (Event R S)) : Event R S → Prop
  | .call | .ends _ _ => True
  | .start sys' => sys' = sys → .insert r ∈ past →
    (Recent sys r past ↔ changed sys r past = true)
  | .insert r' => r' = r → running sys past = true → wrote sys r past = false →
    ∀ n ∈ insertsSinceRun sys past, 0 < n
  | .write sys' r' => r' = r → sys' ≠ sys → running sys past = true → wrote sys r past = false →
    .insert r ∈ past → ∀ n ∈ insertsSinceRun sys past, insertsSinceOwn r past <
      n + writesSinceOwn r past + if wrote sys' r past then 0 else 1

/-- A system that runs and looks at a resource sees what happened.  What `Res` looks at is read
when the system starts. -/
def Exact (w : World R S) : Prop :=
  running sys w.past = true → ∀ tick ∈ w.changedTick r,
    isChangedMut (w.mutated sys r) tick (w.lastRun sys) = changed sys r w.past ∧
      (w.past.head? = some (.start sys) →
        isChanged tick (w.lastRun sys) = changed sys r w.past)

end Past

/-! ## What the ticks count -/

/-- The ticks, seen from the past. -/
structure Counts (w : World R S) : Prop where
  positive : 0 < w.changeTick
  thisRun : w.thisRun + insertsInCall w.past = w.changeTick
  lastRun : ∀ sys, match insertsSinceRun sys w.past with
    | none => w.lastRun sys = 0
    | some n => w.lastRun sys + n = w.changeTick
  present : ∀ r, w.changedTick r = none ↔ .insert r ∉ w.past
  stamp : ∀ r, ∀ tick ∈ w.changedTick r,
    0 < tick ∧ tick + insertsSinceOwn r w.past = w.changeTick + writesSinceOwn r w.past
  mutated : ∀ sys r, w.mutated sys r = wrote sys r w.past

variable {sys : S} {r : R} {w w' : World R S}

theorem Counts.next (h : Counts w) (event : Event R S) :
    Counts { w.next event with past := event :: w.past } := by
  obtain ⟨hpositive, hthis, hlast, hpresent, hstamp, hmutated⟩ := h
  cases event with
  | call => exact ⟨hpositive, rfl, hlast, fun r => (hpresent r).trans (by simp), hstamp, hmutated⟩
  | start sys =>
    refine ⟨hpositive, hthis, hlast, fun r => (hpresent r).trans (by simp), hstamp,
      fun sys' r => ?_⟩
    dsimp only [World.next, wrote]
    rw [← hmutated]
    by_cases hsys : sys' = sys
    · simp [hsys]
    · simp [hsys, Ne.symm hsys]
  | write sys r =>
    refine ⟨hpositive, hthis, hlast, fun r' => ?_, fun r' tick htick => ?_, fun sys' r' => ?_⟩
    · by_cases hr : r' = r
      · subst hr
        simpa [World.next] using hpresent r'
      · simpa [World.next, update_of_ne hr] using hpresent r'
    · dsimp only [World.next, insertsSinceOwn, writesSinceOwn] at htick ⊢
      by_cases hr : r' = r
      · subst hr
        rw [update_self, Option.mem_map] at htick
        obtain ⟨old, hold, rfl⟩ := htick
        have hcount := hstamp r' old hold
        rw [hmutated]
        cases wrote sys r' w.past <;> simp <;> omega
      · rw [update_of_ne hr] at htick
        simpa [Ne.symm hr] using hstamp r' tick htick
    · dsimp only [World.next, wrote]
      rw [← hmutated]
      by_cases hsys : sys' = sys
      · subst hsys
        by_cases hr : r' = r
        · simp [hr]
        · simp [hr, Ne.symm hr]
      · simp [hsys, Ne.symm hsys]
  | ends sys stored =>
    refine ⟨hpositive, hthis, fun sys' => ?_, fun r => (hpresent r).trans (by simp), hstamp,
      hmutated⟩
    dsimp only [World.next, insertsSinceRun]
    have hold := hlast sys'
    cases stored with
    | false => simpa using hold
    | true =>
      by_cases hsys : sys' = sys
      · simpa [hsys] using hthis
      · simpa [hsys, Ne.symm hsys] using hold
  | insert r =>
    refine ⟨Nat.succ_pos _, ?_, fun sys => ?_, fun r' => ?_, fun r' tick htick => ?_, hmutated⟩
    · dsimp only [World.next, insertsInCall]
      omega
    · dsimp only [World.next, insertsSinceRun]
      have hold := hlast sys
      cases hrun : insertsSinceRun sys w.past with
      | none => simpa [hrun] using hold
      | some n =>
        rw [hrun] at hold
        exact congrArg (· + 1) hold
    · by_cases hr : r' = r
      · simp [World.next, hr]
      · simpa [World.next, update_of_ne hr, hr] using hpresent r'
    · dsimp only [World.next, insertsSinceOwn, writesSinceOwn] at htick ⊢
      by_cases hr : r' = r
      · subst hr
        rw [update_self] at htick
        cases htick
        simpa using hpositive
      · rw [update_of_ne hr] at htick
        have hcount := hstamp r' tick htick
        rw [if_neg (Ne.symm hr), if_neg (Ne.symm hr)]
        omega

theorem Counts.recent_iff (h : Counts w) {tick : Nat} (htick : tick ∈ w.changedTick r) :
    w.lastRun sys < tick ↔ Recent sys r w.past := by
  obtain ⟨hpositive, hcount⟩ := h.stamp r tick htick
  have hlast := h.lastRun sys
  unfold Recent
  cases hrun : insertsSinceRun sys w.past with
  | none =>
    rw [hrun] at hlast
    simpa [hlast] using hpositive
  | some n =>
    rw [hrun] at hlast
    simp
    omega

/-- What a system sees while it runs is right, by the past alone. -/
def Right (sys : S) (r : R) (past : List (Event R S)) : Prop :=
  running sys past = true → .insert r ∈ past →
    (wrote sys r past = true ∨ Recent sys r past ↔ changed sys r past = true)

theorem wrote_of_head {past : List (Event R S)} (h : past.head? = some (.start sys)) :
    wrote sys r past = false := by
  obtain ⟨past, rfl⟩ := List.head?_eq_some_iff.mp h
  simp

theorem Counts.exact_iff (h : Counts w) : Exact sys r w ↔ Right sys r w.past := by
  unfold Exact Right
  refine imp_congr_right fun _ => ?_
  cases htick : w.changedTick r with
  | none => simp [(h.present r).mp htick]
  | some tick =>
    have hin : .insert r ∈ w.past := by
      by_contra hnot
      simp [(h.present r).mpr hnot] at htick
    simp only [Option.mem_def, Option.some.injEq, forall_eq', hin, forall_const, isChangedMut,
      isChanged, gt_iff_lt]
    rw [h.mutated, ← h.recent_iff htick, Bool.eq_iff_iff, Bool.or_eq_true, decide_eq_true_eq]
    refine ⟨fun hexact => hexact.1, fun hright => ⟨hright, fun hhead => ?_⟩⟩
    rw [Bool.eq_iff_iff, decide_eq_true_eq, ← hright, wrote_of_head hhead]
    simp

/-- From a past with which the system is right, one event leads to another exactly when it is
timely. -/
theorem Right.cons {past : List (Event R S)} (h : Right sys r past) (event : Event R S) :
    Right sys r (event :: past) ↔ Timely sys r past event := by
  unfold Right Recent at *
  simp only [Option.mem_def] at h ⊢
  cases event with
  | call => exact iff_of_true (fun hrun hin => h hrun (by simpa using hin)) trivial
  | start sys' =>
    by_cases hsys : sys' = sys
    · simp [Timely, Recent, hsys]
    · simpa [Timely, hsys] using h
  | insert r' =>
    by_cases hr : r' = r
    · subst hr
      simp [Timely]
      grind
    · simp [Timely, hr, Ne.symm hr]
      grind
  | write sys' r' =>
    by_cases hr : r' = r
    · subst hr
      by_cases hsys : sys' = sys
      · simp [Timely, hsys]
      · simp [Timely, hsys]
        grind
    · simpa [Timely, hr] using h
  | ends sys' stored =>
    by_cases hsys : sys' = sys
    · simp [Timely, hsys]
    · simpa [Timely, hsys] using h

end ZeroTrace.ChangeTicks
