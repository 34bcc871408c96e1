import Mathlib.Logic.Function.Basic

/-!
# The configuration repository

A `ConfigRepo` keeps the world's value in step with a source that others write.
Its constructor reads the content and then the modification time, `check` reads
the time and then the content, and the source may be written between the two
reads.  A check that finds the time it remembers reads no content.

The order of `check` is safe: the content is of the time that is remembered or
of a later one, and after a later write the times differ.  The order of the
constructor is not: a write between its two reads leaves it with the old content
and the new time, and no check looks again until the next write.
-/

namespace ZeroTrace.ConfigBus

/-- What is written: a content and its modification time. -/
structure Write (C T : Type) where
  content : C
  mtime : T

/-- The source, with the times of what it held before. -/
structure Source (C T : Type) extends Write C T where
  past : List T := []

/-- A `ConfigRepo` with its source and the world's value; `held` is the content
that the value was parsed from. -/
structure Repo (C T V H : Type) where
  source : Source C T
  lastMtime : Option T
  lastHash : H
  value : V
  held : C

/-- What the file system answers to the two reads, and what is written between
them. -/
structure Reads (C T : Type) where
  mtimeReadable : Bool := true
  between : List (Write C T) := []
  contentReadable : Bool := true

variable {C T V H : Type}

namespace Source

variable (source : Source C T)

/-- The source is written. -/
def write (w : Write C T) : Source C T where
  toWrite := w
  past := source.mtime :: source.past

/-- `last_modified`, where the time can be read. -/
def lastModified (readable : Bool) : Option T := if readable then some source.mtime else none

def times : List T := source.mtime :: source.past

/-- Every write has a modification time of its own. -/
def Fresh (source : Source C T) : List (Write C T) → Prop
  | [] => True
  | w :: ws => w.mtime ∉ source.times ∧ (source.write w).Fresh ws

variable {source} {ws ws' : List (Write C T)} {t : T}

theorem fresh_append :
    source.Fresh (ws ++ ws') ↔ source.Fresh ws ∧ (ws.foldl write source).Fresh ws' := by
  induction ws generalizing source with
  | nil => exact (and_iff_right trivial).symm
  | cons w ws ih => exact (and_congr_right' ih).trans and_assoc.symm

theorem times_foldl (ht : t ∈ source.times) : t ∈ (ws.foldl write source).times := by
  induction ws generalizing source with
  | nil => exact ht
  | cons w ws ih => exact ih (List.mem_cons_of_mem _ ht)

theorem lastModified_mem {readable : Bool} (ht : t ∈ source.lastModified readable) :
    t = source.mtime := by
  cases readable with
  | true => exact (Option.some.inj ht).symm
  | false => cases ht

end Source

variable (hash : C → H) (parse : C → Option V)

def fromSource (source : Source C T) (reads : Reads C T) : Option (Repo C T V H) :=
  if reads.contentReadable then
    (parse source.content).map fun value =>
      let later := reads.between.foldl Source.write source
      { source := later, lastMtime := later.lastModified reads.mtimeReadable
        lastHash := hash source.content, value, held := source.content }
  else none

/-- The value and the hash are those of the content that was read, and this is
the source's while the time that is remembered is the source's. -/
structure Repo.Current (repo : Repo C T V H) : Prop where
  parsed : parse repo.held = some repo.value
  hashed : repo.lastHash = hash repo.held
  known : ∀ t ∈ repo.lastMtime, t ∈ repo.source.times
  current : repo.lastMtime = some repo.source.mtime → repo.held = repo.source.content

section Writes

variable {hash parse} {repo : Repo C T V H} {ws : List (Write C T)}

theorem Repo.Current.write (h : repo.Current hash parse) {w : Write C T}
    (hw : w.mtime ∉ repo.source.times) :
    { repo with source := repo.source.write w }.Current hash parse where
  parsed := h.parsed
  hashed := h.hashed
  known t ht := List.mem_cons_of_mem _ (h.known t ht)
  current hlast := absurd (h.known _ hlast) hw

theorem Repo.Current.writes (h : repo.Current hash parse) (hws : repo.source.Fresh ws) :
    { repo with source := ws.foldl Source.write repo.source }.Current hash parse := by
  induction ws generalizing repo with
  | nil => exact h
  | cons w ws ih => exact ih (h.write hws.1) hws.2

end Writes

variable [DecidableEq T] [DecidableEq H]

/-- `check`: the repository, and whether there was a change, unless a read or the
parse has failed. -/
def check (repo : Repo C T V H) (reads : Reads C T) : Repo C T V H × Option Bool :=
  let curMtime := repo.source.lastModified reads.mtimeReadable
  let later := { repo with source := reads.between.foldl Source.write repo.source }
  if curMtime.isSome ∧ curMtime = repo.lastMtime then (later, some false)
  else if !reads.contentReadable then (later, none)
  else if hash later.source.content = repo.lastHash then
    ({ later with lastMtime := curMtime }, some false)
  else
    match parse later.source.content with
    | none => (later, none)
    | some value =>
      ({ later with
          lastMtime := curMtime, lastHash := hash later.source.content, value
          held := later.source.content }, some true)

/-- What happens to a repository: the source is written, or checked. -/
inductive Event (C T : Type)
  | write (w : Write C T)
  | check (reads : Reads C T)

def Event.writes : Event C T → List (Write C T)
  | .write w => [w]
  | .check reads => reads.between

/-- One event. -/
def Repo.step (repo : Repo C T V H) : Event C T → Repo C T V H
  | .write w => { repo with source := repo.source.write w }
  | .check reads => (check hash parse repo reads).1

variable {hash parse} {repo : Repo C T V H} {reads : Reads C T}

theorem source_check :
    (check hash parse repo reads).1.source = reads.between.foldl Source.write repo.source := by
  fun_cases check hash parse repo reads with
  | case1 | case2 | case3 | case4 | case5 => rfl

section Check

variable (hhash : Function.Injective hash) (h : repo.Current hash parse)
include hhash h

theorem Repo.Current.check (hfresh : repo.source.Fresh reads.between) :
    (check hash parse repo reads).1.Current hash parse := by
  have hlater := h.writes hfresh
  have hknown : ∀ t ∈ repo.source.lastModified reads.mtimeReadable,
      t ∈ (reads.between.foldl Source.write repo.source).times := fun t ht =>
    Source.times_foldl (Source.lastModified_mem ht ▸ List.mem_cons_self)
  fun_cases ConfigBus.check hash parse repo reads with
  | case1 | case2 | case4 => exact hlater
  | case3 curMtime later _ _ hsame =>
    have hheld : repo.held = later.source.content := (hhash (hsame.trans h.hashed)).symm
    exact ⟨h.parsed, h.hashed, hknown, fun _ => hheld⟩
  | case5 curMtime later _ _ _ value hparse => exact ⟨hparse, rfl, hknown, fun _ => rfl⟩

/-- A check that succeeds while nothing is written finds out whether the value is
that of the source's content, and sees to it that it is. -/
theorem Repo.Current.held_check (hquiet : reads.between = []) {changed : Bool}
    (hok : (ConfigBus.check hash parse repo reads).2 = some changed) :
    (ConfigBus.check hash parse repo reads).1.held = repo.source.content ∧
      (changed = true ↔ repo.held ≠ repo.source.content) := by
  have hsource : reads.between.foldl Source.write repo.source = repo.source := by rw [hquiet]; rfl
  revert hok
  fun_cases ConfigBus.check hash parse repo reads with
  | case1 curMtime later hskip =>
    rintro ⟨⟩
    obtain ⟨t, ht⟩ := Option.isSome_iff_exists.mp hskip.1
    have hheld : repo.held = repo.source.content := by
      refine h.current (hskip.2.symm.trans (ht.trans ?_))
      rw [Source.lastModified_mem ht]
    exact ⟨hheld, by simp [hheld]⟩
  | case2 | case4 => rintro ⟨⟩
  | case3 curMtime later _ _ hsame =>
    rintro ⟨⟩
    have hheld : repo.held = repo.source.content := by
      rw [← hsource]
      exact (hhash (hsame.trans h.hashed)).symm
    exact ⟨hheld, by simp [hheld]⟩
  | case5 curMtime later _ _ hother value hparse =>
    rintro ⟨⟩
    refine ⟨congrArg (·.content) hsource, ?_⟩
    simp only [true_iff]
    intro hheld
    apply hother
    rw [h.hashed, hheld, ← hsource]

theorem Repo.Current.run {events : List (Event C T)}
    (hfresh : repo.source.Fresh (events.flatMap Event.writes)) :
    (events.foldl (step hash parse) repo).Current hash parse := by
  induction events generalizing repo with
  | nil => exact h
  | cons event events ih =>
    rw [List.flatMap_cons, Source.fresh_append] at hfresh
    cases event with
    | write w => exact ih (h.write hfresh.1.1) hfresh.2
    | check reads =>
      refine ih (h.check hhash hfresh.1) ?_
      rw [step, source_check]
      exact hfresh.2

end Check

/-- **No update is missed.** If the writes between the two reads of the
constructor leave the content as it was read, then after every run a check that
succeeds, and during which nothing is written, leaves the value parsed from the
source's content, and reports a change if and only if the value was not of this
content before. -/
theorem check_current (hhash : Function.Injective hash) (source : Source C T)
    (opening reads : Reads C T) (events : List (Event C T))
    (hnew : fromSource hash parse source opening = some repo)
    (hopening : (opening.between.foldl Source.write source).content = source.content)
    (hfresh : source.Fresh (opening.between ++ events.flatMap Event.writes))
    (hquiet : reads.between = []) {changed : Bool}
    (hok : (check hash parse (events.foldl (Repo.step hash parse) repo) reads).2 = some changed) :
    let last := events.foldl (Repo.step hash parse) repo
    parse last.source.content = some (check hash parse last reads).1.value ∧
      (changed = true ↔ last.held ≠ last.source.content) := by
  rw [Source.fresh_append] at hfresh
  have hfirst : repo.Current hash parse ∧
      repo.source = opening.between.foldl Source.write source := by
    unfold fromSource at hnew
    split at hnew
    · obtain ⟨value, hparse, rfl⟩ := Option.map_eq_some_iff.mp hnew
      refine ⟨⟨hparse, rfl, fun t ht => ?_, fun _ => hopening.symm⟩, rfl⟩
      exact Source.lastModified_mem ht ▸ List.mem_cons_self
    · cases hnew
  have hlast := hfirst.1.run hhash (hfirst.2 ▸ hfresh.2)
  obtain ⟨hheld, hchanged⟩ := hlast.held_check hhash hquiet hok
  refine ⟨?_, hchanged⟩
  rw [← hheld]
  exact (hlast.check hhash (hquiet ▸ trivial)).parsed

/-- The source is written, and checked. -/
theorem check_current_written :
    let last := [Event.write ⟨2, 1⟩].foldl (Repo.step id some) ⟨⟨⟨1, 0⟩, []⟩, some 0, 1, 1, 1⟩
    (check id some last {}).2 = some true ∧
      some last.source.content = some (check id some last {}).1.value ∧
        (true = true ↔ last.held ≠ last.source.content) :=
  ⟨rfl, check_current Function.injective_id ⟨⟨1, 0⟩, []⟩ {} {} [.write ⟨2, 1⟩] rfl rfl
    ⟨by decide, trivial⟩ rfl rfl⟩

/-- The source is written between the two reads of the constructor: the check
that follows reports nothing and leaves the value of the old content. -/
theorem write_in_constructor_missed :
    (fromSource id some ⟨⟨1, 0⟩, []⟩ { between := [⟨2, 1⟩] }).map
        (fun repo => ((check id some repo {}).2, (check id some repo {}).1.value,
          repo.source.content)) = some (some false, 1, 2) := rfl

end ZeroTrace.ConfigBus
