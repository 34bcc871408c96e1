import ZeroTrace.FastPathFlush

/-!
# What a lookup of the fast path works on

A queue whose flag is down has maps with tables, and entries computed from tables, that are
no older than those with which its flag was last raised.  This stays so as long as a flush
finds lowered flags and as no flag is raised while a lookup has mapped its ports and not yet
added its policy.
-/

namespace ZeroTrace.Policy.Flush

open RustExec Lru Lru.Crate Runs Option Stamps Bool Function FastPathMap Nat

theorem Stamps.le_refl (a : Stamps) : a ≤ a := ⟨Nat.le_refl _, Nat.le_refl _⟩

theorem Stamps.le_trans {a b c : Stamps} (h : a ≤ b) (h' : b ≤ c) : a ≤ c :=
  ⟨Nat.le_trans h.1 h'.1, Nat.le_trans h.2 h'.2⟩

section

variable [Crate] {Key K P E : Type} {queue queue' : Queue Key K P E} {shared : Shared} {i : Nat}

/-- What is stored for a key was computed from tables no older than these. -/
structure PolicyTableItem.Fresh (st : Stamps) (item : PolicyTableItem P E) : Prop where
  store : st ≤ item.store.origin
  policies : ∀ proto policy, item.protocolTable proto = some policy → st ≤ policy.origin

namespace Queue

theorem tables_setTable (queue : Queue Key K P E) (i : Nat) (map : FastPathMap K P E) (t : Nat) :
    (queue.setTable i map).tables t = if t = i then some map else queue.tables t :=
  update_apply queue.tables i (some map) t

theorem range_setTable (h : ∀ t, maxTapType ≤ t → queue.tables t = none)
    (hi : i < maxTapType) (map : FastPathMap K P E) :
    ∀ t, maxTapType ≤ t → (queue.setTable i map).tables t = none := by
  intro t ht
  rw [tables_setTable, if_neg (by omega)]
  exact h t ht

/-- What a step of a queue leaves alone. -/
structure Keeps (queue queue' : Queue Key K P E) : Prop where
  due : queue'.due = queue.due
  handed : queue.flag = false → queue'.flag = false ∧ queue'.cache = queue.cache

theorem Keeps.of_eq (hflag : queue'.flag = queue.flag := by rfl)
    (hcache : queue'.cache = queue.cache := by rfl) (hdue : queue'.due = queue.due := by rfl) :
    queue.Keeps queue' :=
  ⟨hdue, fun h => ⟨hflag.trans h, hcache⟩⟩

theorem Keeps.of_raised (hflag : queue.flag = true) (hdue : queue'.due = queue.due) :
    queue.Keeps queue' :=
  ⟨hdue, fun h => absurd (h.symm.trans hflag) false_ne_true⟩

end Queue

/-- What a flush on its way has done for a queue. -/
def Serving (shared : Shared) (q : Nat) (queue : Queue Key K P E) : Prop :=
  match shared.updater with
  | .idle => True
  | .caching p =>
    q < p → queue.flag = false ∧ queue.cache = some (shared.interestTable, shared.netmaskTable)
  | .flagging p =>
    (p ≤ q → queue.flag = false ∧
      queue.cache = some (shared.interestTable, shared.netmaskTable)) ∧
    (q < p → queue.due = shared.stamps)

theorem Serving.keeps {q : Nat} (h : Serving shared q queue) (hkeeps : queue.Keeps queue') :
    Serving shared q queue' := by
  unfold Serving at h ⊢
  have hhanded : queue.flag = false ∧
      queue.cache = some (shared.interestTable, shared.netmaskTable) →
      queue'.flag = false ∧ queue'.cache = some (shared.interestTable, shared.netmaskTable) := by
    rintro ⟨hflag, hcache⟩
    obtain ⟨hflag', hcache'⟩ := hkeeps.handed hflag
    exact ⟨hflag', hcache'.trans hcache⟩
  split at h
  · trivial
  · exact fun hp => hhanded (h hp)
  · exact ⟨fun hp => hhanded (h.1 hp), fun hp => hkeeps.due.trans (h.2 hp)⟩

theorem queues_setQueue (s : State Key K P E) (p : Nat) (queue : Queue Key K P E) (q : Nat) :
    (s.setQueue p queue).queues q = if q = p then queue else s.queues q :=
  update_apply s.queues p queue q

variable [DecidableEq K]

/-- A map has tables no older than these, and no entry from older ones. -/
structure FastPathMap.Fresh (st : Stamps) (map : FastPathMap K P E) : Prop where
  tables : st ≤ ⟨map.interestTable.stamp, map.netmaskTable.stamp⟩
  entries : ∀ key item, map.policyTable.peek key = some item → item.Fresh st

variable {map : FastPathMap K P E}

theorem FastPathMap.Fresh.mono {st st' : Stamps} (h : map.Fresh st) (hle : st' ≤ st) :
    map.Fresh st' where
  tables := le_trans hle h.tables
  entries key item hitem :=
    have hfresh := h.entries key item hitem
    ⟨le_trans hle hfresh.store,
      fun proto policy hpolicy => le_trans hle (hfresh.policies proto policy hpolicy)⟩

variable {st : Stamps} {interestTable : Written InterestTable} {netmaskTable : Written NetmaskTable}

theorem FastPathMap.fresh_clear (map : FastPathMap K P E)
    (h : st ≤ ⟨interestTable.stamp, netmaskTable.stamp⟩) :
    (map.clear interestTable netmaskTable).Fresh st where
  tables := h
  entries key item hitem := by
    rw [FastPathMap.clear, LruCache.peek_new] at hitem
    cases hitem

theorem FastPathMap.fresh_new (h : st ≤ ⟨interestTable.stamp, netmaskTable.stamp⟩) (mapSize : Nat) :
    (new interestTable netmaskTable mapSize : FastPathMap K P E).Fresh st where
  tables := h
  entries key item hitem := by
    rw [FastPathMap.new, LruCache.peek_new] at hitem
    cases hitem

variable {rules : Rules Key K P E} {l : Lookup Key}

theorem FastPathMap.Fresh.getPolicy (h : map.Fresh st) (key : Key) :
    (map.getPolicy rules key).2.1.Fresh st := by
  unfold FastPathMap.getPolicy LruCache.get
  dsimp only
  cases hpeek : map.policyTable.peek
      (rules.generateMapKey map.netmaskTable.value
        (rules.interestTableMap map.interestTable.value key)) with
  | none => exact h
  | some item =>
    refine ⟨h.tables, fun k i hi => ?_⟩
    rcases LruCache.peek_place_cases hi with ⟨rfl, rfl⟩ | hold
    · exact h.entries _ _ hpeek
    · exact h.entries k i hold

theorem FastPathMap.fresh_putPolicy {table : LruCache (K × K) (PolicyTableItem P E)}
    (h : ∀ key item, table.peek key = some item → item.Fresh st) (key : K × K) (proto : Nat)
    {policy : Computed P} {endpoints : Computed E} (hpolicy : st ≤ policy.origin)
    (hendpoints : st ≤ endpoints.origin) :
    ∀ key' item, (putPolicy table key proto policy endpoints).peek key' = some item →
      item.Fresh st := by
  have hupdate : ∀ protocols : Nat → Option (Computed P),
      (∀ p q, protocols p = some q → st ≤ q.origin) →
      ∀ p q, update protocols proto (some policy) p = some q → st ≤ q.origin := by
    intro protocols hold p q hq
    by_cases hp : p = proto
    · rw [hp, update_self] at hq
      exact Option.some.inj hq ▸ hpolicy
    · rw [update_of_ne hp] at hq
      exact hold p q hq
  intro key' item hitem
  unfold putPolicy at hitem
  cases hpeek : table.peek key with
  | none =>
    rw [hpeek] at hitem
    rcases LruCache.peek_place_cases hitem with ⟨-, rfl⟩ | hold
    · exact ⟨hendpoints, hupdate _ nofun⟩
    · exact h key' item hold
  | some old =>
    rw [hpeek] at hitem
    have hfresh := h key old hpeek
    rcases LruCache.peek_place_cases hitem with ⟨-, rfl⟩ | hold
    · exact ⟨hfresh.store, hupdate _ hfresh.policies⟩
    · exact h key' item hold

/-- The ports of a lookup have not been mapped by an older table. -/
def Lookup.MappedSince (st : Stamps) (lookup : Lookup Key) : Prop :=
  ∀ stamp, lookup.mapped = some stamp → st.interest ≤ stamp

theorem FastPathMap.Fresh.addPolicy (h : map.Fresh st) {lookup : Lookup Key}
    (hmapped : lookup.MappedSince st) (policy : P) (endpoints : E) :
    (map.addPolicy rules lookup.key lookup.mapped policy endpoints).Fresh st := by
  have horigin : st ≤ ⟨min map.interestTable.stamp (lookup.mapped.getD map.interestTable.stamp),
      map.netmaskTable.stamp⟩ := by
    refine ⟨Nat.le_min.mpr ⟨h.tables.1, ?_⟩, h.tables.2⟩
    cases hm : lookup.mapped with
    | none => exact h.tables.1
    | some stamp => exact hmapped stamp hm
  unfold FastPathMap.addPolicy
  dsimp only
  split
  · exact ⟨h.tables, fresh_putPolicy h.entries _ _ horigin horigin⟩
  · exact ⟨h.tables,
      fresh_putPolicy (fresh_putPolicy h.entries _ _ horigin horigin) _ _ horigin horigin⟩

namespace Queue

variable {st' : Stamps}

def AllFresh (st : Stamps) (queue : Queue Key K P E) : Prop :=
  ∀ t map, queue.tables t = some map → map.Fresh st

theorem AllFresh.mono (h : queue.AllFresh st) (hle : st' ≤ st) : queue.AllFresh st' :=
  fun t map hmap => (h t map hmap).mono hle

theorem AllFresh.setTable (h : queue.AllFresh st) (hmap : map.Fresh st) :
    (queue.setTable i map).AllFresh st := by
  intro t m hm
  rw [tables_setTable] at hm
  split at hm
  · exact Option.some.inj hm ▸ hmap
  · exact h t m hm

/-- What holds of a lookup at its place in the code. -/
def PhaseOk (queue : Queue Key K P E) : Prop :=
  match queue.phase with
  | .idle => True
  | .checking l call =>
    l.published ≤ queue.due ∧ l.tapType < maxTapType ∧
      match call with
      | .get => l.mapped = none
      | .add _ _ => queue.flag = false → l.MappedSince queue.due
  | .clearing l _ i =>
    l.published ≤ queue.due ∧ l.tapType < maxTapType ∧ l.mapped = none ∧ queue.flag = true ∧
      ∀ t, t < i → ∀ map, queue.tables t = some map → map.Fresh queue.due
  | .clearingWith l _ i interestTable =>
    l.published ≤ queue.due ∧ l.tapType < maxTapType ∧ l.mapped = none ∧ queue.flag = true ∧
      (∀ t, t < i → ∀ map, queue.tables t = some map → map.Fresh queue.due) ∧
      queue.due.interest ≤ interestTable.stamp ∧ i < maxTapType ∧ queue.tables i ≠ none
  | .ensuring l _ =>
    l.published ≤ queue.due ∧ l.tapType < maxTapType ∧ queue.AllFresh l.published ∧
      (queue.flag = false → l.MappedSince queue.due)
  | .creating l _ interestTable =>
    l.published ≤ queue.due ∧ l.tapType < maxTapType ∧ queue.AllFresh l.published ∧
      (queue.flag = false → l.MappedSince queue.due) ∧
      l.published.interest ≤ interestTable.stamp ∧
      (queue.flag = false → queue.due.interest ≤ interestTable.stamp)
  | .working l _ _ =>
    l.published ≤ queue.due ∧ l.tapType < maxTapType ∧ queue.AllFresh l.published ∧
      (queue.flag = false → l.MappedSince queue.due) ∧ queue.tables l.tapType ≠ none
  | .computing l =>
    l.published ≤ queue.due ∧ l.tapType < maxTapType ∧
      (queue.flag = false → l.MappedSince queue.due)

/-- **The invariant of a queue.** -/
structure Ok (shared : Shared) (queue : Queue Key K P E) : Prop where
  published : shared.published ≤ queue.due
  due : queue.due ≤ shared.stamps
  cache : ∀ interestTable netmaskTable, queue.cache = some (interestTable, netmaskTable) →
    queue.due ≤ ⟨interestTable.stamp, netmaskTable.stamp⟩
  range : ∀ t, maxTapType ≤ t → queue.tables t = none
  clean : queue.flag = false → queue.AllFresh queue.due
  phase : queue.PhaseOk

/-- A lookup finds its flag lowered when it comes to add a policy under ports that have been
mapped. -/
def Clear (queue : Queue Key K P E) : Prop :=
  match queue.phase with
  | .checking l (.add _ _) => queue.flag = false ∨ l.mapped = none
  | _ => True

omit [Crate] in
theorem mappedSince_of_none (h : l.mapped = none) (st : Stamps) :
    l.MappedSince st := fun stamp hstamp =>
  absurd (hstamp.symm.trans h) (some_ne_none stamp)

theorem Ok.goto (h : queue.Ok shared) {phase : Phase Key P E}
    (hphase : { queue with phase := phase }.PhaseOk) : { queue with phase := phase }.Ok shared :=
  ⟨h.published, h.due, h.cache, h.range, h.clean, hphase⟩

theorem Ok.setTable (h : queue.Ok shared) {phase : Phase Key P E} (hi : i < maxTapType)
    (hmap : queue.flag = false → map.Fresh queue.due)
    (hphase : { queue.setTable i map with phase := phase }.PhaseOk) :
    { queue.setTable i map with phase := phase }.Ok shared :=
  ⟨h.published, h.due, h.cache, range_setTable h.range hi map,
    fun hflag => (h.clean hflag).setTable (hmap hflag), hphase⟩

theorem Ok.work (rules : Rules Key K P E) (h : queue.Ok shared) {call : Call P E}
    {created : Bool} (hphase : queue.phase = .working l call created) :
    ∃ queue', queue.work rules l created call = .ok queue' ∧ queue'.Ok shared ∧
      queue'.flag = queue.flag ∧ queue'.cache = queue.cache ∧ queue'.due = queue.due := by
  have hok := h.phase
  unfold PhaseOk at hok
  rw [hphase] at hok
  obtain ⟨hl, htap, hall, hmapped, hsome⟩ := hok
  obtain ⟨map, hmap⟩ := ne_none_iff_exists'.mp hsome
  have hunwrap : unwrap (queue.tables l.tapType) = .ok map := congrArg unwrap hmap
  cases call with
  | get =>
    cases created with
    | true => exact ⟨_, rfl, h.goto ⟨hl, htap, hmapped⟩, rfl, rfl, rfl⟩
    | false =>
      have hgot : queue.flag = false → (map.getPolicy rules l.key).2.1.Fresh queue.due :=
        fun hflag => (h.clean hflag _ _ hmap).getPolicy l.key
      rw [Queue.work, if_neg Bool.false_ne_true, hunwrap, ok_bind]
      rcases hget : map.getPolicy rules l.key with ⟨_ | answer, map', key⟩
      · rw [hget] at hgot
        refine ⟨_, rfl, h.setTable htap hgot ⟨hl, htap, ?_⟩, rfl, rfl, rfl⟩
        rintro hflag stamp hstamp
        obtain rfl := Option.some.inj hstamp
        exact (h.clean hflag _ _ hmap).tables.1
      · rw [hget] at hgot
        exact ⟨_, rfl, h.setTable htap hgot trivial, rfl, rfl, rfl⟩
  | add policy endpoints =>
    rw [Queue.work, hunwrap, ok_bind]
    refine ⟨_, rfl, h.setTable htap ?_ trivial, rfl, rfl, rfl⟩
    intro hflag
    exact (h.clean hflag _ _ hmap).addPolicy (hmapped hflag) policy endpoints

theorem fresh_below_succ (hmap : map.Fresh st)
    (h : ∀ t, t < i → ∀ m, queue.tables t = some m → m.Fresh st) :
    ∀ t, t < i + 1 → ∀ m, (queue.setTable i map).tables t = some m → m.Fresh st := by
  intro t ht m hm
  rw [tables_setTable] at hm
  split at hm
  · exact Option.some.inj hm ▸ hmap
  · exact h t (by omega) m hm

/-- **A step of a lookup.** -/
theorem Ok.next (h : queue.Ok shared) (hclear : queue.Clear) (mapSize : Nat) :
    ∃ queue', queue.next rules mapSize shared = .ok queue' ∧ queue'.Ok shared ∧
      queue.Keeps queue' := by
  obtain ⟨flag, cache, tables, phase, due⟩ := queue
  cases phase with
  | working l call created =>
    obtain ⟨queue', hwork, hok, hflag, hcache, hdue⟩ := h.work rules rfl
    exact ⟨queue', hwork, hok, .of_eq hflag hcache hdue⟩
  | checking l call =>
    obtain ⟨hl, htap, hcall⟩ := h.phase
    cases flag with
    | true =>
      have hmapped : l.mapped = none := by
        cases call with
        | get => exact hcall
        | add policy endpoints => exact hclear.resolve_left false_ne_true.symm
      exact ⟨_, rfl, h.goto ⟨hl, htap, hmapped, rfl, nofun⟩, .of_eq⟩
    | false =>
      have hmapped : l.MappedSince due := by
        cases call with
        | get => exact mappedSince_of_none hcall due
        | add policy endpoints => exact hcall rfl
      exact ⟨_, rfl, h.goto ⟨hl, htap, AllFresh.mono (h.clean rfl) hl, fun _ => hmapped⟩, .of_eq⟩
  | clearing l call i =>
    obtain ⟨hl, htap, hmapped, hflag, hbelow⟩ := h.phase
    obtain rfl : flag = true := hflag
    unfold Queue.next
    dsimp only
    split_ifs with hi
    · cases hmap : tables i with
      | none =>
        refine ⟨_, rfl, h.goto ⟨hl, htap, hmapped, rfl, ?_⟩, .of_eq⟩
        intro t ht m hm
        have hne : t ≠ i := fun heq => absurd ((heq ▸ hm).symm.trans hmap) (some_ne_none m)
        exact hbelow t (by omega) m hm
      | some map =>
        cases cache with
        | none =>
          exact ⟨_, rfl, h.goto ⟨hl, htap, hmapped, rfl, hbelow, h.due.1, hi,
            hmap.trans_ne (some_ne_none map)⟩, .of_eq⟩
        | some copy =>
          obtain ⟨interestTable, netmaskTable⟩ := copy
          have hfresh : (map.clear interestTable netmaskTable).Fresh due :=
            map.fresh_clear (h.cache interestTable netmaskTable rfl)
          exact ⟨_, rfl, ⟨h.published, h.due, nofun, range_setTable h.range hi _, nofun, hl, htap,
            hmapped, rfl, fresh_below_succ hfresh hbelow⟩, .of_raised rfl rfl⟩
    · have hall : ∀ t m, tables t = some m → m.Fresh due := by
        intro t m hm
        by_cases ht : t < i
        · exact hbelow t ht m hm
        · exact absurd (hm.symm.trans (h.range t (by omega))) (some_ne_none m)
      exact ⟨_, rfl, ⟨h.published, h.due, h.cache, h.range, fun _ => hall, hl, htap,
        AllFresh.mono hall hl, fun _ => mappedSince_of_none hmapped due⟩, .of_raised rfl rfl⟩
  | clearingWith l call i interestTable =>
    obtain ⟨hl, htap, hmapped, hflag, hbelow, hinterest, hi, hsome⟩ := h.phase
    obtain rfl : flag = true := hflag
    obtain ⟨map, hmap⟩ := ne_none_iff_exists'.mp hsome
    have hunwrap : unwrap (tables i) = .ok map := congrArg unwrap hmap
    have hfresh : (map.clear interestTable shared.netmaskTable).Fresh due :=
      map.fresh_clear ⟨hinterest, h.due.2⟩
    unfold Queue.next
    dsimp only
    rw [hunwrap, ok_bind]
    exact ⟨_, rfl, h.setTable hi (fun _ => hfresh) ⟨hl, htap, hmapped, rfl,
      fresh_below_succ hfresh hbelow⟩, .of_raised rfl rfl⟩
  | ensuring l call =>
    obtain ⟨hl, htap, hall, hmapped⟩ := h.phase
    unfold Queue.next
    dsimp only
    cases hmap : tables l.tapType with
    | none =>
      exact ⟨_, rfl, h.goto ⟨hl, htap, hall, hmapped, le_trans hl.1 h.due.1, fun _ => h.due.1⟩,
        .of_eq⟩
    | some map =>
      exact ⟨_, rfl, h.goto ⟨hl, htap, hall, hmapped, hmap.trans_ne (some_ne_none map)⟩, .of_eq⟩
  | creating l call interestTable =>
    obtain ⟨hl, htap, hall, hmapped, hold, hnew⟩ := h.phase
    refine ⟨_, rfl, h.setTable htap ?_ ⟨hl, htap, ?_, hmapped, ?_⟩, .of_eq⟩
    · exact fun hflag => fresh_new ⟨hnew hflag, h.due.2⟩ mapSize
    · exact AllFresh.setTable hall (fresh_new ⟨hold, le_trans hl.2 h.due.2⟩ mapSize)
    · intro hnone
      have hself := (tables_setTable _ l.tapType _ l.tapType).symm.trans hnone
      rw [if_pos rfl] at hself
      exact absurd hself (some_ne_none _)
  | _ => exact ⟨_, rfl, h, .of_eq⟩

/-- The map that the next step works on is there. -/
def Sane (queue : Queue Key K P E) : Prop :=
  match queue.phase with
  | .clearingWith _ _ i _ => queue.tables i ≠ none
  | .working l _ _ => queue.tables l.tapType ≠ none
  | _ => True

theorem Sane.next (h : queue.Sane) (rules : Rules Key K P E) (mapSize : Nat) (shared : Shared) :
    ∃ queue', queue.next rules mapSize shared = .ok queue' ∧ queue'.Sane := by
  obtain ⟨flag, cache, tables, phase, due⟩ := queue
  cases phase with
  | idle | computing l => exact ⟨_, rfl, trivial⟩
  | checking l call => cases flag <;> exact ⟨_, rfl, trivial⟩
  | clearing l call i =>
    unfold Queue.next
    dsimp only
    split_ifs
    · cases hmap : tables i with
      | none => exact ⟨_, rfl, trivial⟩
      | some map =>
        cases cache with
        | none => exact ⟨_, rfl, hmap.trans_ne (some_ne_none map)⟩
        | some copy => exact ⟨_, rfl, trivial⟩
    · exact ⟨_, rfl, trivial⟩
  | clearingWith l call i interestTable =>
    obtain ⟨map, hmap⟩ := ne_none_iff_exists'.mp h
    exact ⟨_, congrArg (unwrap · >>= _) hmap, trivial⟩
  | ensuring l call =>
    unfold Queue.next
    dsimp only
    cases hmap : tables l.tapType with
    | none => exact ⟨_, rfl, trivial⟩
    | some map => exact ⟨_, rfl, hmap.trans_ne (some_ne_none map)⟩
  | creating l call interestTable =>
    refine ⟨_, rfl, ?_⟩
    exact (update_self l.tapType _ tables).trans_ne (some_ne_none _)
  | working l call created =>
    obtain ⟨map, hmap⟩ := ne_none_iff_exists'.mp h
    have hunwrap : unwrap (tables l.tapType) = .ok map := congrArg unwrap hmap
    unfold Queue.next Queue.work
    dsimp only
    rw [hunwrap]
    split
    · split
      · exact ⟨_, rfl, trivial⟩
      · rw [ok_bind]
        split <;> exact ⟨_, rfl, trivial⟩
    · exact ⟨_, rfl, trivial⟩

theorem Ok.start (h : queue.Ok shared) (key : Key) (tapType : Nat) :
    (queue.start shared key tapType).Ok shared ∧ queue.Keeps (queue.start shared key tapType) := by
  unfold Queue.start
  split
  · split
    · next htap =>
      exact ⟨h.goto ⟨h.published, htap, rfl⟩, .of_eq⟩
    · exact ⟨h, .of_eq⟩
  · exact ⟨h, .of_eq⟩

theorem Ok.compute (h : queue.Ok shared) (policy : P) (endpoints : E) :
    (queue.compute policy endpoints).Ok shared ∧ queue.Keeps (queue.compute policy endpoints) := by
  unfold Queue.compute
  split
  · next l hphase =>
    have hok := h.phase
    unfold PhaseOk at hok
    rw [hphase] at hok
    exact ⟨h.goto hok, .of_eq⟩
  · exact ⟨h, .of_eq⟩

omit [DecidableEq K] in
theorem Sane.start (h : queue.Sane) (key : Key) (tapType : Nat) :
    (queue.start shared key tapType).Sane := by
  unfold Queue.start
  split
  · split
    · trivial
    · exact h
  · exact h

omit [DecidableEq K] in
theorem Sane.compute (h : queue.Sane) (policy : P) (endpoints : E) :
    (queue.compute policy endpoints).Sane := by
  unfold Queue.compute
  split
  · trivial
  · exact h

end Queue

variable {s : State Key K P E} {q : Nat}

/-- What holds in all states, of one queue and of the others. -/
structure Kept (q : Nat) (s : State Key K P E) : Prop where
  ok : (s.queues q).Ok s.shared
  serving : Serving s.shared q (s.queues q)
  sane : ∀ p, (s.queues p).Sane

/-- **Freshness.**  A lookup of the queue that has been through `table_flush_check` finds all
its maps with tables no older than those of the last flush that had returned when it began,
and without entries computed from older ones. -/
def Fresh (q : Nat) (s : State Key K P E) : Prop :=
  ∀ l created, (s.queues q).phase = .working l .get created → (s.queues q).AllFresh l.published

/-- A flush finds the flag of the queue lowered, and the flag is not raised between the two
parts of a lookup. -/
def Clear (q : Nat) (s : State Key K P E) : Action Key P E → Prop
  | .flushNext =>
    match s.shared.updater with
    | .caching p => p = q → (s.queues q).flag = false
    | .idle | .flagging _ => True
  | .queue p .next => p = q → (s.queues q).Clear
  | _ => True

theorem Kept.fresh (h : Kept q s) : Fresh q s := by
  intro l created hphase
  have hok := h.ok.phase
  unfold Queue.PhaseOk at hok
  rw [hphase] at hok
  exact hok.2.2.1

theorem Queue.Ok.written {shared' : Shared} (h : queue.Ok shared)
    (hpub : shared'.published = shared.published) (hle : shared.stamps ≤ shared'.stamps) :
    queue.Ok shared' :=
  ⟨hpub ▸ h.published, le_trans h.due hle, h.cache, h.range, h.clean, h.phase⟩

theorem Kept.set (h : Kept q s) {change : Shared → Shared}
    (hpub : (change s.shared).published = s.shared.published)
    (hle : s.shared.stamps ≤ (change s.shared).stamps)
    (hupdater : s.shared.updater = .idle → (change s.shared).updater = .idle ∨
      (change s.shared).updater = .caching 0) : Kept q (s.set change) := by
  unfold State.set
  split
  · next hidle =>
    refine ⟨h.ok.written hpub hle, ?_, h.sane⟩
    unfold Serving
    rcases hupdater hidle with hnext | hnext
    · rw [hnext]
      trivial
    · rw [hnext]
      exact nofun
  · exact h
  · exact h

theorem Queue.Ok.raise (h : queue.Ok shared) (hflag : queue.flag = false)
    (hcache : queue.cache = some (shared.interestTable, shared.netmaskTable)) :
    { queue with flag := true, due := shared.stamps }.Ok shared := by
  obtain ⟨flag, cache, tables, phase, due⟩ := queue
  obtain ⟨hpub, hdue, hcopy, hrange, hclean, hok⟩ := h
  obtain rfl : flag = false := hflag
  obtain rfl : cache = some (shared.interestTable, shared.netmaskTable) := hcache
  have hup : ∀ {p : Prop}, true = false → p := nofun
  refine ⟨le_trans hpub hdue, le_refl _, ?_, hrange, fun hdown => hup hdown, ?_⟩
  · intro interestTable netmaskTable heq
    cases heq
    exact le_refl _
  cases phase with
  | idle => trivial
  | checking l call =>
    refine ⟨le_trans hok.1 hdue, hok.2.1, ?_⟩
    cases call with
    | get => exact hok.2.2
    | add policy endpoints => exact fun hdown => hup hdown
  | ensuring l call => exact ⟨le_trans hok.1 hdue, hok.2.1, hok.2.2.1, fun hdown => hup hdown⟩
  | creating l call table =>
    exact ⟨le_trans hok.1 hdue, hok.2.1, hok.2.2.1, fun hdown => hup hdown,
      hok.2.2.2.2.1, fun hdown => hup hdown⟩
  | working l call created =>
    exact ⟨le_trans hok.1 hdue, hok.2.1, hok.2.2.1, fun hdown => hup hdown, hok.2.2.2.2⟩
  | computing l => exact ⟨le_trans hok.1 hdue, hok.2.1, fun hdown => hup hdown⟩
  | _ => exact absurd hok.2.2.2.1 false_ne_true

omit [DecidableEq K] in
theorem sane_setQueue (h : ∀ p, (s.queues p).Sane) {p : Nat} (hqueue : queue.Sane) :
    ∀ j, ((s.setQueue p queue).queues j).Sane := by
  intro j
  rw [queues_setQueue]
  split
  · exact hqueue
  · exact h j

/-- **A step of a flush.** -/
theorem Kept.flushNext (h : Kept q s) (hq : q < queueCount) (hclear : Clear q s .flushNext) :
    Kept q s.flushNext := by
  obtain ⟨⟨interestTable, netmaskTable, fromInterface, fromIpgroup, fromCidr, updater, published⟩,
    queues⟩ := s
  obtain ⟨hok, hserving, hsane⟩ := h
  have hkept : ∀ next : Updater, (queues q).Ok ⟨interestTable, netmaskTable, fromInterface,
      fromIpgroup, fromCidr, next, published⟩ := fun _ => hok.written rfl (le_refl _)
  cases updater with
  | idle => exact ⟨hok, hserving, hsane⟩
  | caching p =>
    unfold State.flushNext
    dsimp only
    split
    · split
      · next hflag =>
        -- the queue that keeps its copy is another one
        have hne : p ≠ q := fun hp => absurd ((hclear hp).symm.trans (hp ▸ hflag)) false_ne_true
        exact ⟨hkept _, fun hlt => hserving (by omega), hsane⟩
      · refine ⟨?_, ?_, sane_setQueue hsane (hsane p)⟩ <;> rw [queues_setQueue] <;> split
        · next hqp =>
          subst hqp
          refine ⟨hok.published, hok.due, ?_, hok.range, hok.clean, hok.phase⟩
          intro i m heq
          cases heq
          exact hok.due
        · exact hkept _
        · next hqp =>
          subst hqp
          exact fun _ => ⟨hclear rfl, rfl⟩
        · next hqp => exact fun hlt => hserving (by omega)
    · exact ⟨hkept _, ⟨fun _ => hserving (by omega), nofun⟩, hsane⟩
  | flagging p =>
    unfold State.flushNext
    dsimp only
    split
    · refine ⟨?_, ?_, sane_setQueue hsane (hsane p)⟩ <;> rw [queues_setQueue] <;> split
      · next hqp =>
        subst hqp
        obtain ⟨hflag, hcache⟩ := hserving.1 (le_refl q)
        exact (hok.raise hflag hcache).written rfl (le_refl _)
      · exact hkept _
      · next hqp =>
        subst hqp
        exact ⟨fun hle => absurd hle (by omega), fun _ => rfl⟩
      · next hqp => exact ⟨fun hle => hserving.1 (by omega), fun hlt => hserving.2 (by omega)⟩
    · have hdue : (queues q).due = _ := hserving.2 (by omega)
      exact ⟨⟨hdue ▸ le_refl _, hok.due, hok.cache, hok.range, hok.clean, hok.phase⟩,
        trivial, hsane⟩

theorem Kept.step {mapSize : Nat} (h : Kept q s) (hq : q < queueCount) (a : Action Key P E)
    (hclear : Clear q s a) : ∃ s', step rules mapSize s a = .ok s' ∧ Kept q s' := by
  have hsame := le_refl s.shared.stamps
  have hmasks : s.shared.stamps ≤ s.shared.generateMaskTable.stamps :=
    ⟨le_refl _, le_succ _⟩
  cases a with
  | generateInterestTable table => exact ⟨_, rfl, h.set rfl ⟨le_succ _, le_refl _⟩ Or.inl⟩
  | generateMaskTable => exact ⟨_, rfl, h.set rfl hmasks Or.inl⟩
  | flush => exact ⟨_, rfl, h.set rfl hmasks fun _ => Or.inr rfl⟩
  | flushNext => exact ⟨_, rfl, h.flushNext hq hclear⟩
  | queue p action =>
    by_cases hp : p < queueCount
    · have hstep : ∃ queue', (s.queues p).step rules mapSize s.shared action = .ok queue' ∧
          queue'.Sane ∧ (p = q → queue'.Ok s.shared ∧ (s.queues q).Keeps queue') := by
        cases action with
        | start key tapType =>
          exact ⟨_, rfl, (h.sane p).start key tapType,
            fun hpq => hpq ▸ (hpq ▸ h.ok).start key tapType⟩
        | compute policy endpoints =>
          exact ⟨_, rfl, (h.sane p).compute policy endpoints,
            fun hpq => hpq ▸ (hpq ▸ h.ok).compute policy endpoints⟩
        | next =>
          obtain ⟨queue', hok, hsane⟩ := (h.sane p).next rules mapSize s.shared
          refine ⟨queue', hok, hsane, ?_⟩
          rintro rfl
          obtain ⟨_, hok', hkept⟩ := h.ok.next (hclear rfl) mapSize
          cases hok.symm.trans hok'
          exact hkept
      obtain ⟨queue', hok, hsane, hqueue⟩ := hstep
      rw [Flush.step, if_pos hp, hok, ok_bind]
      refine ⟨_, rfl, ?_, ?_, sane_setQueue h.sane hsane⟩ <;> rw [queues_setQueue] <;> split
      · next hqp => exact (hqueue hqp.symm).1
      · exact h.ok
      · next hqp => exact h.serving.keeps (hqueue hqp.symm).2
      · exact h.serving
    · exact ⟨s, if_neg hp, h⟩
  | _ => exact ⟨_, rfl, h.set rfl hsame Or.inl⟩

theorem kept_init (q : Nat) : Kept q ({} : State Key K P E) :=
  ⟨⟨le_refl _, le_refl _, nofun, fun _ _ => rfl, nofun, trivial⟩, trivial, fun _ => trivial⟩

/-- **A flush that finds the flag of a queue lowered, and falls into none of its lookups, is
not missed by the queue**, whatever becomes of the other queues. -/
theorem flushes_reach_lookups (rules : Rules Key K P E) (mapSize : Nat) (q : Fin queueCount)
    (as : List (Action Key P E)) (hclear : StepsObey (step rules mapSize) (Clear q) {} as) :
    StatesHold (step rules mapSize) (Fresh q) {} as :=
  (statesHold_of_invariant (fun _ a hs hc => Kept.step hs q.isLt a hc) (kept_init q) hclear).mono
    fun _ hs => hs.fresh

/-- Whether a step meets `Clear`. -/
def clearTest (q : Nat) (s : State Key K P E) : Action Key P E → Bool
  | .flushNext =>
    match s.shared.updater with
    | .caching p => p != q || !(s.queues q).flag
    | .idle | .flagging _ => true
  | .queue p .next =>
    p != q ||
      match (s.queues q).phase with
      | .checking l (.add _ _) => !(s.queues q).flag || l.mapped.isNone
      | _ => true
  | _ => true

omit [DecidableEq K] in
theorem clear_of_test (s : State Key K P E) (a : Action Key P E) (h : clearTest q s a = true) :
    Clear q s a := by
  cases a with
  | flushNext =>
    unfold clearTest at h
    unfold Clear
    cases hupdater : s.shared.updater with
    | caching p =>
      rw [hupdater] at h
      rintro rfl
      simpa using h
    | _ => trivial
  | queue p action =>
    cases action with
    | next =>
      rintro rfl
      unfold Queue.Clear
      split
      · next l policy endpoints hphase =>
        rw [clearTest, hphase] at h
        simpa using h
      · trivial
    | _ => trivial
  | generateInterestTable table => trivial
  | generateMaskFromInterface masks => trivial
  | _ => trivial

end

def oneKey : Rules Unit Unit Unit Unit := ⟨fun _ => id, fun _ _ => ((), ()), fun _ => 6, id, id, id⟩

def steps (count : Nat) : List (Action Unit Unit Unit) := List.replicate count (.queue 0 .next)

def begins : List (Action Unit Unit Unit) := [.queue 0 (.start () 0)]

def computed : List (Action Unit Unit Unit) := [.queue 0 (.compute () ())]

/-- New ports of interest and a whole flush. -/
def flushed : List (Action Unit Unit Unit) :=
  [.generateInterestTable [], .flush] ++ List.replicate 260 .flushNext

/-- The first lookup of the first queue, which creates its map. -/
def created : List (Action Unit Unit Unit) := begins ++ steps 4 ++ computed ++ steps 3

/-- A lookup of the first queue, two flushes with a lookup between them, and another: the
other queues never look up. -/
def flushedTwice : List (Action Unit Unit Unit) :=
  created ++ flushed ++ begins ++ steps 260 ++ flushed ++ begins ++ steps 259

theorem flush_reaches_lookup :
    StepsObey (step oneKey 8) (Clear 0) {} flushedTwice ∧
      StatesHold (step oneKey 8) (Fresh 0) {} flushedTwice := by
  have hclear : StepsObey (step oneKey 8) (Clear 0) {} flushedTwice :=
    stepsObey_of_check clear_of_test (by decide +kernel)
  exact ⟨hclear, flushes_reach_lookups oneKey 8 ⟨0, by decide⟩ _ hclear⟩

/-- Whether the lookup of the first queue works on older tables or finds an older entry. -/
def stale (s : State Unit Unit Unit Unit) : Bool :=
  match (s.queues 0).phase, (s.queues 0).tables 0 with
  | .working l .get _, some map =>
    !decide (l.published ≤ ⟨map.interestTable.stamp, map.netmaskTable.stamp⟩) ||
      (map.policyTable.peek ((), ())).any fun item => !decide (l.published ≤ item.store.origin)
  | _, _ => false

theorem not_fresh_of_stale {s : State Unit Unit Unit Unit} (h : stale s = true) : ¬ Fresh 0 s := by
  intro hfresh
  unfold stale at h
  split at h
  · next l created map hphase hmap =>
    have hmapFresh := hfresh l created hphase 0 map hmap
    rw [decide_eq_true hmapFresh.tables, Bool.not_true, Bool.false_or, any_eq_true] at h
    obtain ⟨item, hitem, hold⟩ := h
    rw [decide_eq_true (hmapFresh.entries _ item hitem).store] at hold
    exact absurd hold false_ne_true
  · exact absurd h false_ne_true

/-- A second flush before the next lookup leaves the first copy in place; a second flush just
before the flag is lowered is lost; and a flush between the two parts of a lookup leaves an
entry computed from older tables. -/
theorem flushes_missed :
    (∃ s, run (step oneKey 8) {} (created ++ flushed ++ flushed ++ begins ++ steps 259) = .ok s ∧
      ¬ Fresh 0 s) ∧
    (∃ s, run (step oneKey 8) {} (created ++ flushed ++ begins ++ steps 257 ++ flushed ++ steps 3 ++
      computed ++ steps 3 ++ begins ++ steps 2) = .ok s ∧ ¬ Fresh 0 s) ∧
    ∃ s, run (step oneKey 8) {} (created ++ flushed ++ begins ++ steps 259 ++ flushed ++ steps 1 ++
      computed ++ steps 260 ++ begins ++ steps 2) = .ok s ∧ ¬ Fresh 0 s := by
  have hmissed : ∀ as, delivers (run (step oneKey 8) {} as) stale = true →
      ∃ s, run (step oneKey 8) {} as = .ok s ∧ ¬ Fresh 0 s := by
    intro as h
    obtain ⟨s, hok, hstale⟩ := eq_ok_of_delivers h
    exact ⟨s, hok, not_fresh_of_stale hstale⟩
  refine ⟨hmissed _ ?_, hmissed _ ?_, hmissed _ ?_⟩ <;> decide +kernel

end ZeroTrace.Policy.Flush
