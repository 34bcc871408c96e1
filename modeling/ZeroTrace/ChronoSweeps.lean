import ZeroTrace.ChronoOperations

/-!
# The two sweeps of a time-ordered map

`forward_time` pops the chains up to a time and hands their entries to a
callback, which may send an entry to a later time: it is then put back into the
timeline that is being popped.  `drain` takes the chains in a range of times
out of the timeline, joins them into one list and frees its nodes one by one.

Both are described here by the operations on chains of the same names.
-/

namespace ZeroTrace.Chrono

open RustExec TypedHeap Chains List Layout Heap NodeAt Drain

variable {T K V σ : Type} {ns : List (NodeAt K V)} {L : Layout T K V} {m : ChronoMap T K V}
  {c : ChainAt T K V} {n : NodeAt K V} {xs ys : List (NodeAt K V)} {b : Boxes T K V} {next : Ptr}
  (time : T) (callback : Callback T V σ)

section ForwardTime

variable [LinearOrder T] [DecidableEq K]

/-- A map in the middle of `forward_time`: the chain `c` has left the timeline
but its nodes are still in `entries`. -/
structure Popped (m : ChronoMap T K V) (c : ChainAt T K V) (L : Layout T K V) : Prop where
  laid : Laid m.boxes (c :: L)
  timeline : m.timeline = ptrs L
  wf : WellFormed (chains L)
  keys : ((nodes (c :: L)).map NodeAt.key).Nodup
  entries : ∀ k p, m.entries.lookup k = some p ↔
    ∃ n ∈ nodes (c :: L), n.key = k ∧ p = some n.addr

theorem Popped.unlink (h : Popped m c L) (hnodes : c.nodes = n :: ns) (v : V) :
    ∃ nodes b', m.boxes.nodes.modify (some n.addr) (fun n => { n with value := v }) = .ok nodes ∧
      nodes.read (some n.addr) = .ok ⟨n.key, v, some c.addr, none, firstPtr ns none⟩ ∧
      unlinkNode { m.boxes with nodes := nodes } (some n.addr) = .ok (some c.addr, b') ∧
      Laid b' ({ c with nodes := ns } :: L) ∧
      b'.nodes.cell n.addr = some ⟨n.key, v, none, none, none⟩ := by
  obtain ⟨hc, hrest, haddr, hnodup, hapart⟩ := laid_cons.mp h.laid
  have hlinked := hc.nodes
  rw [hnodes] at hlinked hnodup
  have hcell := hlinked.1
  set nodes := m.boxes.nodes.put n.addr
    (some ⟨n.key, v, some c.addr, none, firstPtr ns none⟩) with hput
  have hcell' : nodes.cell n.addr = some ⟨n.key, v, some c.addr, none, firstPtr ns none⟩ :=
    cell_put_self hcell _
  have hlinked₀ : Linked m.boxes.nodes (some c.addr) none ([] ++ n :: ns) none := hlinked
  have hlinked' : Linked nodes (some c.addr) none ({ n with value := v } :: ns) none :=
    hlinked₀.setValue hnodup v
  have hc' : ChainAt.Laid { m.boxes with nodes := nodes }
      { c with nodes := { n with value := v } :: ns } := by
    refine ⟨?_, hlinked'⟩
    have hhead := hc.head
    rw [hnodes] at hhead
    exact hhead
  obtain ⟨b', hunlink, hlaid, hcleared, hframe, hheads⟩ :=
    unlinkNode_spec (n := { n with value := v }) hc' (nil_append _).symm hnodup
  refine ⟨nodes, b', modify_ok hcell _, read_ok hcell', hunlink, ?_, hcleared⟩
  refine laid_cons.mpr ⟨hlaid, hrest.congr ?_ ?_, haddr, (nodup_cons.mp hnodup).2, ?_⟩
  · exact fun a ha => hheads a (ne_of_mem_of_not_mem ha haddr)
  · intro a ha
    have hno : a ∉ addrs c.nodes := fun hx => hapart a hx ha
    rw [hnodes] at hno
    rw [hframe a hno]
    refine cell_put_ne _ ?_ _
    rintro rfl
    exact hno (by simp)
  · intro a ha
    exact hapart a (by rw [hnodes]; exact mem_cons_of_mem _ ha)

theorem Popped.settle {m : ChronoMap T K V} {L : Layout T K V}
    {ns : List (NodeAt K V)} (h : Popped m c L) (hnodes : c.nodes = n :: ns)
    {v : V} (hlaid : Laid b ({ c with nodes := ns } :: L))
    (hcell : b.nodes.cell n.addr = some ⟨n.key, v, none, none, none⟩)
    (time : T) (newTime : Option T) :
    ∃ m' L', settleNode time newTime (some n.addr) n.key { m with boxes := b } = .ok m' ∧
      Popped m' { c with nodes := ns } L' ∧
      chains L' = settle time newTime (n.key, v) (chains L) := by
  obtain ⟨hc, hL, haddr, hnodup, hapart⟩ := laid_cons.mp hlaid
  have hall := h.laid.nodes
  have hkeys := h.keys
  simp only [nodes_cons, hnodes, cons_append, addrs_cons, map_cons, nodup_cons] at hall hkeys
  have hns : n.addr ∉ addrs ns := fun hx => hall.1 (by simp [hx])
  have hnL : n.addr ∉ addrs (nodes L) := fun hx => hall.1 (by simp [hx])
  cases hnew : newTime.filter (fun nt => time < nt) with
  | some nt =>
    obtain ⟨L', b', hatt, hlaid', hchains, hperm, hframe, hheads⟩ :=
      attachNode_spec (n := ⟨n.addr, n.key, v⟩) hL (sorted_iff.mpr h.wf.sorted) hcell hnL nt
    have hpermc : (nodes ({ c with nodes := ns } :: L')).Perm
        (⟨n.addr, n.key, v⟩ :: (ns ++ nodes L)) := by
      exact (hperm.append_left ns).trans perm_middle
    refine ⟨{ m with timeline := ptrs L', boxes := b' }, L', ?_, ⟨?_, rfl, ?_, ?_, ?_⟩, ?_⟩
    · simp only [settleNode, hnew, h.timeline, hatt, ok_bind, pure_eq_ok]
    · refine laid_cons.mpr ⟨hc.congr ?_ ?_, hlaid', ?_, hnodup, ?_⟩
      · rw [(hheads c.addr _ haddr hc.head).2, hc.head]
      · exact fun a ha => hframe a (ne_of_mem_of_not_mem ha hns) (hapart a ha)
      · exact (hheads c.addr _ haddr hc.head).1
      · intro a ha hx
        have hmem : a ∈ addrs ((⟨n.addr, n.key, v⟩ : NodeAt K V) :: nodes L) :=
          (hperm.map addr).mem_iff.mp hx
        rcases mem_cons.mp hmem with rfl | hmem
        · exact hns ha
        · exact hapart a ha hmem
    · rw [hchains]
      refine h.wf.push ?_
      rw [keys_chains]
      exact fun hx => hkeys.1 (by simp [hx])
    · rw [(hpermc.map key).nodup_iff]
      exact nodup_cons.mpr hkeys
    · exact Indexed.perm h.entries ((hpermc.map _).trans (.of_eq (by simp [hnodes])))
    · simp only [hchains, Chains.settle, hnew]
  | none =>
    have hlookup : m.entries.lookup n.key = some (some n.addr) :=
      (h.entries _ _).mpr ⟨n, by simp [hnodes], rfl, rfl⟩
    refine ⟨⟨m.entries.erase n.key, m.timeline,
      { b with nodes := b.nodes.put n.addr none }⟩, L, ?_, ⟨?_, h.timeline, h.wf, hkeys.2, ?_⟩, ?_⟩
    · simp only [settleNode, hnew, hlookup, unwrap_some, ok_bind, free_ok hcell, pure_eq_ok]
    · exact hlaid.congr (fun _ _ => rfl) (cell_put_of_notMem _ hall.1 _)
    · have hentries : Indexed m.entries (n :: (ns ++ nodes L)) :=
        Indexed.perm h.entries (.of_eq (by simp [hnodes]))
      exact hentries.erase hkeys.1
    · simp only [Chains.settle, hnew]

/-- **The loop over a popped chain.** -/
theorem expireChain_spec :
    ∀ (ns : List (NodeAt K V)) (fuel : Nat) (s : σ) (m : ChronoMap T K V)
      (c : ChainAt T K V) (L : Layout T K V), c.nodes = ns → Popped m c L → ns.length ≤ fuel →
      ∃ m' L', expireChain time callback fuel (firstPtr ns none) s m =
          .ok ((expire time callback (ns.map fun n => (n.key, n.value)) s (chains L)).1, m') ∧
        Popped m' { c with nodes := [] } L' ∧
        chains L' = (expire time callback (ns.map fun n => (n.key, n.value)) s (chains L)).2 := by
  intro ns
  induction ns with
  | nil =>
    intro fuel s m c L hnodes h _
    refine ⟨m, L, ?_, ?_, rfl⟩
    · cases fuel <;> rfl
    · rw [← hnodes]
      exact h
  | cons n ns ih =>
    intro fuel s m c L hnodes h hfuel
    obtain ⟨fuel, rfl⟩ : ∃ f, fuel = f + 1 := ⟨fuel - 1, by simp at hfuel; omega⟩
    have hlinked := (h.laid.chain c (by simp)).nodes
    rw [hnodes] at hlinked
    rcases hcall : callback s n.value with ⟨newTime, v, s'⟩
    obtain ⟨nodes, b, hmod, hread, hunlink, hlaid, hcell⟩ := h.unlink hnodes v
    obtain ⟨m₁, L₁, hsettle, hpop, hchains⟩ := h.settle hnodes hlaid hcell time newTime
    obtain ⟨m', L', hloop, hpop', hchains'⟩ := ih fuel s' m₁ { c with nodes := ns } L₁ rfl hpop
      (by simpa using hfuel)
    refine ⟨m', L', ?_, hpop', ?_⟩
    · simp only [firstPtr_cons, expireChain, read_ok hlinked.1, ok_bind, hcall, hmod, hread,
        hunlink, hsettle, hloop, hchains, map_cons, expire]
    · simp only [hchains', hchains, map_cons, expire, hcall]

theorem Rep.popped (h : Rep m (c :: L)) : Popped { m with timeline := ptrs L } c L := by
  refine ⟨h.laid, rfl, ?_, ?_, h.entries⟩
  · have hwf := h.wf
    rw [chains_cons] at hwf
    refine ⟨(pairwise_cons.mp hwf.sorted).2, fun d hd => hwf.full d (mem_cons_of_mem _ hd), ?_⟩
    have hkeys := hwf.keys
    rw [entries_cons, map_append] at hkeys
    exact hkeys.of_append_right
  · rw [← keys_chains]
    exact h.wf.keys

theorem Popped.free {m : ChronoMap T K V} {L : Layout T K V}
    (h : Popped m { c with nodes := [] } L) :
    ∃ v heads, m.boxes.heads.free (some c.addr) = .ok (v, heads) ∧
      Rep { m with boxes := { m.boxes with heads := heads } } L := by
  obtain ⟨hc, hrest, haddr, -, -⟩ := laid_cons.mp h.laid
  refine ⟨_, _, free_ok hc.head, ?_, h.timeline, h.wf, h.entries⟩
  exact hrest.congr (cell_put_of_notMem _ haddr _) fun _ _ => rfl

/-- **The loop over the expired chains.** -/
theorem expireChains_spec :
    ∀ (E C : Chains T K V) (s : σ) (m : ChronoMap T K V) (L : Layout T K V),
      Rep m L → chains L = E ++ C → (∀ c ∈ E, c.1 ≤ time) →
      ∃ m' L', expireChains time callback E.length s m =
          .ok ((expire time callback (E.flatMap Prod.snd) s C).1, m') ∧
        Rep m' L' ∧ chains L' = (expire time callback (E.flatMap Prod.snd) s C).2 := by
  intro E
  induction E with
  | nil =>
    intro C s m L h hL _
    exact ⟨m, L, rfl, h, hL⟩
  | cons e E ih =>
    intro C s m L h hL hold
    obtain ⟨c, L₀, rfl, rfl, hL₀⟩ := map_eq_cons_iff.mp hL
    have hold' := (forall_mem_cons.mp hold).2
    obtain ⟨m₁, L₁, hloop, hpop, hchains₁⟩ := expireChain_spec time callback c.nodes
      m.boxes.nodes.boxes.length s _ c L₀ rfl h.popped (h.laid.length_le mem_cons_self)
    obtain ⟨v, heads, hfree, hrep⟩ := hpop.free
    have hL₀' : chains L₀ = E ++ C := hL₀
    rw [hL₀', expire_chains_append hold'] at hloop hchains₁
    obtain ⟨m', L', hrest, hrep', hchains'⟩ := ih _
      (expire time callback (c.nodes.map fun n => (n.key, n.value)) s C).1 _ L₁ hrep hchains₁ hold'
    have hhead := (h.laid.chain c mem_cons_self).head
    refine ⟨m', L', ?_, hrep', ?_⟩
    · have htl : m.timeline = some c.addr :: ptrs L₀ := h.timeline
      simp only [length_cons, expireChains, htl, read_ok hhead, ok_bind, hloop, hfree,
        hrest, flatMap_cons, expire_append]
    · rw [hchains', flatMap_cons, expire_append]

theorem Rep.forwardTime (h : Rep m L) (time : T) (callback : Callback T V σ) (s : σ) :
    ∃ m' L', m.forwardTime time callback s =
        .ok ((forwardTime time callback s (chains L)).1, m') ∧
      Rep m' L' ∧
      chains L' = (forwardTime time callback s (chains L)).2 := by
  have hs : Sorted L := sorted_iff.mpr h.wf.sorted
  cases L with
  | nil => exact ⟨m, [], by simp [ChronoMap.forwardTime, h.timeline, ptrs, Layout.chains,
      forwardTime, expire], h, rfl⟩
  | cons c L =>
    have hhead := (h.laid.chain c mem_cons_self).head
    have htl : m.timeline = some c.addr :: ptrs L := h.timeline
    by_cases hlater : time < c.time
    · have hall : ∀ d ∈ chains (c :: L), time < d.1 := forall_mem_map.mpr (forall_mem_cons.mpr
        ⟨hlater, fun x hx => hlater.trans ((pairwise_cons.mp hs).1 x hx)⟩)
      have hnone := forwardTime_split callback s (E := []) (by simp) hall
      rw [nil_append] at hnone
      refine ⟨m, c :: L, ?_, h, by rw [hnone]; rfl⟩
      rw [hnone]
      simp only [ChronoMap.forwardTime, htl, read_ok hhead, ok_bind, if_pos hlater, pure_eq_ok]
      rfl
    -- the number of chains to pop comes out of the search
    obtain ⟨A, B, hL, hlow, hhigh, hcount⟩ : ∃ A B, c :: L = A ++ B ∧
        (∀ x ∈ A, x.time ≤ time) ∧ (∀ x ∈ B, time < x.time) ∧
        m.forwardTime time callback s = expireChains time callback A.length s m := by
      simp only [ChronoMap.forwardTime, htl, read_ok hhead, ok_bind, if_neg hlater]
      rw [show some c.addr :: ptrs L = ptrs (c :: L) from rfl]
      rcases searchTimeline_spec h.laid hs time with
        ⟨A, d, B, hL, htime, hsearch⟩ | ⟨A, B, hL, hlow, hhigh, hsearch⟩
      · obtain ⟨hlow, hhigh⟩ := (hL ▸ hs).around
        refine ⟨A ++ [d], B, by simpa using hL, ?_, htime ▸ hhigh, ?_⟩
        · exact forall_mem_append.mpr ⟨fun x hx => htime ▸ (hlow x hx).le,
            forall_mem_singleton.mpr htime.le⟩
        · rw [hsearch, length_append, length_singleton]
          rfl
      · refine ⟨A, B, hL, fun x hx => (hlow x hx).le, hhigh, ?_⟩
        have hne : A ≠ [] := by
          rintro rfl
          exact hlater (hhigh c (by rw [nil_append] at hL; simp [← hL]))
        have hpos : 1 ≤ A.length := length_pos_iff.mpr hne
        rw [hsearch, ok_bind]
        dsimp only
        rw [checkedSub_ok hpos, ok_bind, Nat.sub_add_cancel hpos]
    rw [hcount, hL]
    rw [hL] at h
    have hE : ∀ x ∈ chains A, x.1 ≤ time := forall_mem_map.mpr hlow
    have hC : ∀ x ∈ chains B, time < x.1 := forall_mem_map.mpr hhigh
    have hlen : A.length = (chains A).length := by simp [Layout.chains]
    rw [chains_append, forwardTime_split callback s hE hC, hlen]
    exact expireChains_spec time callback _ _ s m _ h (chains_append A B) hE

end ForwardTime

section Draining

/-- Nodes that are linked by their `next` pointers only, as `drain` leaves
them. -/
def Strung (h : Heap (Node K V)) : List (NodeAt K V) → Ptr → Prop
  | [], _ => True
  | n :: ns, next =>
    (∃ head prev, h.cell n.addr = some ⟨n.key, n.value, head, prev, firstPtr ns next⟩) ∧
      Strung h ns next

theorem Strung.congr {h h' : Heap (Node K V)} (heq : ∀ a ∈ addrs ns, h'.cell a = h.cell a) :
    ∀ {next : Ptr}, Strung h ns next → Strung h' ns next := by
  induction ns with
  | nil => intros; trivial
  | cons n ns ih =>
    rintro next ⟨⟨head, prev, hcell⟩, hrest⟩
    refine ⟨⟨head, prev, by rw [heq n.addr (by simp)]; exact hcell⟩, ih ?_ hrest⟩
    exact fun a ha => heq a (by simp [ha])

variable {h : Heap (Node K V)}

theorem strung_append :
    Strung h (xs ++ ys) next ↔ Strung h xs (firstPtr ys next) ∧ Strung h ys next := by
  induction xs with
  | nil => simp [Strung]
  | cons x xs ih => rw [cons_append, Strung, Strung, ih, firstPtr_append, and_assoc]

theorem Linked.strung {head next : Ptr} :
    ∀ {prev : Ptr}, Linked h head prev ns next → Strung h ns next := by
  induction ns with
  | nil => intros; trivial
  | cons n ns ih =>
    rintro prev ⟨hcell, hrest⟩
    exact ⟨⟨head, prev, hcell⟩, ih hrest⟩

theorem Strung.live (hs : Strung h ns next) : ∀ a ∈ addrs ns, ∃ v, h.cell a = some v := by
  induction ns with
  | nil => simp
  | cons n ns ih =>
    obtain ⟨⟨head, prev, hcell⟩, hrest⟩ := hs
    exact forall_mem_cons.mpr ⟨⟨_, hcell⟩, ih hrest⟩

theorem walkTail_spec :
    ∀ (ns : List (NodeAt K V)) (n : NodeAt K V) (fuel : Nat), Strung h (n :: ns) none →
      ns.length < fuel → walkTail h fuel (some n.addr) = .ok (lastPtr none (n :: ns)) := by
  intro ns
  induction ns with
  | nil =>
    rintro n fuel ⟨⟨head, prev, hcell⟩, -⟩ hfuel
    obtain ⟨fuel, rfl⟩ : ∃ f, fuel = f + 1 := ⟨fuel - 1, by omega⟩
    simp [walkTail, read_ok hcell, lastPtr]
  | cons m ns ih =>
    rintro n fuel ⟨⟨head, prev, hcell⟩, hrest⟩ hfuel
    obtain ⟨fuel, rfl⟩ : ∃ f, fuel = f + 1 := ⟨fuel - 1, by omega⟩
    have hstep := ih m fuel hrest (by simpa using hfuel)
    simp only [walkTail, read_ok hcell, ok_bind, firstPtr_cons, Option.isSome_some, if_true, hstep]
    rw [lastPtr_cons, lastPtr_cons, lastPtr_cons]

theorem Strung.join {x : NodeAt K V} (hxs : Strung h (xs ++ [x]) none)
    (hys : Strung h ys none) (hnodup : (addrs ((xs ++ [x]) ++ ys)).Nodup) :
    ∃ h', h.modify (some x.addr) (fun n => { n with next := firstPtr ys none }) = .ok h' ∧
      Strung h' ((xs ++ [x]) ++ ys) none ∧ ∀ a, a ≠ x.addr → h'.cell a = h.cell a := by
  obtain ⟨hfront, ⟨head, prev, hcell⟩, -⟩ := strung_append.mp hxs
  rw [addrs_append, addrs_append, nodup_append, nodup_append] at hnodup
  obtain ⟨⟨-, -, hdis⟩, -, hdis'⟩ := hnodup
  refine ⟨h.put x.addr (some ⟨x.key, x.value, head, prev, firstPtr ys none⟩),
    modify_ok hcell _, ?_, fun a ha => cell_put_ne _ ha _⟩
  refine strung_append.mpr ⟨strung_append.mpr ⟨hfront.congr fun a ha => ?_,
    ⟨head, prev, cell_put_self hcell _⟩, trivial⟩, hys.congr fun a ha => ?_⟩
  · exact cell_put_ne _ (hdis a ha x.addr (by simp)) _
  · exact cell_put_ne _ (hdis' x.addr (by simp) a ha).symm _

theorem retainHeads_spec (h : Laid b L) (range : T → Bool) :
    retainHeads b.heads range (ptrs L) =
      .ok (ptrs (L.filter fun c => !range c.time), ptrs (L.filter fun c => range c.time)) := by
  induction L with
  | nil => rfl
  | cons c L ih =>
    have hhead := (h.chain c mem_cons_self).head
    have hrest := ih (h.sublist (sublist_cons_self c L))
    simp only [ptrs, map_cons, retainHeads, read_ok hhead, ok_bind] at hrest ⊢
    rw [hrest]
    cases hr : range c.time <;> simp [hr]

/-- **Joining the drained chains.**  The nodes joined so far and those of the
remaining chains end up on one string. -/
theorem joinChains_spec :
    ∀ (D : Layout T K V) (ns : List (NodeAt K V)) (b : Boxes T K V), Laid b D →
      (∀ c ∈ D, c.nodes ≠ []) → Strung b.nodes ns none →
      (addrs (ns ++ nodes D)).Nodup →
      ∃ b', joinChains (ptrs D) (firstPtr ns none) (lastPtr none ns) b =
          .ok (firstPtr (ns ++ nodes D) none, b') ∧
        Strung b'.nodes (ns ++ nodes D) none ∧
        (∀ a, a ∉ addrs (ns ++ nodes D) → b'.nodes.cell a = b.nodes.cell a) ∧
        ∀ a, a ∉ D.map ChainAt.addr → b'.heads.cell a = b.heads.cell a := by
  intro D
  induction D with
  | nil =>
    intro ns b _ _ hns _
    exact ⟨b, by simp [joinChains, ptrs], by simpa using hns, fun _ _ => rfl, fun _ _ => rfl⟩
  | cons c D ih =>
    intro ns b h hfull hns hnodup
    obtain ⟨hc, hD, haddr, -, -⟩ := laid_cons.mp h
    obtain ⟨n, ms, hnodes⟩ := exists_cons_of_ne_nil (hfull c mem_cons_self)
    have hassoc : ns ++ nodes (c :: D) = (ns ++ c.nodes) ++ nodes D := by simp
    rw [hassoc] at hnodup ⊢
    have hnodup' : (addrs (ns ++ c.nodes)).Nodup := by
      rw [addrs_append] at hnodup
      exact hnodup.of_append_left
    have hapart : ∀ a ∈ addrs (nodes D), a ∉ addrs (ns ++ c.nodes) := by
      rw [addrs_append, nodup_append'] at hnodup
      exact fun a ha ha' => hnodup.2.2 ha' ha
    -- one round: the chain is hung on, and the tail walks to its end
    obtain ⟨nodes', hround, hstrung, hframe⟩ : ∃ nodes',
        joinChains (ptrs (c :: D)) (firstPtr ns none) (lastPtr none ns) b =
          joinChains (ptrs D) (firstPtr (ns ++ c.nodes) none)
            (lastPtr none (ns ++ c.nodes)) ⟨b.heads.put c.addr none, nodes'⟩ ∧
        Strung nodes' (ns ++ c.nodes) none ∧
        ∀ a, a ∉ addrs (ns ++ c.nodes) → nodes'.cell a = b.nodes.cell a := by
      have hlen : ∀ {h : Heap (Node K V)} {x : NodeAt K V} {xs : List (NodeAt K V)},
          Strung h (x :: xs) none → (addrs (x :: xs)).Nodup →
          walkTail h h.boxes.length (some x.addr) = .ok (lastPtr none (x :: xs)) := by
        intro h x xs hs hnd
        exact walkTail_spec xs x _ hs (length_le_boxes hnd hs.live)
      rcases eq_nil_or_concat ns with rfl | ⟨xs, x, rfl⟩
      · have hstrung : Strung b.nodes c.nodes none := hc.nodes.strung
        rw [nil_append] at hnodup' ⊢
        refine ⟨b.nodes, ?_, hstrung, fun _ _ => rfl⟩
        rw [hnodes] at hstrung hnodup' ⊢
        have hwalk := hlen hstrung hnodup'
        simp only [ptrs, map_cons, joinChains, free_ok hc.head, ok_bind,
          hangChain, firstPtr_nil, Option.isNone_none, if_true, pure_eq_ok, hnodes,
          firstPtr_cons, hwalk]
      rw [concat_eq_append] at *
      obtain ⟨nodes', hmod, hstrung, hframe⟩ := hns.join hc.nodes.strung hnodup'
      have htail : Strung nodes' (x :: c.nodes) none := by
        rw [append_assoc] at hstrung
        exact (strung_append.mp hstrung).2
      have hnd : (addrs (x :: c.nodes)).Nodup := by
        rw [append_assoc, addrs_append] at hnodup'
        exact hnodup'.of_append_right
      have hwalk := hlen htail hnd
      have hlast : lastPtr none (x :: c.nodes) = lastPtr none ((xs ++ [x]) ++ c.nodes) := by
        rw [lastPtr_append, lastPtr_cons, lastPtr_append_singleton]
      have hfirst : firstPtr ((xs ++ [x]) ++ c.nodes) none = firstPtr (xs ++ [x]) none := by
        cases xs <;> rfl
      have hsome : (firstPtr (xs ++ [x]) none).isNone = false := by cases xs <;> rfl
      refine ⟨nodes', ?_, hstrung, ?_⟩
      · simp only [ptrs, map_cons, joinChains, free_ok hc.head, ok_bind,
          hangChain, hsome, Bool.false_eq_true, if_false, lastPtr_append_singleton, hmod,
          pure_eq_ok, hwalk, hlast, hfirst]
      · intro a ha
        refine hframe a ?_
        rintro rfl
        exact ha (by simp)
    obtain ⟨b', hrest, hstrung', hframe', hheads'⟩ := ih (ns ++ c.nodes)
      ⟨b.heads.put c.addr none, nodes'⟩
      (hD.congr (cell_put_of_notMem _ haddr _) fun a ha => hframe a (hapart a ha))
      (fun d hd => hfull d (mem_cons_of_mem _ hd)) hstrung hnodup
    refine ⟨b', hround.trans hrest, hstrung', ?_, ?_⟩
    · intro a ha
      rw [hframe' a ha]
      refine hframe a fun hx => ha ?_
      rw [addrs_append]
      exact mem_append_left _ hx
    · intro a ha
      rw [map_cons, mem_cons, not_or] at ha
      rw [hheads' a ha.2]
      exact cell_put_ne _ ha.1 _

theorem Strung.free (hs : Strung h (n :: ns) none) (hnodup : (addrs (n :: ns)).Nodup) :
    ∃ head prev h', h.read (some n.addr) = .ok ⟨n.key, n.value, head, prev, firstPtr ns none⟩ ∧
      h.free (some n.addr) = .ok (⟨n.key, n.value, head, prev, firstPtr ns none⟩, h') ∧
      Strung h' ns none ∧ ∀ a, a ≠ n.addr → h'.cell a = h.cell a := by
  obtain ⟨⟨head, prev, hcell⟩, hrest⟩ := hs
  exact ⟨head, prev, h.put n.addr none, read_ok hcell, free_ok hcell,
    hrest.congr (cell_put_of_notMem _ (nodup_cons.mp hnodup).1 _),
    fun a ha => cell_put_ne _ ha _⟩

variable [DecidableEq K]

/-- `entries` without the keys of some nodes. -/
def eraseKeys (entries : AList (fun _ : K => Ptr)) (ns : List (NodeAt K V)) :
    AList (fun _ : K => Ptr) :=
  ns.foldl (fun e n => e.erase n.key) entries

theorem eraseKeys_append (entries : AList (fun _ : K => Ptr)) (xs ys : List (NodeAt K V)) :
    eraseKeys entries (xs ++ ys) = eraseKeys (eraseKeys entries xs) ys := by
  simp [eraseKeys]

theorem Indexed.eraseKeys :
    ∀ {entries : AList (fun _ : K => Ptr)}, Indexed entries (xs ++ ys) →
      ((xs ++ ys).map key).Nodup → Indexed (eraseKeys entries xs) ys := by
  induction xs with
  | nil => exact fun h _ => h
  | cons n xs ih =>
    intro entries h hnodup
    obtain ⟨hn, hrest⟩ := nodup_cons.mp hnodup
    exact ih (h.erase hn) hrest

theorem consume_spec :
    ∀ (count : Nat) (ns : List (NodeAt K V)) (entries : AList (fun _ : K => Ptr))
      (h : Heap (Node K V)), Strung h ns none → (addrs ns).Nodup →
      ∃ h', consume count ⟨entries, firstPtr ns none, h⟩ =
          .ok ((ns.take count).map value,
            ⟨eraseKeys entries (ns.take count), firstPtr (ns.drop count) none, h'⟩) ∧
        Strung h' (ns.drop count) none ∧
        ∀ a, a ∉ addrs (ns.take count) → h'.cell a = h.cell a := by
  intro count
  induction count with
  | zero =>
    intro ns entries h hs _
    exact ⟨h, by simp [consume, eraseKeys], hs, fun _ _ => rfl⟩
  | succ count ih =>
    intro ns entries h hs hnodup
    cases ns with
    | nil =>
      obtain ⟨h', hrest, -, hframe⟩ := ih [] entries h trivial (by simp)
      refine ⟨h', ?_, trivial, by simpa using hframe⟩
      simp only [take_nil, drop_nil, firstPtr_nil] at hrest
      simp [consume, Drain.next, hrest]
    | cons n ns =>
      obtain ⟨head, prev, h₁, hread, hfree, hs₁, hframe₁⟩ := hs.free hnodup
      obtain ⟨h', hrest, hs', hframe⟩ := ih ns (entries.erase n.key) h₁ hs₁ (nodup_cons.mp hnodup).2
      refine ⟨h', ?_, hs', ?_⟩
      · simp only [consume, Drain.next, firstPtr_cons, hread, hfree, ok_bind, pure_eq_ok,
          hrest]
        rfl
      · intro a ha
        rw [take_succ_cons, addrs_cons, mem_cons, not_or] at ha
        rw [hframe a ha.2, hframe₁ a ha.1]

theorem dropChain_spec :
    ∀ (ns : List (NodeAt K V)) (fuel : Nat) (entries : AList (fun _ : K => Ptr))
      (h : Heap (Node K V)), Strung h ns none → (addrs ns).Nodup → ns.length ≤ fuel →
      ∃ h', dropChain fuel (firstPtr ns none) entries h = .ok (eraseKeys entries ns, h') ∧
        ∀ a, a ∉ addrs ns → h'.cell a = h.cell a := by
  intro ns
  induction ns with
  | nil =>
    intro fuel entries h _ _ _
    exact ⟨h, by cases fuel <;> rfl, fun _ _ => rfl⟩
  | cons n ns ih =>
    intro fuel entries h hs hnodup hfuel
    obtain ⟨fuel, rfl⟩ : ∃ f, fuel = f + 1 := ⟨fuel - 1, by simp at hfuel; omega⟩
    obtain ⟨head, prev, h₁, hread, hfree, hs₁, hframe₁⟩ := hs.free hnodup
    obtain ⟨h', hrest, hframe⟩ := ih fuel (entries.erase n.key) h₁ hs₁
      (nodup_cons.mp hnodup).2 (by simpa using hfuel)
    refine ⟨h', ?_, ?_⟩
    · simp only [firstPtr_cons, dropChain, hread, hfree, ok_bind, hrest]
      rfl
    · intro a ha
      rw [addrs_cons, mem_cons, not_or] at ha
      rw [hframe a ha.2, hframe₁ a ha.1]

variable [LinearOrder T]

theorem Rep.drain (h : Rep m L) (range : T → Bool) (count : Nat) :
    ∃ m' L', m.drain range count =
        .ok ((drain range count (chains L)).1, m') ∧ Rep m' L' ∧
      chains L' = (drain range count (chains L)).2 := by
  have hretain := retainHeads_spec h.laid range
  have hkeptc : chains (L.filter fun c => !range c.time) =
      (chains L).filter fun c => !range c.1 := by
    rw [Layout.chains, Layout.chains, filter_map]
    rfl
  have hdrainedc : ((chains L).filter fun c => range c.1).flatMap Prod.snd =
      (nodes (L.filter fun c => range c.time)).map fun n => (n.key, n.value) := by
    rw [Layout.chains, filter_map, flatMap_map, Layout.nodes, map_flatMap]
    rfl
  have hperm : ((L.filter fun c => range c.time) ++ L.filter fun c => !range c.time).Perm L :=
    filter_append_perm _ L
  have hlaidk : Laid m.boxes (L.filter fun c => !range c.time) := h.laid.sublist filter_sublist
  have hlaidd : Laid m.boxes (L.filter fun c => range c.time) := h.laid.sublist filter_sublist
  have hfull : ∀ c ∈ L.filter (fun c => range c.time), c.nodes ≠ [] := by
    intro c hc
    have := h.wf.full _ (mem_map_of_mem (mem_filter.mp hc).1)
    simpa using this
  generalize hkept : (L.filter fun c => !range c.time) = kept at *
  generalize hdrained : (L.filter fun c => range c.time) = drained at *
  -- the drained part and the kept part share no addresses
  have hpermn : (nodes drained ++ nodes kept).Perm (nodes L) := by
    rw [← nodes_append]
    exact hperm.flatMap_right _
  have hapart : ∀ {α β : Type} {f : α → β} {xs ys zs : List α}, (xs ++ ys).Perm zs →
      (zs.map f).Nodup → ∀ a ∈ ys.map f, a ∉ xs.map f := by
    intro α β f xs ys zs hp hnd a ha ha'
    rw [← (hp.map f).nodup_iff, map_append] at hnd
    exact disjoint_of_nodup_append hnd ha' ha
  have hheads := hapart hperm h.laid.heads
  have haddrs := hapart hpermn h.laid.nodes
  -- the run of the code
  obtain ⟨b', hjoin, hstrung, hframe, hheads'⟩ := joinChains_spec drained [] m.boxes hlaidd hfull
    trivial hlaidd.nodes
  rw [nil_append] at hjoin hstrung hframe
  obtain ⟨h₁, hconsume, hstrung₁, hframe₁⟩ := consume_spec count _ m.entries _ hstrung hlaidd.nodes
  have hnd₁ : (addrs ((nodes drained).drop count)).Nodup :=
    hlaidd.nodes.sublist ((drop_sublist _ _).map _)
  obtain ⟨h₂, hdrop, hframe₂⟩ := dropChain_spec _ h₁.boxes.length
    (eraseKeys m.entries ((nodes drained).take count)) h₁ hstrung₁ hnd₁
    (length_le_boxes hnd₁ hstrung₁.live)
  rw [← eraseKeys_append, take_append_drop] at hdrop
  refine ⟨⟨eraseKeys m.entries (nodes drained), ptrs kept, ⟨b'.heads, h₂⟩⟩, kept, ?_,
    ⟨?_, rfl, ?_, ?_⟩, ?_⟩
  · rw [Chains.drain, hdrainedc, ← map_take, map_map]
    simp only [ChronoMap.drain, h.timeline, hretain, ok_bind]
    simp only [firstPtr_nil, lastPtr_nil] at hjoin
    simp only [hjoin, ok_bind, hconsume, hdrop, pure_eq_ok]
    rfl
  · refine hlaidk.congr (fun a ha => hheads' a (hheads a ha)) fun a ha => ?_
    have hno := haddrs a ha
    have htake : a ∉ addrs ((nodes drained).take count) := fun hx =>
      hno (((take_sublist _ _).map _).subset hx)
    have hdropped : a ∉ addrs ((nodes drained).drop count) := fun hx =>
      hno (((drop_sublist _ _).map _).subset hx)
    rw [hframe₂ a hdropped, hframe₁ a htake, hframe a hno]
  · rw [hkeptc]
    exact h.wf.sublist filter_sublist
  · refine (Indexed.perm h.entries (hpermn.map _)).eraseKeys ?_
    exact (hpermn.map key).nodup_iff.mpr (keys_chains L ▸ h.wf.keys)
  · exact hkeptc

end Draining

end ZeroTrace.Chrono
