import ZeroTrace.ChronoLayout

/-!
# The pointer operations compute the chain operations

For each operation of the map: on boxes that hold a layout it runs without an
invalid access and without a panic, and leaves boxes that hold the layout with
the corresponding operation on its chains carried out.
-/

namespace ZeroTrace.Chrono

open RustExec TypedHeap Chains List Heap Layout

variable {T K V : Type} [LinearOrder T]

variable {m : ChronoMap T K V} {L A B : Layout T K V} {c : ChainAt T K V}

theorem Layout.sorted_iff : Sorted L ↔ (chains L).Pairwise fun c d => c.1 < d.1 := by
  rw [chains, pairwise_map]
  rfl

theorem Layout.Sorted.around (h : Sorted (A ++ c :: B)) :
    (∀ x ∈ A, x.time < c.time) ∧ ∀ x ∈ B, c.time < x.time := by
  obtain ⟨-, hB, hAB⟩ := pairwise_append.mp h
  exact ⟨fun x hx => hAB x hx c mem_cons_self, (pairwise_cons.mp hB).1⟩

theorem insertIdx_length_append {α : Type} (xs ys : List α) (a : α) :
    (xs ++ ys).insertIdx xs.length a = xs ++ a :: ys := by
  induction xs with
  | nil => rfl
  | cons x xs ih => simp [ih]

variable {b : Boxes T K V}

/-- **Opening a chain.**  The chain of a time is found, or an empty one is put
in its place. -/
theorem findOrCreateTimeChain_spec (h : Laid b L) (hs : Sorted L) (t : T) :
    ∃ A c B heads', findOrCreateTimeChain (ptrs L) b.heads t =
        .ok (some c.addr, ptrs (A ++ c :: B), heads') ∧
      Laid ⟨heads', b.nodes⟩ (A ++ c :: B) ∧ c.time = t ∧
      (∀ x ∈ A, x.time < t) ∧ (∀ x ∈ B, t < x.time) ∧
      (L = A ++ c :: B ∨ (c.nodes = [] ∧ L = A ++ B ∧ b.heads.cell c.addr = none)) ∧
      ∀ a v, b.heads.cell a = some v → heads'.cell a = some v := by
  rcases searchTimeline_spec h hs t with
    ⟨A, c, B, rfl, rfl, hsearch⟩ | ⟨A, B, rfl, hlow, hhigh, hsearch⟩
  · have hidx : index (ptrs (A ++ c :: B)) A.length = .ok (some c.addr) := by
      apply index_ok
      simp [ptrs]
    obtain ⟨hlow, hhigh⟩ := hs.around
    refine ⟨A, c, B, b.heads, ?_, h, rfl, hlow, hhigh, .inl rfl, fun _ _ hv => hv⟩
    simp only [findOrCreateTimeChain, hsearch, ok_bind, hidx, pure_eq_ok]
  set a := b.heads.boxes.length with ha
  have hkeep : ∀ x v, b.heads.cell x = some v →
      (b.heads.alloc ⟨t, none⟩).2.cell x = some v := by
    intro x v hv
    rw [cell_alloc_ne _ _ (Nat.ne_of_lt (cell_lt hv)), hv]
  have hptrs : (ptrs (A ++ B)).insertIdx A.length (some a) =
      ptrs (A ++ (⟨a, t, []⟩ : ChainAt T K V) :: B) := by
    have hlen : A.length = (ptrs A).length := by simp [ptrs]
    have happ : ptrs (A ++ B) = ptrs A ++ ptrs B := by simp [ptrs]
    rw [hlen, happ, insertIdx_length_append]
    simp [ptrs]
  have hidx : index (ptrs (A ++ (⟨a, t, []⟩ : ChainAt T K V) :: B)) A.length =
      .ok (some a) := by
    apply index_ok
    simp [ptrs]
  refine ⟨A, ⟨a, t, []⟩, B, (b.heads.alloc ⟨t, none⟩).2, ?_, ?_, rfl, hlow, hhigh,
    .inr ⟨rfl, rfl, cell_fresh _⟩, hkeep⟩
  · have hfst : (b.heads.alloc ⟨t, none⟩).1 = some a := rfl
    simp only [findOrCreateTimeChain, hsearch, ok_bind, hfst, hptrs, hidx, pure_eq_ok]
  refine laid_middle.mpr ⟨⟨cell_alloc_self _ _, trivial⟩, h.congr ?_ fun _ _ => rfl, ?_,
    by simp, by simp⟩
  · refine forall_mem_map.mpr fun c hc => ?_
    rw [(h.chain c hc).head, hkeep _ _ (h.chain c hc).head]
  · -- the new address is not the address of a live head
    intro hx
    obtain ⟨c, hc, heq⟩ := mem_map.mp hx
    have hcell := (h.chain c hc).head
    rw [heq] at hcell
    exact absurd (cell_lt hcell) (lt_irrefl _)

variable {n : NodeAt K V}

/-- **Attaching a node.** -/
theorem attachNode_spec {p q r : Ptr} (h : Laid b L) (hs : Sorted L)
    (hcell : b.nodes.cell n.addr = some ⟨n.key, n.value, p, q, r⟩)
    (hnew : n.addr ∉ addrs (nodes L)) (t : T) :
    ∃ L' b', attachNode (ptrs L) b (some n.addr) t = .ok (ptrs L', b') ∧
      Laid b' L' ∧ chains L' = push t (n.key, n.value) (chains L) ∧
      (nodes L').Perm (n :: nodes L) ∧
      (∀ a, a ≠ n.addr → a ∉ addrs (nodes L) → b'.nodes.cell a = b.nodes.cell a) ∧
      ∀ a v, a ∉ L.map ChainAt.addr → b.heads.cell a = some v →
        a ∉ L'.map ChainAt.addr ∧ b'.heads.cell a = some v := by
  obtain ⟨A, c, B, heads', hfind, hlaid, htime, hlow, hhigh, hL, hkeep⟩ :=
    findOrCreateTimeChain_spec h hs t
  obtain ⟨hc, hrest, haddr, hnodup, hapart⟩ := laid_middle.mp hlaid
  have hperm : (nodes (A ++ c :: B)).Perm (nodes L) := by
    rcases hL with rfl | ⟨hnil, rfl, hfresh⟩
    · exact .refl _
    · simp [hnil]
  have hmem : ∀ a, a ∈ addrs (nodes (A ++ c :: B)) ↔ a ∈ addrs (nodes L) :=
    fun a => (hperm.map NodeAt.addr).mem_iff
  have hnewc : n.addr ∉ addrs c.nodes := by
    intro hn
    refine hnew ((hmem _).mp ?_)
    simp [hn]
  have hnewrest : n.addr ∉ addrs (nodes (A ++ B)) := by
    intro hn
    refine hnew ((hmem _).mp ?_)
    simp only [nodes_append, nodes_cons, addrs_append, mem_append] at hn ⊢
    tauto
  obtain ⟨b', hins, hc', hframe, hheads⟩ := insertIntoTimeChain_spec hc hcell hnewc hnodup
  refine ⟨A ++ { c with nodes := n :: c.nodes } :: B, b', ?_, ?_, ?_, ?_, ?_, ?_⟩
  · have hptrs : ptrs (A ++ c :: B) =
        ptrs (A ++ { c with nodes := n :: c.nodes } :: B) := by
      simp [ptrs]
    simp only [attachNode, hfind, ok_bind, hins, hptrs, pure_eq_ok]
  · refine laid_middle.mpr ⟨hc', hrest.congr ?_ ?_, haddr, ?_, ?_⟩
    · exact fun a ha => hheads a (ne_of_mem_of_not_mem ha haddr)
    · exact fun a ha => hframe a (ne_of_mem_of_not_mem ha hnewrest) fun hx => hapart a hx ha
    · exact nodup_cons.mpr ⟨hnewc, hnodup⟩
    · exact forall_mem_cons.mpr ⟨hnewrest, hapart⟩
  · have hlow' : ∀ x ∈ chains A, x.1 < t := forall_mem_map.mpr hlow
    have hhigh' : ∀ x ∈ chains B, t < x.1 := forall_mem_map.mpr hhigh
    rcases hL with rfl | ⟨hnil, rfl, hfresh⟩
    · simp only [chains_append, chains_cons, htime, push_split hlow', map_cons]
    · simp only [chains_append, chains_cons, htime, push_gap hlow' hhigh', hnil, map_cons, map_nil]
  · refine List.Perm.trans ?_ (hperm.cons n)
    simp only [nodes_append, nodes_cons, cons_append]
    exact perm_middle
  · intro a hne ha
    refine hframe a hne fun hx => ha ((hmem a).mp ?_)
    simp [hx]
  · intro a v ha hv
    have hne : a ≠ c.addr := by
      rintro rfl
      rcases hL with rfl | ⟨-, rfl, hfresh⟩
      · exact ha (by simp)
      · rw [hfresh] at hv
        cases hv
    refine ⟨?_, by rw [hheads a hne]; exact hkeep a v hv⟩
    rcases hL with rfl | ⟨-, rfl, -⟩
    · simpa using ha
    · simpa [hne] using ha

theorem Layout.Sorted.unique {A A' B B' : Layout T K V} {c c' : ChainAt T K V}
    (h : Sorted (A ++ c :: B)) (heq : A ++ c :: B = A' ++ c' :: B') (htime : c'.time = c.time) :
    A' = A ∧ c' = c ∧ B' = B := by
  obtain ⟨hA, hB⟩ := h.around
  have hnotA : c' ∉ A := fun hx => (hA c' hx).ne htime
  have hnotB : c' ∉ B := fun hx => (hB c' hx).ne' htime
  obtain ⟨rfl, rfl, rfl⟩ := (append_cons_inj_of_notMem hnotA hnotB).mp heq
  exact ⟨rfl, rfl, rfl⟩

/-- Dropping a chain whose last node has been taken.  The search finds it, so
the `unreachable!()` behind it is not reached. -/
theorem dropEmptyChain_spec (h : Laid b (A ++ c :: B)) (hs : Sorted (A ++ c :: B))
    (hnil : c.nodes = []) :
    dropEmptyChain (ptrs (A ++ c :: B)) b.heads (some c.addr) =
      .ok (ptrs (A ++ B), b.heads.put c.addr none) := by
  have hhead := (h.chain c (by simp)).head
  rw [hnil, firstPtr_nil] at hhead
  have hsearch : searchTimeline b.heads (ptrs (A ++ c :: B)) c.time =
      .ok (.ok A.length) := by
    rcases searchTimeline_spec h hs c.time with
      ⟨A', c', B', heq, htime, hfound⟩ | ⟨A', B', heq, hlow, hhigh, -⟩
    · obtain ⟨rfl, -, -⟩ := hs.unique heq htime
      exact hfound
    have hc : c ∈ A' ++ B' := heq ▸ (by simp)
    rcases mem_append.mp hc with hc | hc
    · exact absurd (hlow c hc) (lt_irrefl _)
    · exact absurd (hhigh c hc) (lt_irrefl _)
  have hget : (ptrs (A ++ c :: B))[A.length]? = some (some c.addr) := by simp [ptrs]
  have herase : (ptrs (A ++ c :: B)).eraseIdx A.length = ptrs (A ++ B) := by
    have hlen : (ptrs A).length = A.length := by simp [ptrs]
    have hsplit : ptrs (A ++ c :: B) = ptrs A ++ some c.addr :: ptrs B := by simp [ptrs]
    rw [hsplit, eraseIdx_append_of_length_le hlen.le, hlen, Nat.sub_self, eraseIdx_cons_zero]
    simp [ptrs]
  simp [dropEmptyChain, read_ok hhead, hsearch, hget, free_ok hhead, herase]

variable {xs ys : List (NodeAt K V)} {k : K} {p : Ptr}

/-- **Removing a node from its chain.** -/
theorem removeFromTimeChain_spec [DecidableEq K] (h : Laid b (A ++ c :: B))
    (hwf : WellFormed (chains (A ++ c :: B))) (hnodes : c.nodes = xs ++ n :: ys) :
    ∃ L' b', removeFromTimeChain (ptrs (A ++ c :: B)) b (some n.addr) =
        .ok (ptrs L', b') ∧
      Laid b' L' ∧ chains L' = detach n.key (chains (A ++ c :: B)) ∧
      (n :: nodes L').Perm (nodes (A ++ c :: B)) ∧
      b'.nodes.cell n.addr = some ⟨n.key, n.value, none, none, none⟩ := by
  obtain ⟨hc, hrest, haddr, hnodup, hapart⟩ := laid_middle.mp h
  have hs : Sorted (A ++ c :: B) := sorted_iff.mpr hwf.sorted
  obtain ⟨b₁, hunlink, hc₁, hcell₁, hframe, hheads⟩ := unlinkNode_spec hc hnodes hnodup
  obtain ⟨hndx, hndy, hnx, hny, hxy⟩ := nodup_split (hnodes ▸ hnodup)
  have hsub : ∀ a ∈ addrs (xs ++ ys), a ∈ addrs c.nodes := by
    intro a ha
    rw [hnodes]
    simp only [addrs_append, addrs_cons, mem_append, mem_cons] at ha ⊢
    tauto
  have hnd : (addrs (xs ++ ys)).Nodup := by
    rw [addrs_append, nodup_append']
    exact ⟨hndx, hndy, fun a ha ha' => hxy a ha ha'⟩
  have hlaid₁ : Laid b₁ (A ++ { c with nodes := xs ++ ys } :: B) := by
    refine laid_middle.mpr ⟨hc₁, hrest.congr ?_ ?_, haddr, hnd, fun a ha => hapart a (hsub a ha)⟩
    · exact fun a ha => hheads a (ne_of_mem_of_not_mem ha haddr)
    · exact fun a ha => hframe a fun hx => hapart a hx ha
  have hperm : (n :: nodes (A ++ { c with nodes := xs ++ ys } :: B)).Perm
      (nodes (A ++ c :: B)) := by
    have hsplit : nodes (A ++ c :: B) =
        (nodes A ++ xs) ++ n :: (ys ++ nodes B) := by
      simp [hnodes]
    have hmiddle : (n :: ((nodes A ++ xs) ++ (ys ++ nodes B))).Perm
        ((nodes A ++ xs) ++ n :: (ys ++ nodes B)) := perm_middle.symm
    rw [hsplit]
    simpa using hmiddle
  have hchains := chains_split A B hnodes
  have hdetach := detach_split (hchains ▸ hwf)
  rw [← hchains] at hdetach
  have hptrs : ptrs (A ++ c :: B) =
      ptrs (A ++ { c with nodes := xs ++ ys } :: B) := by
    simp [ptrs]
  by_cases hnil : xs ++ ys = []
  · refine ⟨A ++ B, { b₁ with heads := b₁.heads.put c.addr none }, ?_, ?_, ?_, ?_, hcell₁⟩
    · have hs₁ : Sorted (A ++ { c with nodes := xs ++ ys } :: B) := by
        simpa [Sorted, pairwise_append] using hs
      have hdrop := dropEmptyChain_spec hlaid₁ hs₁ hnil
      simp only [removeFromTimeChain, hunlink, ok_bind, hptrs, hdrop, pure_eq_ok]
    · exact (hlaid₁.sublist (by simp)).congr (cell_put_of_notMem _ haddr _) fun _ _ => rfl
    · rw [hdetach, ← map_append, hnil]
      simp
    · simpa [hnil] using hperm
  · refine ⟨A ++ { c with nodes := xs ++ ys } :: B, b₁, ?_, hlaid₁, ?_, hperm, hcell₁⟩
    · have hread := read_ok hc₁.head
      have hsome : (firstPtr (xs ++ ys) none).isSome = true := by
        cases hxy' : xs ++ ys with
        | nil => exact absurd hxy' hnil
        | cons m ms => rfl
      simp only [removeFromTimeChain, hunlink, ok_bind, hptrs, dropEmptyChain, hread, hsome,
        if_true, pure_eq_ok]
    · rw [hdetach, ← map_append, if_neg (by simpa using hnil)]
      simp

section Indexed

variable [DecidableEq K] {entries : AList fun _ : K => Ptr} {ns ms : List (NodeAt K V)}

/-- `entries` leads from the keys of some nodes, and from no other key, to the nodes. -/
def Indexed (entries : AList fun _ : K => Ptr) (ns : List (NodeAt K V)) : Prop :=
  ∀ k p, entries.lookup k = some p ↔ ∃ n ∈ ns, n.key = k ∧ p = some n.addr

theorem Indexed.perm (h : Indexed entries ns)
    (hperm : (ms.map fun n => (n.key, n.addr)).Perm (ns.map fun n => (n.key, n.addr))) :
    Indexed entries ms := by
  intro k p
  have hpairs : ∀ xs : List (NodeAt K V), (∃ n ∈ xs, n.key = k ∧ p = some n.addr) ↔
      ∃ x ∈ xs.map fun n => (n.key, n.addr), x.1 = k ∧ p = some x.2 := by simp
  rw [h k p, hpairs, hpairs]
  simp only [hperm.mem_iff]

theorem Indexed.erase (h : Indexed entries (n :: ns)) (hn : n.key ∉ ns.map NodeAt.key) :
    Indexed (entries.erase n.key) ns := by
  intro k p
  by_cases hk : k = n.key
  · subst hk
    rw [AList.lookup_erase]
    constructor
    · intro hno
      cases hno
    · rintro ⟨x, hx, heq, -⟩
      exact absurd (heq ▸ mem_map_of_mem hx) hn
  · rw [AList.lookup_erase_ne hk, h k p]
    simp [Ne.symm hk]

theorem Indexed.insert (h : Indexed entries ns) (hn : n.key ∉ ns.map NodeAt.key) :
    Indexed (entries.insert n.key (some n.addr)) (n :: ns) := by
  intro k p
  by_cases hk : k = n.key
  · subst hk
    rw [AList.lookup_insert]
    constructor
    · intro hp
      exact ⟨n, mem_cons_self, rfl, (Option.some.inj hp).symm⟩
    · rintro ⟨x, hx, heq, rfl⟩
      rcases mem_cons.mp hx with rfl | hx
      · rfl
      · exact absurd (heq ▸ mem_map_of_mem hx) hn
  · rw [AList.lookup_insert_ne hk, h k p]
    simp [Ne.symm hk]

end Indexed

/-- A map and the layout its boxes hold: the timeline lists the heads of the
chains in the order of their times, no chain is empty, and `entries` leads from
every key that is on a chain, and from no other, to its node. -/
structure Rep [DecidableEq K] (m : ChronoMap T K V) (L : Layout T K V) : Prop where
  laid : Laid m.boxes L
  timeline : m.timeline = ptrs L
  wf : WellFormed (Layout.chains L)
  entries : ∀ k p, m.entries.lookup k = some p ↔
    ∃ n ∈ Layout.nodes L, n.key = k ∧ p = some n.addr

section Operations

variable [DecidableEq K]

theorem rep_new : Rep (ChronoMap.new : ChronoMap T K V) [] := by
  refine ⟨⟨by simp, by simp, by simp⟩, rfl, wellFormed_nil, ?_⟩
  intro k p
  simp [ChronoMap.new]

variable (h : Rep m L)

include h

theorem Rep.lookup_some (hp : m.entries.lookup k = some p) :
    ∃ A c B xs n ys, L = A ++ c :: B ∧ c.nodes = xs ++ n :: ys ∧ n.key = k ∧
      p = some n.addr ∧ find k (chains L) = some (c.time, n.value) := by
  obtain ⟨n, hn, rfl, rfl⟩ := (h.entries k p).mp hp
  obtain ⟨c, hc, hnc⟩ := mem_flatMap.mp hn
  obtain ⟨A, B, rfl⟩ := append_of_mem hc
  obtain ⟨xs, ys, hsplit⟩ := append_of_mem hnc
  refine ⟨A, c, B, xs, n, ys, rfl, hsplit, rfl, rfl, ?_⟩
  rw [find_eq_some h.wf.keys, entries_chains]
  refine mem_flatMap.mpr ⟨c, hc, mem_map.mpr ⟨n, hnc, rfl⟩⟩

theorem Rep.lookup_none (hk : m.entries.lookup k = none) : find k (chains L) = none := by
  rw [find_eq_none, keys_chains]
  intro hmem
  obtain ⟨n, hn, rfl⟩ := mem_map.mp hmem
  have := (h.entries n.key (some n.addr)).mpr ⟨n, hn, rfl, rfl⟩
  rw [hk] at this
  cases this

theorem Rep.get (k : K) : m.get k = .ok ((find k (chains L)).map Prod.snd) := by
  cases hk : m.entries.lookup k with
  | none => simp [ChronoMap.get, hk, h.lookup_none hk]
  | some p =>
    obtain ⟨A, c, B, xs, n, ys, rfl, hsplit, rfl, rfl, hfind⟩ := h.lookup_some hk
    have hlinked := (h.laid.chain c (by simp)).nodes
    rw [hsplit] at hlinked
    rw [hfind]
    simp [ChronoMap.get, hk, read_ok hlinked.cell]

theorem Rep.len : m.len = (Chains.entries (chains L)).length := by
  have hperm : m.entries.keys.Perm ((nodes L).map NodeAt.key) := by
    refine (perm_ext_iff_of_nodup m.entries.keys_nodup (keys_chains L ▸ h.wf.keys)).mpr ?_
    intro k
    rw [← AList.mem_keys, ← AList.lookup_isSome, Option.isSome_iff_exists, mem_map]
    constructor
    · rintro ⟨p, hp⟩
      obtain ⟨n, hn, hk, -⟩ := (h.entries k p).mp hp
      exact ⟨n, hn, hk⟩
    · rintro ⟨n, hn, hk⟩
      exact ⟨_, (h.entries k _).mpr ⟨n, hn, hk, rfl⟩⟩
  have hlen := hperm.length_eq
  rw [← keys_chains, length_map] at hlen
  rw [← hlen]
  simp [ChronoMap.len, AList.keys, List.keys]

omit h in
theorem Rep.node_cell (h : Rep m (A ++ c :: B)) (hsplit : c.nodes = xs ++ n :: ys) :
    m.boxes.nodes.cell n.addr =
      some ⟨n.key, n.value, some c.addr, lastPtr none xs, firstPtr ys none⟩ := by
  have hlinked := (h.laid.chain c (by simp)).nodes
  rw [hsplit] at hlinked
  exact hlinked.cell

omit h in
/-- **Relocation** moves an entry to the front of another chain. -/
theorem relocate_spec (h : Rep m (A ++ c :: B)) (hsplit : c.nodes = xs ++ n :: ys) (t : T) :
    ∃ m' L', relocate m (some n.addr) t = .ok m' ∧ Rep m' L' ∧ m'.entries = m.entries ∧
      chains L' = push t (n.key, n.value) (detach n.key (chains (A ++ c :: B))) := by
  obtain ⟨L₁, b₁, hrem, hlaid₁, hchains₁, hperm₁, hcell₁⟩ :=
    removeFromTimeChain_spec h.laid h.wf hsplit
  have hwf₁ : WellFormed (chains L₁) := hchains₁ ▸ h.wf.detach
  obtain ⟨L', b', hatt, hlaid', hchains', hperm', -, -⟩ :=
    attachNode_spec hlaid₁ (sorted_iff.mpr hwf₁.sorted) hcell₁ (notMem_of_perm h.laid hperm₁) t
  refine ⟨⟨m.entries, ptrs L', b'⟩, L', ?_, ⟨hlaid', rfl, ?_, ?_⟩, rfl, ?_⟩
  · simp only [relocate, h.timeline, hrem, ok_bind, hatt, pure_eq_ok]
  · rw [hchains', hchains₁]
    exact h.wf.detach.push (notMem_detach _ _)
  · exact Indexed.perm h.entries ((hperm'.trans hperm₁).map _)
  · rw [hchains', hchains₁]

omit h in
/-- **Taking a node** out of the map, once its key has left `entries`. -/
theorem takeNode_spec (h : Rep m (A ++ c :: B)) (hsplit : c.nodes = xs ++ n :: ys) :
    ∃ m' L', takeNode { m with entries := m.entries.erase n.key } (some n.addr) =
        .ok (n.value, m') ∧
      Rep m' L' ∧ chains L' = detach n.key (chains (A ++ c :: B)) := by
  obtain ⟨L₁, b₁, hrem, hlaid₁, hchains₁, hperm₁, hcell₁⟩ :=
    removeFromTimeChain_spec h.laid h.wf hsplit
  have hnew := notMem_of_perm h.laid hperm₁
  refine ⟨⟨m.entries.erase n.key, ptrs L₁, { b₁ with nodes := b₁.nodes.put n.addr none }⟩,
    L₁, ?_, ⟨?_, rfl, hchains₁ ▸ h.wf.detach, ?_⟩, hchains₁⟩
  · simp only [takeNode, h.timeline, hrem, ok_bind, free_ok hcell₁, pure_eq_ok]
  · exact hlaid₁.congr (fun _ _ => rfl) (cell_put_of_notMem _ hnew _)
  · refine (Indexed.perm h.entries (hperm₁.map _)).erase ?_
    rw [← keys_chains, hchains₁]
    exact notMem_detach _ _

theorem Rep.remove (k : K) :
    ∃ m' L', m.remove k = .ok ((remove k (chains L)).1, m') ∧ Rep m' L' ∧
      chains L' = (remove k (chains L)).2 := by
  cases hk : m.entries.lookup k with
  | none =>
    have hfind := h.lookup_none hk
    refine ⟨m, L, ?_, h, ?_⟩
    · simp [ChronoMap.remove, hk, Chains.remove, hfind]
    · simp [Chains.remove, hfind]
  | some p =>
    obtain ⟨A, c, B, xs, n, ys, rfl, hsplit, rfl, rfl, hfind⟩ := h.lookup_some hk
    obtain ⟨m', L', htake, hrep, hchains⟩ := takeNode_spec h hsplit
    refine ⟨m', L', ?_, hrep, ?_⟩
    · simp only [ChronoMap.remove, hk, htake, ok_bind, pure_eq_ok, remove, hfind]
    · simp only [hchains, remove, hfind]

theorem Rep.removeOldest :
    ∃ m' L', m.removeOldest = .ok ((removeOldest (chains L)).1, m') ∧
      Rep m' L' ∧ chains L' = (removeOldest (chains L)).2 := by
  cases L with
  | nil => exact ⟨m, [], by simp [ChronoMap.removeOldest, h.timeline, ptrs,
      removeOldest, Layout.chains], h, by simp [removeOldest, Layout.chains]⟩
  | cons c B =>
    have hfull := h.wf.full _ (mem_cons_self (a := (c.time, c.nodes.map _)))
    obtain ⟨n, ys, hnodes⟩ : ∃ n ys, c.nodes = n :: ys :=
      exists_cons_of_ne_nil (by simpa using hfull)
    have h' : Rep m ([] ++ c :: B) := h
    have hsplit : c.nodes = [] ++ n :: ys := hnodes
    have hhead := (h.laid.chain c (by simp)).head
    rw [hnodes, firstPtr_cons] at hhead
    have hentries : Chains.entries (chains (c :: B)) =
        (n.key, c.time, n.value) :: ((ys.map fun n => (n.key, c.time, n.value)) ++
          Chains.entries (chains B)) := by
      simp [hnodes, Function.comp_def]
    obtain ⟨m', L', htake, hrep, hchains⟩ := takeNode_spec h' hsplit
    refine ⟨m', L', ?_, hrep, ?_⟩
    · have hfirst : m.timeline.head? = some (some c.addr) := by simp [h.timeline, ptrs]
      simp only [ChronoMap.removeOldest, hfirst, read_ok hhead, ok_bind,
        read_ok (h'.node_cell hsplit), htake, pure_eq_ok, removeOldest, hentries]
    · simp only [removeOldest, hentries]
      exact hchains

theorem Rep.moveToTime (k : K) (t : T) :
    ∃ m' L', m.moveToTime k t = .ok m' ∧ Rep m' L' ∧
      chains L' = moveToTime k t (chains L) := by
  cases hk : m.entries.lookup k with
  | none =>
    have hfind := h.lookup_none hk
    exact ⟨m, L, by simp [ChronoMap.moveToTime, hk], h, by simp [Chains.moveToTime, hfind]⟩
  | some p =>
    obtain ⟨A, c, B, xs, n, ys, rfl, hsplit, rfl, rfl, hfind⟩ := h.lookup_some hk
    have hhead := (h.laid.chain c (by simp)).head
    have hread : m.moveToTime n.key t =
        if c.time = t then .ok m else relocate m (some n.addr) t := by
      simp only [ChronoMap.moveToTime, hk, read_ok (h.node_cell hsplit), ok_bind,
        read_ok hhead, pure_eq_ok]
    rw [hread]
    by_cases htime : c.time = t
    · exact ⟨m, _, by rw [if_pos htime], h, by simp only [moveToTime, hfind, if_pos htime]⟩
    · obtain ⟨m', L', hrel, hrep, -, hchains⟩ := relocate_spec h hsplit t
      refine ⟨m', L', by rw [if_neg htime]; exact hrel, hrep, ?_⟩
      simp only [hchains, moveToTime, hfind, if_neg htime]

theorem Rep.swapValue (hk : m.entries.lookup k = some p) (v : V) :
    ∃ t old m' L', find k (chains L) = some (t, old) ∧
      Chrono.swapValue m p v = .ok (old, m') ∧ Rep m' L' ∧
      chains L' = setValue k v (chains L) := by
  obtain ⟨A, c, B, xs, n, ys, rfl, hsplit, rfl, rfl, hfind⟩ := h.lookup_some hk
  have hcell := h.node_cell hsplit
  obtain ⟨hc, hrest, haddr, hnodup, hapart⟩ := laid_middle.mp h.laid
  have hchains := chains_split A B hsplit
  have haddrs : addrs (xs ++ { n with value := v } :: ys) = addrs c.nodes := by simp [hsplit]
  set L' : Layout T K V := A ++ { c with nodes := xs ++ { n with value := v } :: ys } :: B with hL'
  have hset : chains L' = setValue n.key v (chains (A ++ c :: B)) := by
    rw [hchains, setValue_split (hchains ▸ h.wf)]
    simp [hL']
  set nodes' := m.boxes.nodes.put n.addr
    (some ⟨n.key, v, some c.addr, lastPtr none xs, firstPtr ys none⟩) with hnodes'
  refine ⟨c.time, n.value, ⟨m.entries, m.timeline, ⟨m.boxes.heads, nodes'⟩⟩, L', hfind, ?_,
    ⟨?_, ?_, hset ▸ h.wf.setValue, ?_⟩, hset⟩
  · simp only [Chrono.swapValue, read_ok hcell, modify_ok hcell, ok_bind, pure_eq_ok, hnodes']
  · refine laid_middle.mpr ⟨⟨?_, ?_⟩, hrest.congr (fun _ _ => rfl) ?_, haddr, haddrs ▸ hnodup,
      haddrs ▸ hapart⟩
    · have hhead := hc.head
      rw [hsplit] at hhead
      cases xs <;> exact hhead
    · exact (hsplit ▸ hc.nodes).setValue (hsplit ▸ hnodup) v
    · exact cell_put_of_notMem _ (hapart n.addr (by simp [hsplit])) _
  · simp [h.timeline, ptrs, hL']
  · exact Indexed.perm h.entries (.of_eq (by simp [hL', hsplit]))

theorem Rep.insert_new (hk : m.entries.lookup k = none) (t : T) (v : V) :
    ∃ m' L', m.insert t k v = .ok (none, m') ∧ Rep m' L' ∧
      Layout.chains L' = push t (k, v) (Layout.chains L) := by
  set a := m.boxes.nodes.boxes.length with ha
  set nodes := (m.boxes.nodes.alloc ⟨k, v, none, none, none⟩).2 with hnodes
  have hkeep : ∀ x ∈ addrs (Layout.nodes L), nodes.cell x = m.boxes.nodes.cell x ∧ x ≠ a := by
    intro x hx
    obtain ⟨w, hw⟩ := h.laid.cell_of_mem hx
    have hne : x ≠ a := Nat.ne_of_lt (cell_lt hw)
    exact ⟨cell_alloc_ne _ _ hne, hne⟩
  have hlaid : Laid ⟨m.boxes.heads, nodes⟩ L :=
    h.laid.congr (fun _ _ => rfl) fun x hx => (hkeep x hx).1
  have hcell : nodes.cell a = some ⟨k, v, none, none, none⟩ := cell_alloc_self _ _
  obtain ⟨L', b', hatt, hlaid', hchains', hperm', -, -⟩ :=
    attachNode_spec (n := ⟨a, k, v⟩) hlaid (sorted_iff.mpr h.wf.sorted) hcell
      (fun hx => (hkeep a hx).2 rfl) t
  have hnew : k ∉ (Chains.entries (chains L)).map Prod.fst :=
    find_eq_none.mp (h.lookup_none hk)
  refine ⟨⟨m.entries.insert k (some a), ptrs L', b'⟩, L', ?_,
    ⟨hlaid', rfl, hchains' ▸ h.wf.push hnew, ?_⟩, hchains'⟩
  · obtain ⟨⟨head, timeline, heads⟩, hfind, hatt⟩ := bind_eq_ok hatt
    obtain ⟨b₁, hins, hret⟩ := bind_eq_ok hatt
    obtain ⟨rfl, rfl⟩ := Prod.mk.inj (Except.ok.inj hret)
    have halloc : m.boxes.nodes.alloc ⟨k, v, none, none, none⟩ = (some a, nodes) := rfl
    rw [← h.timeline] at hfind
    simp only [ChronoMap.insert, hk, hfind, ok_bind, halloc, hins, pure_eq_ok]
  · exact (Indexed.insert (n := ⟨a, k, v⟩) h.entries (keys_chains L ▸ hnew)).perm (hperm'.map _)

theorem Rep.insert (t : T) (k : K) (v : V) :
    ∃ m' L', m.insert t k v = .ok ((insert t k v (chains L)).1, m') ∧
      Rep m' L' ∧ chains L' = (insert t k v (chains L)).2 := by
  cases hk : m.entries.lookup k with
  | none =>
    obtain ⟨m', L', hins, hrep, hchains⟩ := h.insert_new hk t v
    have hfind := h.lookup_none hk
    exact ⟨m', L', by simp only [hins, Chains.insert, hfind], hrep,
      by simp only [hchains, Chains.insert, hfind]⟩
  | some p =>
    obtain ⟨A, c, B, xs, n, ys, rfl, hsplit, rfl, rfl, hfind⟩ := h.lookup_some hk
    have hhead := (h.laid.chain c (by simp)).head
    by_cases htime : c.time = t
    · obtain ⟨t', old, m', L', hfind', hswap, hrep, hchains⟩ := h.swapValue hk v
      rw [hfind] at hfind'
      cases hfind'
      refine ⟨m', L', ?_, hrep, ?_⟩
      · simp only [ChronoMap.insert, hk, read_ok (h.node_cell hsplit), ok_bind,
          read_ok hhead, htime, ne_eq, not_true, if_false, hswap, pure_eq_ok,
          Chains.insert, hfind, if_true]
      · simp only [hchains, Chains.insert, hfind, if_pos htime]
    · obtain ⟨m₁, L₁, hrel, hrep₁, hentries, hchains₁⟩ := relocate_spec h hsplit t
      obtain ⟨t', old, m', L', hfind', hswap, hrep, hchains⟩ := hrep₁.swapValue (hentries ▸ hk) v
      have hold : old = n.value := by
        have hmem := (find_eq_some hrep₁.wf.keys).mp hfind'
        rw [hchains₁, (entries_push _ _ _).mem_iff, mem_cons] at hmem
        rcases hmem with heq | hmem
        · cases heq
          rfl
        · exact absurd (mem_map_of_mem hmem) (notMem_detach _ _)
      refine ⟨m', L', ?_, hrep, ?_⟩
      · simp only [ChronoMap.insert, hk, read_ok (h.node_cell hsplit), ok_bind,
          read_ok hhead, ne_eq, htime, not_false_iff, if_true, hrel, hswap, pure_eq_ok,
          Chains.insert, hfind, if_false, hold]
      · simp only [hchains, hchains₁, Chains.insert, hfind, if_neg htime]
        exact setValue_push h.wf.detach (notMem_detach _ _)

end Operations

end ZeroTrace.Chrono
