import ZeroTrace.ChronoChains

/-!
# How the boxes of a map spell out its chains

A layout is a list of chains with the addresses of their heads and nodes.
`Laid b L` says that the boxes `b` hold the layout `L`: every head box carries
its time and a pointer to its first node, every node box carries its entry and
the links to its head and its two neighbours, and no address is used twice.

Each pointer operation of the map is then described by what it does to the
layout, and by a frame: the boxes it leaves alone.
-/

namespace ZeroTrace.Chrono

open RustExec TypedHeap HalvingSearch List Heap

structure NodeAt (K V : Type) where
  addr : Nat
  key : K
  value : V

/-- A chain, the address of its head, and its nodes from first to last. -/
structure ChainAt (T K V : Type) where
  addr : Nat
  time : T
  nodes : List (NodeAt K V)

/-- The chains of a map in the order of its timeline. -/
abbrev Layout (T K V : Type) := List (ChainAt T K V)

variable {T K V : Type}

variable (p : Ptr) (xs ys : List (NodeAt K V)) (n : NodeAt K V) (ns : List (NodeAt K V))

/-- The pointer to the first of some nodes, or to what follows them. -/
def firstPtr (following : Ptr) : Ptr :=
  match ns with
  | [] => following
  | n :: _ => some n.addr

/-- The pointer to the last of some nodes, or to what precedes them. -/
def lastPtr (preceding : Ptr) (ns : List (NodeAt K V)) : Ptr :=
  match ns.getLast? with
  | none => preceding
  | some n => some n.addr

/-- The boxes of consecutive nodes of a chain: `prev` comes before them and
`next` after them. -/
def Linked (h : Heap (Node K V)) (head : Ptr) : Ptr → List (NodeAt K V) → Ptr → Prop
  | _, [], _ => True
  | prev, n :: ns, next =>
    h.cell n.addr = some ⟨n.key, n.value, head, prev, firstPtr ns next⟩ ∧
      Linked h head (some n.addr) ns next

/-- The addresses of some nodes. -/
def addrs : List Nat := ns.map NodeAt.addr

@[simp] theorem addrs_nil : addrs ([] : List (NodeAt K V)) = [] := rfl

@[simp] theorem addrs_cons : addrs (n :: ns) = n.addr :: addrs ns := rfl

@[simp] theorem addrs_append : addrs (xs ++ ys) = addrs xs ++ addrs ys := by
  simp [addrs]

@[simp] theorem firstPtr_nil : firstPtr ([] : List (NodeAt K V)) p = p := rfl

@[simp] theorem firstPtr_cons (p : Ptr) : firstPtr (n :: ns) p = some n.addr := rfl

theorem firstPtr_append (p : Ptr) : firstPtr (xs ++ ys) p = firstPtr xs (firstPtr ys p) := by
  cases xs <;> rfl

@[simp] theorem lastPtr_nil : lastPtr p ([] : List (NodeAt K V)) = p := rfl

@[simp] theorem lastPtr_append_singleton (n : NodeAt K V) :
    lastPtr p (ns ++ [n]) = some n.addr := by
  simp [lastPtr]

theorem lastPtr_cons : lastPtr p (n :: ns) = lastPtr (some n.addr) ns := by
  rcases eq_nil_or_concat ns with rfl | ⟨xs, x, rfl⟩
  · rfl
  · simp [lastPtr, getLast?_cons]

theorem lastPtr_append : lastPtr p (xs ++ ys) = lastPtr (lastPtr p xs) ys := by
  rcases eq_nil_or_concat ys with rfl | ⟨zs, z, rfl⟩
  · simp
  · rw [concat_eq_append, ← append_assoc, lastPtr_append_singleton, lastPtr_append_singleton]

variable {xs ys} {h : Heap (Node K V)}

theorem linked_append {head : Ptr} :
    ∀ {prev next : Ptr}, Linked h head prev (xs ++ ys) next ↔
      Linked h head prev xs (firstPtr ys next) ∧ Linked h head (lastPtr prev xs) ys next := by
  induction xs with
  | nil => simp [Linked]
  | cons x xs ih =>
    intro prev next
    rw [cons_append, Linked, Linked, ih, firstPtr_append, lastPtr_cons, and_assoc]

variable {ns}

theorem Linked.congr {h h' : Heap (Node K V)} {head : Ptr}
    (heq : ∀ a ∈ addrs ns, h'.cell a = h.cell a) :
    ∀ {prev next : Ptr}, Linked h head prev ns next → Linked h' head prev ns next := by
  induction ns with
  | nil => intros; trivial
  | cons n ns ih =>
    rintro prev next ⟨hcell, hrest⟩
    refine ⟨by rw [heq n.addr (by simp)]; exact hcell, ih ?_ hrest⟩
    intro a ha
    exact heq a (by simp [ha])

variable {n} {head prev next : Ptr}

theorem Linked.cell (hl : Linked h head prev (xs ++ n :: ys) next) :
    h.cell n.addr = some ⟨n.key, n.value, head, lastPtr prev xs, firstPtr ys next⟩ :=
  (linked_append.mp hl).2.1

theorem Linked.setNext {xs : List (NodeAt K V)} (hl : Linked h head prev (xs ++ [n]) next)
    (hnodup : (addrs (xs ++ [n])).Nodup) (next' : Ptr) :
    Linked (h.put n.addr (some ⟨n.key, n.value, head, lastPtr prev xs, next'⟩)) head prev
      (xs ++ [n]) next' := by
  have hcell := hl.cell
  obtain ⟨hxs, -⟩ := linked_append.mp hl
  rw [addrs_append, nodup_append] at hnodup
  refine linked_append.mpr ⟨?_, ?_, trivial⟩
  · refine Linked.congr ?_ hxs
    intro a ha
    exact cell_put_ne _ (hnodup.2.2 a ha n.addr (by simp)) _
  · rw [cell_put_self hcell]
    rfl

theorem Linked.setPrev {ys : List (NodeAt K V)} (hl : Linked h head prev (n :: ys) next)
    (hnodup : (addrs (n :: ys)).Nodup) (prev' : Ptr) :
    Linked (h.put n.addr (some ⟨n.key, n.value, head, prev', firstPtr ys next⟩)) head prev'
      (n :: ys) next := by
  obtain ⟨hcell, hys⟩ := hl
  rw [addrs_cons, nodup_cons] at hnodup
  exact ⟨cell_put_self hcell _, hys.congr (cell_put_of_notMem _ hnodup.1 _)⟩

theorem Linked.setValue (hl : Linked h head prev (xs ++ n :: ys) next)
    (hnodup : (addrs (xs ++ n :: ys)).Nodup) (v : V) :
    Linked (h.put n.addr (some ⟨n.key, v, head, lastPtr prev xs, firstPtr ys next⟩)) head prev
      (xs ++ { n with value := v } :: ys) next := by
  have hcell := hl.cell
  obtain ⟨hxs, -, hys⟩ := linked_append.mp hl
  rw [addrs_append, addrs_cons, nodup_append, nodup_cons] at hnodup
  obtain ⟨-, ⟨hny, -⟩, hdis⟩ := hnodup
  refine linked_append.mpr ⟨?_, cell_put_self hcell _, ?_⟩
  · refine hxs.congr fun a ha => cell_put_ne _ ?_ _
    exact hdis a ha n.addr mem_cons_self
  · exact hys.congr (cell_put_of_notMem _ hny _)

structure ChainAt.Laid (b : Boxes T K V) (c : ChainAt T K V) : Prop where
  head : b.heads.cell c.addr = some ⟨c.time, firstPtr c.nodes none⟩
  nodes : Linked b.nodes (some c.addr) none c.nodes none

variable {c : ChainAt T K V}

theorem ChainAt.Laid.congr {b b' : Boxes T K V} (h : c.Laid b)
    (hhead : b'.heads.cell c.addr = b.heads.cell c.addr)
    (hnodes : ∀ a ∈ addrs c.nodes, b'.nodes.cell a = b.nodes.cell a) : c.Laid b' :=
  ⟨hhead.trans h.head, h.nodes.congr hnodes⟩

theorem nodup_split (h : (addrs (xs ++ n :: ys)).Nodup) :
    (addrs xs).Nodup ∧ (addrs ys).Nodup ∧ n.addr ∉ addrs xs ∧ n.addr ∉ addrs ys ∧
      ∀ a ∈ addrs xs, a ∉ addrs ys := by
  rw [addrs_append, addrs_cons, nodup_append, nodup_cons] at h
  obtain ⟨hxs, ⟨hny, hys⟩, hdis⟩ := h
  refine ⟨hxs, hys, fun hx => hdis _ hx _ mem_cons_self rfl, hny, ?_⟩
  intro a hx hy
  exact hdis a hx a (mem_cons_of_mem _ hy) rfl

variable {b : Boxes T K V}

theorem skipForward_spec (h : c.Laid b) (hnodes : c.nodes = xs ++ n :: ys)
    (hnodup : (addrs c.nodes).Nodup) :
    ∃ b', skipForward b ⟨n.key, n.value, some c.addr, lastPtr none xs, firstPtr ys none⟩ =
        .ok b' ∧
      b'.heads.cell c.addr = some ⟨c.time, firstPtr (xs ++ ys) none⟩ ∧
      Linked b'.nodes (some c.addr) none xs (firstPtr ys none) ∧
      (∀ a, a ∉ addrs xs → b'.nodes.cell a = b.nodes.cell a) ∧
      ∀ a, a ≠ c.addr → b'.heads.cell a = b.heads.cell a := by
  have hlinked := h.nodes
  have hhead := h.head
  rw [hnodes] at hlinked hnodup hhead
  obtain ⟨hxs, -⟩ := linked_append.mp hlinked
  obtain ⟨hnx, -, -, -, -⟩ := nodup_split hnodup
  rcases eq_nil_or_concat xs with rfl | ⟨as, p, rfl⟩
  · refine ⟨⟨b.heads.put c.addr (some ⟨c.time, firstPtr ys none⟩), b.nodes⟩, ?_,
      cell_put_self hhead _, trivial, fun a _ => rfl, fun a ha => cell_put_ne _ ha _⟩
    simp [skipForward, modify_ok hhead]
  rw [concat_eq_append] at *
  have hcell := hxs.cell
  refine ⟨⟨b.heads, b.nodes.put p.addr
    (some ⟨p.key, p.value, some c.addr, lastPtr none as, firstPtr ys none⟩)⟩,
    ?_, ?_, hxs.setNext hnx _, ?_, fun a _ => rfl⟩
  · simp [skipForward, modify_ok hcell]
  · simpa [firstPtr_append] using hhead
  intro a ha
  refine cell_put_ne _ ?_ _
  rintro rfl
  exact ha (by simp)

theorem setPrevOf_spec {head prev : Ptr} (hns : Linked h head prev ns none)
    (hnodup : (addrs ns).Nodup) (prev' : Ptr) :
    ∃ h', setPrevOf h (firstPtr ns none) prev' = .ok h' ∧
      Linked h' head prev' ns none ∧ ∀ a, a ∉ addrs ns → h'.cell a = h.cell a := by
  cases ns with
  | nil => exact ⟨h, rfl, trivial, fun a _ => rfl⟩
  | cons q ns =>
    refine ⟨h.put q.addr (some ⟨q.key, q.value, head, prev', firstPtr ns none⟩), ?_,
      hns.setPrev hnodup _, ?_⟩
    · simp [setPrevOf, modify_ok hns.1]
    intro a ha
    refine cell_put_ne _ ?_ _
    rintro rfl
    exact ha (by simp)

/-- **Unlinking.**  A node leaves its chain with its links cleared; no other
chain is touched. -/
theorem unlinkNode_spec (h : c.Laid b) (hnodes : c.nodes = xs ++ n :: ys)
    (hnodup : (addrs c.nodes).Nodup) :
    ∃ b', unlinkNode b (some n.addr) = .ok (some c.addr, b') ∧
      ChainAt.Laid b' { c with nodes := xs ++ ys } ∧
      b'.nodes.cell n.addr = some ⟨n.key, n.value, none, none, none⟩ ∧
      (∀ a, a ∉ addrs c.nodes → b'.nodes.cell a = b.nodes.cell a) ∧
      ∀ a, a ≠ c.addr → b'.heads.cell a = b.heads.cell a := by
  have hlinked := h.nodes
  rw [hnodes] at hlinked
  have hcell := hlinked.cell
  obtain ⟨-, -, hys⟩ := linked_append.mp hlinked
  obtain ⟨-, hndy, hnx, hny, hxy⟩ := nodup_split (hnodes ▸ hnodup)
  obtain ⟨b₁, hfwd, hhead₁, hxs₁, hframe₁, hheads₁⟩ := skipForward_spec h hnodes hnodup
  have hcell₁ := (hframe₁ n.addr hnx).trans hcell
  have hys₁ : Linked b₁.nodes (some c.addr) (some n.addr) ys none :=
    hys.congr fun a ha => hframe₁ a fun hx => hxy a hx ha
  obtain ⟨h₂, hbwd, hys₂, hframe₂⟩ := setPrevOf_spec hys₁ hndy (lastPtr none xs)
  have hcell₂ := (hframe₂ n.addr hny).trans hcell₁
  have hclear : ∀ a, a ≠ n.addr →
      (h₂.put n.addr (some ⟨n.key, n.value, none, none, none⟩)).cell a = h₂.cell a :=
    fun a ha => cell_put_ne _ ha _
  refine ⟨⟨b₁.heads, h₂.put n.addr (some ⟨n.key, n.value, none, none, none⟩)⟩, ?_, ⟨hhead₁, ?_⟩,
    cell_put_self hcell₂ _, ?_, hheads₁⟩
  · simp [unlinkNode, read_ok hcell, hfwd, read_ok hcell₁, hbwd, modify_ok hcell₂]
  · refine linked_append.mpr ⟨?_, ?_⟩
    · refine hxs₁.congr fun a ha => ?_
      have hne : a ≠ n.addr := fun heq => hnx (heq ▸ ha)
      rw [hclear a hne, hframe₂ a (hxy a ha)]
    · refine hys₂.congr fun a ha => hclear a fun heq => hny (heq ▸ ha)
  · intro a ha
    rw [hnodes, addrs_append, addrs_cons, mem_append, mem_cons, not_or, not_or] at ha
    rw [hclear a ha.2.1, hframe₂ a ha.2.2, hframe₁ a ha.1]

/-- **Pushing.**  A node that is on no chain goes in front of a chain. -/
theorem insertIntoTimeChain_spec {p q r : Ptr} (h : c.Laid b)
    (hcell : b.nodes.cell n.addr = some ⟨n.key, n.value, p, q, r⟩) (hnew : n.addr ∉ addrs c.nodes)
    (hnodup : (addrs c.nodes).Nodup) :
    ∃ b', insertIntoTimeChain b (some c.addr) (some n.addr) = .ok b' ∧
      ChainAt.Laid b' { c with nodes := n :: c.nodes } ∧
      (∀ a, a ≠ n.addr → a ∉ addrs c.nodes → b'.nodes.cell a = b.nodes.cell a) ∧
      ∀ a, a ≠ c.addr → b'.heads.cell a = b.heads.cell a := by
  obtain ⟨h₁, hback, hlink₁, hframe₁⟩ := setPrevOf_spec h.nodes hnodup (some n.addr)
  have hcell₁ := (hframe₁ n.addr hnew).trans hcell
  have hput : ∀ a, a ≠ n.addr → (h₁.put n.addr (some ⟨n.key, n.value, some c.addr, none,
      firstPtr c.nodes none⟩)).cell a = h₁.cell a := fun a ha => cell_put_ne _ ha _
  refine ⟨⟨b.heads.put c.addr (some ⟨c.time, some n.addr⟩), h₁.put n.addr
    (some ⟨n.key, n.value, some c.addr, none, firstPtr c.nodes none⟩)⟩, ?_,
    ⟨cell_put_self h.head _, cell_put_self hcell₁ _, ?_⟩, ?_,
    fun a ha => cell_put_ne _ ha _⟩
  · simp only [insertIntoTimeChain, read_ok h.head, ok_bind, hback,
      modify_ok hcell₁, modify_ok h.head, pure_eq_ok]
  · exact hlink₁.congr fun a ha => hput a fun heq => hnew (heq ▸ ha)
  · intro a hne ha
    rw [hput a hne, hframe₁ a ha]

variable (L : Layout T K V)

def Layout.nodes : List (NodeAt K V) := L.flatMap ChainAt.nodes

@[simp] theorem Layout.nodes_nil : Layout.nodes ([] : Layout T K V) = [] := rfl

@[simp] theorem Layout.nodes_cons (c : ChainAt T K V) (L : Layout T K V) :
    Layout.nodes (c :: L) = c.nodes ++ Layout.nodes L := rfl

@[simp] theorem Layout.nodes_append (M : Layout T K V) :
    Layout.nodes (L ++ M) = Layout.nodes L ++ Layout.nodes M := by
  simp [Layout.nodes]

def Layout.ptrs : List Ptr := L.map fun c => some c.addr

def Layout.chains : Chains T K V :=
  L.map fun c => (c.time, c.nodes.map fun n => (n.key, n.value))

@[simp] theorem Layout.chains_cons (c : ChainAt T K V) (L : Layout T K V) :
    Layout.chains (c :: L) =
      (c.time, c.nodes.map fun n => (n.key, n.value)) :: Layout.chains L := rfl

@[simp] theorem Layout.chains_append (M : Layout T K V) :
    Layout.chains (L ++ M) = Layout.chains L ++ Layout.chains M := by
  simp [Layout.chains]

theorem Layout.chains_split {c : ChainAt T K V} {n : NodeAt K V} {xs ys : List (NodeAt K V)}
    (A B : Layout T K V) (hc : c.nodes = xs ++ n :: ys) :
    Layout.chains (A ++ c :: B) = Layout.chains A ++
      (c.time, xs.map (fun n => (n.key, n.value)) ++ (n.key, n.value) ::
        ys.map fun n => (n.key, n.value)) :: Layout.chains B := by
  simp [hc]

theorem entries_chains : Chains.entries (Layout.chains L) =
      L.flatMap fun c => c.nodes.map fun n => (n.key, c.time, n.value) := by
  simp [Chains.entries, Layout.chains, flatMap_map, Function.comp_def]

theorem keys_chains :
    (Chains.entries (Layout.chains L)).map Prod.fst = (Layout.nodes L).map NodeAt.key := by
  simp [entries_chains, Layout.nodes, map_flatMap, Function.comp_def]

/-- The boxes hold all chains of a layout, each at addresses of its own. -/
structure Laid (b : Boxes T K V) (L : Layout T K V) : Prop where
  chain : ∀ c ∈ L, c.Laid b
  heads : (L.map ChainAt.addr).Nodup
  nodes : (addrs (Layout.nodes L)).Nodup

theorem Laid.sublist {L M : Layout T K V} (h : Laid b M) (hsub : L.Sublist M) : Laid b L := by
  refine ⟨fun c hc => h.chain c (hsub.subset hc), h.heads.sublist (hsub.map _), ?_⟩
  exact h.nodes.sublist ((hsub.flatMap _).map _)

variable {L} {M : Layout T K V}

theorem Laid.congr {b b' : Boxes T K V} (h : Laid b L)
    (hheads : ∀ a ∈ L.map ChainAt.addr, b'.heads.cell a = b.heads.cell a)
    (hnodes : ∀ a ∈ addrs (Layout.nodes L), b'.nodes.cell a = b.nodes.cell a) : Laid b' L := by
  refine ⟨fun c hc => (h.chain c hc).congr ?_ ?_, h.heads, h.nodes⟩
  · exact hheads c.addr (mem_map_of_mem hc)
  · exact forall_mem_map.mpr fun n hn => hnodes _ (mem_map_of_mem (mem_flatMap.mpr ⟨c, hc, hn⟩))

theorem Laid.cell_of_mem (h : Laid b L) {a : Nat} (ha : a ∈ addrs (Layout.nodes L)) :
    ∃ v, b.nodes.cell a = some v := by
  obtain ⟨n, hn, rfl⟩ := mem_map.mp ha
  obtain ⟨c, hc, hnc⟩ := mem_flatMap.mp hn
  obtain ⟨xs, ys, hsplit⟩ := append_of_mem hnc
  have hlinked := (h.chain c hc).nodes
  rw [hsplit] at hlinked
  exact ⟨_, hlinked.cell⟩

theorem laid_middle : Laid b (L ++ c :: M) ↔
    c.Laid b ∧ Laid b (L ++ M) ∧ c.addr ∉ (L ++ M).map ChainAt.addr ∧
      (addrs c.nodes).Nodup ∧ ∀ a ∈ addrs c.nodes, a ∉ addrs (Layout.nodes (L ++ M)) := by
  have hheads : ((L ++ c :: M).map ChainAt.addr).Nodup ↔
      c.addr ∉ (L ++ M).map ChainAt.addr ∧ ((L ++ M).map ChainAt.addr).Nodup := by
    rw [map_append, map_cons, nodup_middle, nodup_cons, ← map_append]
  have hperm : (addrs (Layout.nodes (L ++ c :: M))).Perm
      (addrs c.nodes ++ addrs (Layout.nodes (L ++ M))) := by
    simp only [Layout.nodes_append, Layout.nodes_cons, addrs_append]
    exact perm_append_comm_assoc _ _ _
  have hnodes := hperm.nodup_iff
  rw [nodup_append'] at hnodes
  constructor
  · intro h
    obtain ⟨hc, hrest, hapart⟩ := hnodes.mp h.nodes
    exact ⟨h.chain c (by simp), h.sublist (by simp), (hheads.mp h.heads).1, hc,
      fun a ha ha' => hapart ha ha'⟩
  · rintro ⟨hc, hrest, haddr, hnodup, hapart⟩
    refine ⟨?_, hheads.mpr ⟨haddr, hrest.heads⟩, hnodes.mpr ⟨hnodup, hrest.nodes, hapart⟩⟩
    obtain ⟨hL, hM⟩ := forall_mem_append.mp hrest.chain
    exact forall_mem_append.mpr ⟨hL, forall_mem_cons.mpr ⟨hc, hM⟩⟩

theorem laid_cons : Laid b (c :: M) ↔
    c.Laid b ∧ Laid b M ∧ c.addr ∉ M.map ChainAt.addr ∧ (addrs c.nodes).Nodup ∧
      ∀ a ∈ addrs c.nodes, a ∉ addrs (Layout.nodes M) :=
  laid_middle (L := [])

theorem length_le_boxes (hnodup : (addrs ns).Nodup)
    (hlive : ∀ a ∈ addrs ns, ∃ v, h.cell a = some v) : ns.length ≤ h.boxes.length := by
  have hsub : addrs ns ⊆ List.range h.boxes.length := by
    intro a ha
    obtain ⟨v, hv⟩ := hlive a ha
    exact mem_range.mpr (cell_lt hv)
  have hle := (subperm_of_subset hnodup hsub).length_le
  simpa [addrs] using hle

theorem Laid.length_le (h : Laid b L) (hc : c ∈ L) : c.nodes.length ≤ b.nodes.boxes.length := by
  have hnodup : (addrs c.nodes).Nodup := by
    obtain ⟨A, B, rfl⟩ := append_of_mem hc
    exact (laid_middle.mp h).2.2.2.1
  exact length_le_boxes hnodup (forall_mem_map.mpr fun n hn =>
    h.cell_of_mem (mem_map_of_mem (mem_flatMap.mpr ⟨c, hc, hn⟩)))

theorem notMem_of_perm {L' : Layout T K V} (h : Laid b L)
    (hperm : (n :: Layout.nodes L').Perm (Layout.nodes L)) : n.addr ∉ addrs (Layout.nodes L') := by
  have hnodup := ((hperm.map NodeAt.addr).nodup_iff).mpr h.nodes
  exact (nodup_cons.mp hnodup).1

section Search

variable [LinearOrder T]

/-- The chains stand in the order of their times. -/
def Layout.Sorted (L : Layout T K V) : Prop := L.Pairwise fun c d => c.time < d.time

theorem searchTimeline_spec (h : Laid b L) (hs : Layout.Sorted L) (t : T) :
    (∃ A c B, L = A ++ c :: B ∧ c.time = t ∧
      searchTimeline b.heads (Layout.ptrs L) t = .ok (.ok A.length)) ∨
    ∃ A B, L = A ++ B ∧ (∀ c ∈ A, c.time < t) ∧ (∀ d ∈ B, t < d.time) ∧
      searchTimeline b.heads (Layout.ptrs L) t = .ok (.error A.length) := by
  have hprobe : ∀ i x, (L.map ChainAt.time)[i]? = some x →
      (do
        let p ← index (Layout.ptrs L) i
        let h ← b.heads.read p
        return compare h.time t) = (.ok (compare x t) : Exec Ordering) := by
    intro i x hx
    rw [getElem?_map, Option.map_eq_some_iff] at hx
    obtain ⟨c, hc, rfl⟩ := hx
    have hidx : index (Layout.ptrs L) i = .ok (some c.addr) := by
      apply index_ok
      simp [Layout.ptrs, hc]
    have hread := read_ok (h.chain c (mem_of_getElem? hc)).head
    simp only [hidx, ok_bind, hread, pure_eq_ok]
  have hsorted : (L.map ChainAt.time).Pairwise (· < ·) := pairwise_map.mpr hs
  obtain ⟨r, hr, hloc⟩ := binarySearch_spec hsorted hprobe
  have hlen : (L.map ChainAt.time).length = (Layout.ptrs L).length := by simp [Layout.ptrs]
  rw [hlen] at hr
  cases r with
  | ok i =>
    obtain ⟨xs, ys, hsplit, rfl⟩ := hloc
    obtain ⟨A, rest, rfl, rfl, hrest⟩ := map_eq_append_iff.mp hsplit
    obtain ⟨c, B, rfl, rfl, rfl⟩ := map_eq_cons_iff.mp hrest
    exact .inl ⟨A, c, B, rfl, rfl, by simpa [searchTimeline] using hr⟩
  | error i =>
    obtain ⟨xs, ys, hsplit, rfl, hlow, hhigh⟩ := hloc
    obtain ⟨A, B, rfl, rfl, rfl⟩ := map_eq_append_iff.mp hsplit
    refine .inr ⟨A, B, rfl, ?_, ?_, by simpa [searchTimeline] using hr⟩
    · exact fun c hc => hlow _ (mem_map_of_mem hc)
    · exact fun d hd => hhigh _ (mem_map_of_mem hd)

end Search

end ZeroTrace.Chrono
