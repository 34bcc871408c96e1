import ZeroTrace.TypedHeap
import ZeroTrace.HalvingSearch
import Mathlib.Data.List.AList

/-!
# The time-ordered map

`ChronoMap` of `chrono_map.rs`: a hash map from keys to nodes, where each node
is also on a doubly linked chain of the nodes with the same time, and the
heads of the chains stand in a deque ordered by time.

Nodes and heads are boxes that the source allocates with `Box::into_raw` and
frees with `Box::from_raw`, so the model carries the two heaps explicitly and
every pointer the source follows is followed here.  The hash map is an
association list with distinct keys; nothing depends on the order of its
entries.  A loop that follows `next` pointers is bounded by the number of boxes
ever allocated.
-/

namespace ZeroTrace.Chrono

open RustExec TypedHeap HalvingSearch

/-- `TimeHead`: the time of a chain and its first node. -/
structure TimeHead (T : Type) where
  time : T
  next : Ptr
  deriving DecidableEq

/-- `Node`: an entry with its links in a time chain. -/
structure Node (K V : Type) where
  key : K
  value : V
  head : Ptr
  prev : Ptr
  next : Ptr
  deriving DecidableEq

/-- The boxes of a map: its time heads and its nodes. -/
structure Boxes (T K V : Type) where
  heads : Heap (TimeHead T)
  nodes : Heap (Node K V)

structure ChronoMap (T K V : Type) where
  entries : AList (fun _ : K => Ptr)
  timeline : List Ptr
  boxes : Boxes T K V

variable {T K V : Type}

def ChronoMap.new : ChronoMap T K V := ⟨∅, [], ⟨.empty, .empty⟩⟩

def ChronoMap.len (m : ChronoMap T K V) : Nat := m.entries.entries.length

variable [LinearOrder T] [DecidableEq K] (b : Boxes T K V) (m : ChronoMap T K V)

def ChronoMap.get (key : K) : Exec (Option V) :=
  match m.entries.lookup key with
  | none => return none
  | some node => do
    let n ← m.boxes.nodes.read node
    return some n.value

/-- `timeline.binary_search_by_key(&&time, |th| &(**th).time)`. -/
def searchTimeline (heads : Heap (TimeHead T)) (timeline : List Ptr) (time : T) :
    Exec (Except Nat Nat) :=
  binarySearch timeline.length fun i => do
    let p ← index timeline i
    let h ← heads.read p
    return compare h.time time

/-- `if !p.is_null() { (*p).prev = prev }`. -/
def setPrevOf (nodes : Heap (Node K V)) (p prev : Ptr) : Exec (Heap (Node K V)) :=
  if p.isSome then nodes.modify p (fun n => { n with prev := prev })
  else return nodes

/-- `insert_into_time_chain`: put the node in front of the chain. -/
def insertIntoTimeChain (head node : Ptr) : Exec (Boxes T K V) := do
  let refHead ← b.heads.read head
  let nodes ← setPrevOf b.nodes refHead.next node
  let nodes ← nodes.modify node
    (fun n => { n with head := head, prev := none, next := refHead.next })
  let heads ← b.heads.modify head (fun h => { h with next := node })
  return ⟨heads, nodes⟩

/-- Let what comes before a node, its predecessor or the head, point past it. -/
def skipForward (n : Node K V) : Exec (Boxes T K V) :=
  if n.prev.isNone then do
    let heads ← b.heads.modify n.head (fun h => { h with next := n.next })
    return { b with heads := heads }
  else do
    let nodes ← b.nodes.modify n.prev (fun p => { p with next := n.next })
    return { b with nodes := nodes }

/-- The relinking half of `remove_from_time_chain`: take the node out and
clear its links.  The result names the head of the chain it was on. -/
def unlinkNode (node : Ptr) : Exec (Ptr × Boxes T K V) := do
  let n ← b.nodes.read node
  let head := n.head
  let b ← skipForward b n
  let n ← b.nodes.read node
  let nodes ← setPrevOf b.nodes n.next n.prev
  let nodes ← nodes.modify node
    (fun n => { n with head := none, prev := none, next := none })
  return (head, { b with nodes := nodes })

/-- The half of `remove_from_time_chain` that is run when the timeline is
given: drop the head if its chain has become empty. -/
def dropEmptyChain (timeline : List Ptr) (heads : Heap (TimeHead T)) (head : Ptr) :
    Exec (List Ptr × Heap (TimeHead T)) := do
  let refHead ← heads.read head
  if refHead.next.isSome then return (timeline, heads)
  else match ← searchTimeline heads timeline refHead.time with
    | .ok i => do
      let p ← unwrap timeline[i]?
      let (_, heads) ← heads.free p
      return (timeline.eraseIdx i, heads)
    | .error _ => .error .unreachable

/-- `remove_from_time_chain(Some(timeline), node)`. -/
def removeFromTimeChain (timeline : List Ptr) (b : Boxes T K V) (node : Ptr) :
    Exec (List Ptr × Boxes T K V) := do
  let (head, b) ← unlinkNode b node
  let (timeline, heads) ← dropEmptyChain timeline b.heads head
  return (timeline, { b with heads := heads })

def findOrCreateTimeChain (timeline : List Ptr) (heads : Heap (TimeHead T)) (time : T) :
    Exec (Ptr × List Ptr × Heap (TimeHead T)) := do
  match ← searchTimeline heads timeline time with
  | .ok i => do
    let p ← index timeline i
    return (p, timeline, heads)
  | .error i => do
    let (p, heads) := heads.alloc ⟨time, none⟩
    let timeline := timeline.insertIdx i p
    let p ← index timeline i
    return (p, timeline, heads)

/-- Put a node that is on no chain on the chain of a time. -/
def attachNode (timeline : List Ptr) (b : Boxes T K V) (node : Ptr) (time : T) :
    Exec (List Ptr × Boxes T K V) := do
  let (head, timeline, heads) ← findOrCreateTimeChain timeline b.heads time
  let b ← insertIntoTimeChain { b with heads := heads } head node
  return (timeline, b)

/-- The three calls with which `insert` and `move_to_time` move a node. -/
def relocate (node : Ptr) (time : T) : Exec (ChronoMap T K V) := do
  let (timeline, b) ← removeFromTimeChain m.timeline m.boxes node
  let (timeline, b) ← attachNode timeline b node time
  return { m with timeline := timeline, boxes := b }

/-- `mem::swap(&mut (**node).value, &mut value)`. -/
def swapValue (node : Ptr) (value : V) : Exec (V × ChronoMap T K V) := do
  let n ← m.boxes.nodes.read node
  let nodes ← m.boxes.nodes.modify node (fun n => { n with value := value })
  return (n.value, { m with boxes := { m.boxes with nodes := nodes } })

def ChronoMap.insert (time : T) (key : K) (value : V) : Exec (Option V × ChronoMap T K V) :=
  match m.entries.lookup key with
  | some node => do
    let n ← m.boxes.nodes.read node
    let h ← m.boxes.heads.read n.head
    let m ← if h.time ≠ time then relocate m node time else pure m
    let (old, m) ← swapValue m node value
    return (some old, m)
  | none => do
    let (head, timeline, heads) ← findOrCreateTimeChain m.timeline m.boxes.heads time
    let (node, nodes) := m.boxes.nodes.alloc ⟨key, value, none, none, none⟩
    let entries := m.entries.insert key node
    let b ← insertIntoTimeChain ⟨heads, nodes⟩ head node
    return (none, ⟨entries, timeline, b⟩)

/-- Take a node off its chain and free it, as `remove` and `remove_oldest` do
once it has left `entries`. -/
def takeNode (node : Ptr) : Exec (V × ChronoMap T K V) := do
  let (timeline, b) ← removeFromTimeChain m.timeline m.boxes node
  let (n, nodes) ← b.nodes.free node
  return (n.value, { m with timeline := timeline, boxes := { b with nodes := nodes } })

def ChronoMap.remove (key : K) : Exec (Option V × ChronoMap T K V) :=
  match m.entries.lookup key with
  | none => return (none, m)
  | some node => do
    let (v, m) ← takeNode { m with entries := m.entries.erase key } node
    return (some v, m)

def ChronoMap.removeOldest : Exec (Option V × ChronoMap T K V) :=
  match m.timeline.head? with
  | none => return (none, m)
  | some head => do
    let h ← m.boxes.heads.read head
    let n ← m.boxes.nodes.read h.next
    let (v, m) ← takeNode { m with entries := m.entries.erase n.key } h.next
    return (some v, m)

def ChronoMap.moveToTime (key : K) (time : T) : Exec (ChronoMap T K V) :=
  match m.entries.lookup key with
  | none => return m
  | some node => do
    let n ← m.boxes.nodes.read node
    let h ← m.boxes.heads.read n.head
    if h.time = time then return m else relocate m node time

section ForwardTime

variable {σ : Type}

/-- A callback of `forward_time`: an `FnMut(&mut V) -> Option<T>` with its
captured state `σ`. -/
abbrev Callback (T V σ : Type) := σ → V → Option T × V × σ

/-- What `forward_time` does with a node after the callback: move it to a
later time, or drop it from the map. -/
def settleNode (time : T) (newTime : Option T) (node : Ptr) (key : K)
    (m : ChronoMap T K V) : Exec (ChronoMap T K V) :=
  match newTime.filter (fun nt => time < nt) with
  | some nt => do
    let (timeline, b) ← attachNode m.timeline m.boxes node nt
    return { m with timeline := timeline, boxes := b }
  | none => do
    let p ← unwrap (m.entries.lookup key)
    let (_, nodes) ← m.boxes.nodes.free p
    return { m with
      entries := m.entries.erase key
      boxes := { m.boxes with nodes := nodes } }

/-- The `while` loop of `forward_time` over the nodes of a popped chain. -/
def expireChain (time : T) (callback : Callback T V σ) :
    Nat → Ptr → σ → ChronoMap T K V → Exec (σ × ChronoMap T K V)
  | _, none, s, m => return (s, m)
  | 0, some _, _, _ => .error .outOfFuel
  | fuel + 1, some a, s, m => do
    let n ← m.boxes.nodes.read (some a)
    let (newTime, v, s) := callback s n.value
    let nodes ← m.boxes.nodes.modify (some a) (fun n => { n with value := v })
    let n ← nodes.read (some a)
    let next := n.next
    let (_, b) ← unlinkNode { m.boxes with nodes := nodes } (some a)
    let m ← settleNode time newTime (some a) n.key { m with boxes := b }
    expireChain time callback fuel next s m

/-- The `for` loop of `forward_time`: pop and empty the first `count` chains. -/
def expireChains (time : T) (callback : Callback T V σ) :
    Nat → σ → ChronoMap T K V → Exec (σ × ChronoMap T K V)
  | 0, s, m => return (s, m)
  | count + 1, s, m =>
    match m.timeline with
    | [] => .error .unwrapNone
    | head :: timeline => do
      let refHead ← m.boxes.heads.read head
      let (s, m) ← expireChain time callback m.boxes.nodes.boxes.length refHead.next s
        { m with timeline := timeline }
      let (_, heads) ← m.boxes.heads.free head
      expireChains time callback count s
        { m with boxes := { m.boxes with heads := heads } }

def ChronoMap.forwardTime (m : ChronoMap T K V) (time : T) (callback : Callback T V σ)
    (s : σ) : Exec (σ × ChronoMap T K V) :=
  match m.timeline with
  | [] => return (s, m)
  | first :: _ => do
    let h ← m.boxes.heads.read first
    if time < h.time then return (s, m)
    else do
      let maxIndex ← match ← searchTimeline m.boxes.heads m.timeline time with
        | .ok i => pure i
        | .error i => checkedSub i 1
      expireChains time callback (maxIndex + 1) s m

end ForwardTime

section Draining

/-- `Drain`, with the node boxes its pointers refer to. -/
structure Drain (K V : Type) where
  entries : AList (fun _ : K => Ptr)
  chain : Ptr
  nodes : Heap (Node K V)

/-- The `retain` of `drain`: the heads that stay and those that are drained. -/
def retainHeads (heads : Heap (TimeHead T)) (range : T → Bool) :
    List Ptr → Exec (List Ptr × List Ptr)
  | [] => return ([], [])
  | head :: rest => do
    let h ← heads.read head
    let (kept, drained) ← retainHeads heads range rest
    if range h.time then return (kept, head :: drained)
    else return (head :: kept, drained)

/-- `while !(*tail).next.is_null() { tail = (*tail).next }`. -/
def walkTail (nodes : Heap (Node K V)) : Nat → Ptr → Exec Ptr
  | 0, _ => .error .outOfFuel
  | fuel + 1, tail => do
    let n ← nodes.read tail
    if n.next.isSome then walkTail nodes fuel n.next else return tail

/-- Hang the next chain of `drain` onto the nodes joined so far. -/
def hangChain (chain tail next : Ptr) (nodes : Heap (Node K V)) :
    Exec (Ptr × Ptr × Heap (Node K V)) :=
  if chain.isNone then return (next, next, nodes)
  else do
    let nodes ← nodes.modify tail (fun n => { n with next := next })
    return (chain, tail, nodes)

/-- The loop of `drain` that joins the drained chains into one. -/
def joinChains : List Ptr → Ptr → Ptr → Boxes T K V → Exec (Ptr × Boxes T K V)
  | [], chain, _, b => return (chain, b)
  | head :: rest, chain, tail, b => do
    let (h, heads) ← b.heads.free head
    let (chain, tail, nodes) ← hangChain chain tail h.next b.nodes
    let tail ← walkTail nodes nodes.boxes.length tail
    joinChains rest chain tail ⟨heads, nodes⟩

def Drain.next (d : Drain K V) : Exec (Option V × Drain K V) :=
  match d.chain with
  | none => return (none, d)
  | some a => do
    let n ← d.nodes.read (some a)
    let (n', nodes) ← d.nodes.free (some a)
    return (some n'.value, ⟨d.entries.erase n.key, n.next, nodes⟩)

/-- A caller that asks the iterator for `count` values. -/
def Drain.consume : Nat → Drain K V → Exec (List V × Drain K V)
  | 0, d => return ([], d)
  | count + 1, d => do
    let (v, d) ← d.next
    let (vs, d) ← Drain.consume count d
    return (v.toList ++ vs, d)

/-- The loop of `Drain::drop`. -/
def dropChain : Nat → Ptr → AList (fun _ : K => Ptr) → Heap (Node K V) →
    Exec (AList (fun _ : K => Ptr) × Heap (Node K V))
  | _, none, entries, nodes => return (entries, nodes)
  | 0, some _, _, _ => .error .outOfFuel
  | fuel + 1, some a, entries, nodes => do
    let n ← nodes.read (some a)
    let (_, nodes) ← nodes.free (some a)
    dropChain fuel n.next (entries.erase n.key) nodes

/-- `ChronoMap::drain`, of whose iterator `count` values are consumed before it
is dropped.  `range` is `range.contains`. -/
def ChronoMap.drain (m : ChronoMap T K V) (range : T → Bool) (count : Nat) :
    Exec (List V × ChronoMap T K V) := do
  let (kept, drained) ← retainHeads m.boxes.heads range m.timeline
  let (chain, b) ← joinChains drained none none m.boxes
  let (vs, d) ← Drain.consume count ⟨m.entries, chain, b.nodes⟩
  let (entries, nodes) ← dropChain d.nodes.boxes.length d.chain d.entries d.nodes
  return (vs, ⟨entries, kept, ⟨b.heads, nodes⟩⟩)

end Draining

end ZeroTrace.Chrono
