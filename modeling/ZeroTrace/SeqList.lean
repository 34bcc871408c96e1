import ZeroTrace.RunInvariants
import Mathlib.Data.List.Basic

/-!
# The sequence list of a TCP session peer

`SessionPeer` in `perf/tcp.rs` keeps, for one direction of a TCP session, an
array of sixteen segments in descending order of their sequence numbers and
classifies each payload as a retransmission, a continuation, a gap and so on.
This file is that code: `assertSeqNumber` and the functions under it, on the
fixed array and its length counter.

The references that `search` hands out are returned as values together with
the position they point to, and are written back after
`checkAndUpdateContinuousSegment` has changed them.  Every `u32` addition the
source writes with `+` is checked, so an overflow is a panic of the model.
-/

namespace ZeroTrace.SeqList

open RustExec

/-- `SeqSegment`: the bytes `seq .. seq + len`. -/
structure SeqSegment where
  seq : Nat
  len : Nat
  deriving DecidableEq

/-- `SeqSegment::default()`, which also fills the unused part of the array. -/
def SeqSegment.zero : SeqSegment := ⟨0, 0⟩

abbrev seqListMaxLen : Nat := 16

/-- `SessionPeer::SEQ_NUMBER_LOW_THRESHOLD`. -/
abbrev seqNumberLowThreshold : Nat := 0x40000000

/-- `SessionPeer::SEQ_NUMBER_HIGH_THRESHOLD`. -/
abbrev seqNumberHighThreshold : Nat := 0xc0000000

/-- The part of `SessionPeer` that the sequence check reads and writes.  The
length is an `isize` in the source; its only decrement stands behind the
assertion of `mergeSeqList`, so it never goes below zero. -/
structure SessionPeer where
  seqList : List SeqSegment
  seqListLen : Nat
  deriving DecidableEq

def SessionPeer.default : SessionPeer :=
  ⟨List.replicate seqListMaxLen SeqSegment.zero, 0⟩

inductive PacketSeqType where
  | error
  | retrans
  | notCare
  | merge
  | discontinuous
  | continuous
  | bothContinuous
  | outOfOrder
  deriving DecidableEq

/-- `ContinuousFlags`: one bit for each neighbour the segment touches. -/
structure ContinuousFlags where
  ltContinuous : Bool
  gteContinuous : Bool
  deriving DecidableEq

/-- `xs[..n]`. -/
def sliceTo (xs : List SeqSegment) (n : Nat) : Exec (List SeqSegment) :=
  if n ≤ xs.length then .ok (xs.take n) else .error .outOfBounds

/-- `xs[a..b].rotate_left(1)`. -/
def rotateLeftSlice (xs : List SeqSegment) (a b : Nat) : List SeqSegment :=
  xs.take a ++ ((xs.take b).drop a).rotateLeft 1 ++ xs.drop b

/-- `xs[a..].rotate_right(1)`. -/
def rotateRightFrom (xs : List SeqSegment) (a : Nat) : List SeqSegment :=
  xs.take a ++ (xs.drop a).rotateRight 1

variable (p : SessionPeer)

/-- `SessionPeer::merge_seq_list`: merge entry `i + 1` into entry `i`. -/
def mergeSeqList (i : Nat) : Exec SessionPeer := do
  assert (i + 1 < p.seqListLen)
  let gte ← index p.seqList i
  let lt ← index p.seqList (i + 1)
  let merged : SeqSegment :=
    { seq := lt.seq,
      len := wrappingAdd 32 (wrappingSub 32 gte.seq lt.seq) gte.len }
  let xs ← store p.seqList i merged
  let xs ← store xs (i + 1) SeqSegment.zero
  let xs := if i + 2 < p.seqListLen
    then rotateLeftSlice xs (i + 1) p.seqListLen else xs
  return ⟨xs, p.seqListLen - 1⟩

/-- `SessionPeer::insert_seq_segment`. -/
def insertSeqSegment (i : Nat) (seg : SeqSegment) : Exec SessionPeer := do
  let xs := if i < p.seqListLen then rotateRightFrom p.seqList i else p.seqList
  let xs ← store xs i seg
  return ⟨xs, p.seqListLen + 1⟩

/-- The guard `seq < low && last.seq + last.len > high` of
`check_seq_segment`; the sum is only formed when the first test passes. -/
def seqCycled (last seg : SeqSegment) : Exec Bool :=
  if seg.seq < seqNumberLowThreshold then do
    let e ← checkedAdd 32 last.seq last.len
    return decide (e > seqNumberHighThreshold)
  else return false

/-- The guard `seq > high && last.seq + last.len < low` of
`check_seq_segment`. -/
def seqBeforeCycle (last seg : SeqSegment) : Exec Bool :=
  if seg.seq > seqNumberHighThreshold then do
    let e ← checkedAdd 32 last.seq last.len
    return decide (e < seqNumberLowThreshold)
  else return false

/-- `SessionPeer::check_seq_segment`: `true` lets the segment through. -/
def checkSeqSegment (seg : SeqSegment) : Exec (Bool × SessionPeer) :=
  if wrappingAdd 32 seg.seq seg.len < seg.seq then return (false, p)
  else if p.seqListLen = 0 then do
    let p ← insertSeqSegment p 0 seg
    return (false, p)
  else do
    let last ← index p.seqList 0
    if ← seqCycled last seg then
      let p ← insertSeqSegment SessionPeer.default 0 seg
      return (false, p)
    else if ← seqBeforeCycle last seg then return (false, p)
    else return (true, p)

/-- `SessionPeer::search`: the neighbours below and at-or-above the segment,
and the position where it belongs. -/
def search (seg : SeqSegment) : Exec (Option SeqSegment × Option SeqSegment × Nat) :=
  if p.seqListLen = 0 then return (none, none, 0)
  else do
    let live ← sliceTo p.seqList p.seqListLen
    let i := live.findIdx (fun s => seg.seq > s.seq)
    if i = 0 then do
      let lt ← index p.seqList i
      return (some lt, none, i)
    else if i = p.seqListLen then do
      let gte ← index p.seqList (i - 1)
      return (none, some gte, i)
    else do
      let lt ← index p.seqList i
      let gte ← index p.seqList (i - 1)
      return (some lt, some gte, i)

/-- The half of `check_and_update_continuous_segment` about the lower
neighbour: `none` when the segment does not continue it. -/
def continueLt (lt : Option SeqSegment) (seg : SeqSegment) :
    Exec (Option SeqSegment) :=
  match lt with
  | none => return none
  | some lt => do
    let e ← checkedAdd 32 lt.seq lt.len
    if e = seg.seq then do
      let len ← checkedAdd 32 lt.len seg.len
      return some { lt with len := len }
    else return none

/-- The half about the neighbour at or above. -/
def continueGte (gte : Option SeqSegment) (seg : SeqSegment) :
    Exec (Option SeqSegment) :=
  match gte with
  | none => return none
  | some gte => do
    let e ← checkedAdd 32 seg.seq seg.len
    if e = gte.seq then do
      let len ← checkedAdd 32 gte.len seg.len
      return some { seq := seg.seq, len := len }
    else return none

def writeBack (xs : List SeqSegment) (i : Nat) (s : Option SeqSegment) :
    Exec (List SeqSegment) :=
  match s with
  | none => return xs
  | some s => store xs i s

/-- `SessionPeer::check_and_update_continuous_segment` at position `i`: the
lower neighbour lives at `i`, the other one at `i - 1`. -/
def checkAndUpdateContinuousSegment (i : Nat) (lt gte : Option SeqSegment) (seg : SeqSegment) :
    Exec (ContinuousFlags × SessionPeer) := do
  let newLt ← continueLt lt seg
  let newGte ← continueGte gte seg
  let xs ← writeBack p.seqList i newLt
  let xs ← writeBack xs (i - 1) newGte
  return (⟨newLt.isSome, newGte.isSome⟩, { p with seqList := xs })

/-- `SessionPeer::check_retrans`. -/
def checkRetrans (base seg : SeqSegment) : Exec Bool :=
  if seg.seq ≥ base.seq then do
    let e ← checkedAdd 32 base.seq base.len
    return decide (e > seg.seq)
  else return false

/-- `SessionPeer::is_retrans_segment`: the lower neighbour alone decides
whenever there is one. -/
def isRetransSegment (lt gte : Option SeqSegment) (seg : SeqSegment) :
    Exec Bool :=
  match lt, gte with
  | some lt, _ => checkRetrans lt seg
  | none, some gte => checkRetrans gte seg
  | none, none => .error .unreachable

/-- The test of `is_error_segment` against the neighbour at or above. -/
def overlapsGte (gte seg : SeqSegment) : Exec Bool := do
  let e ← checkedAdd 32 seg.seq seg.len
  if seg.seq < gte.seq ∧ e > gte.seq then return true
  else do
    let g ← checkedAdd 32 gte.seq gte.len
    return decide (e > g)

/-- `SessionPeer::is_error_segment`. -/
def isErrorSegment (lt gte : Option SeqSegment) (seg : SeqSegment) :
    Exec Bool := do
  let above ← match gte with
    | some gte => overlapsGte gte seg
    | none => pure false
  if above then return true
  else match lt with
    | some lt => do
      let e ← checkedAdd 32 lt.seq lt.len
      return decide (e > seg.seq)
    | none => return false

/-- The merge of `assert_seq_number` that keeps the array from filling up. -/
def mergeAtCapacity : Exec SessionPeer :=
  if p.seqListLen ≥ seqListMaxLen then mergeSeqList p (seqListMaxLen - 2)
  else return p

/-- The tail of `assert_seq_number`, for a segment that touches or overlaps no
neighbour in a forbidden way. -/
def recordSegment (lt gte : Option SeqSegment) (i : Nat)
    (seg : SeqSegment) : Exec (PacketSeqType × SessionPeer) := do
  let (flags, p) ← checkAndUpdateContinuousSegment p i lt gte seg
  match flags with
  | ⟨false, false⟩ => do
    let p ← insertSeqSegment p i seg
    let p ← mergeAtCapacity p
    return (if gte.isSome then .outOfOrder else .discontinuous, p)
  | ⟨true, true⟩ => do
    let p ← mergeSeqList p (i - 1)
    return (.outOfOrder, p)
  | _ => return (if gte.isSome then .outOfOrder else .continuous, p)

/-- The part of `assert_seq_number` behind the filter: find the neighbours and
test the segment against them. -/
def classifySegment (seg : SeqSegment) : Exec (PacketSeqType × SessionPeer) := do
  let (lt, gte, i) ← search p seg
  if ← isRetransSegment lt gte seg then return (.retrans, p)
  else if ← isErrorSegment lt gte seg then return (.error, p)
  else recordSegment p lt gte i seg

/-- `SessionPeer::assert_seq_number`, on the `seq` field of the TCP header. -/
def assertSeqNumber (seq payloadLen : Nat) : Exec (PacketSeqType × SessionPeer) :=
  if payloadLen = 0 ∨ seq = 0 then return (.notCare, p)
  else do
    let seg : SeqSegment := { seq := seq, len := payloadLen }
    let (pass, p) ← checkSeqSegment p seg
    if pass then classifySegment p seg else return (.notCare, p)

/-- One call of `assert_seq_number`: the header's sequence number and the
payload length, in their own widths. -/
structure Call where
  seq : UInt32
  payloadLen : UInt16
  deriving DecidableEq

def Call.seg (c : Call) : SeqSegment := ⟨c.seq.toNat, c.payloadLen.toNat⟩

/-- The peer after one call. -/
def assertStep (c : Call) : Exec SessionPeer :=
  (assertSeqNumber p c.seq.toNat c.payloadLen.toNat).map Prod.snd

end ZeroTrace.SeqList
