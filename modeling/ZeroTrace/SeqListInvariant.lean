import ZeroTrace.SeqListLayout
import Mathlib.Order.CompletePartialOrder
import Mathlib.Data.Set.Lattice

/-!
# The sequence list is a set of disjoint intervals, with one exception

Every call of `assert_seq_number` keeps the live segments separated, except
when its segment starts exactly where a recorded segment other than the lowest
one starts and is no longer than it.  The retransmission test then looks only
at the lower neighbour and passes, the error test sees no segment sticking out,
and the segment is recorded on top of the one it repeats.

`seq_list_ok_iff` is the exact statement over whole streams of calls.
-/

namespace ZeroTrace.SeqList

open RustExec Runs SeqSegment SessionPeer
open List hiding Disjoint

variable {p : SessionPeer} {live : List SeqSegment}

/-- The invariant of a session peer: the array holds at most fifteen separated
segments, followed by zeros. -/
def PeerInv (p : SessionPeer) : Prop :=
  ∃ live, Arrayed p live ∧ live.length ≤ 15 ∧ Separated live

theorem peerInv_default : PeerInv default :=
  ⟨[], ⟨rfl, rfl, by simp⟩, by simp, Separated.nil⟩

theorem Compacted.inv (h : Compacted p live) (hsep : Separated live) : PeerInv p := by
  cases h with
  | fits harr hlen => exact ⟨live, harr, hlen, hsep⟩
  | merged hlen harr => exact ⟨_, harr, by simp [hlen], hsep.merge⟩

variable {xs ys : List SeqSegment} {n : Nat}

theorem Separated.above_of_last (h : Separated (xs ++ ys))
    (hlast : ∀ g ∈ xs.getLast?, n ≤ g.seq) : ∀ a ∈ xs, n ≤ a.seq := by
  rcases eq_nil_or_concat xs with rfl | ⟨as, g, rfl⟩
  · simp
  intro a ha
  have hg : n ≤ g.seq := hlast g (by simp)
  rw [concat_eq_append] at ha
  rcases mem_append.mp ha with ha | ha
  · have h' : Separated (as ++ g :: ys) := by simpa using h
    have := h'.above a ha
    unfold stop at this
    omega
  · rw [mem_singleton.mp ha]
    exact hg

theorem Separated.below_of_head (h : Separated (xs ++ ys))
    (hhead : ∀ l ∈ ys.head?, l.stop ≤ n) : ∀ b ∈ ys, b.stop ≤ n := by
  cases ys with
  | nil => simp
  | cons l ys =>
    have hl : l.stop ≤ n := hhead l rfl
    intro b hb
    rcases mem_cons.mp hb with rfl | hb
    · exact hl
    · have := h.below b hb
      unfold stop at *
      omega

variable {seg : SeqSegment}

/-- A segment that ends with a sound one does not wrap either. -/
theorem SeqSegment.Sound.of_stop {s t : SeqSegment} (ht : t.Sound) (hpos : 0 < s.len)
    (hstop : s.stop = t.stop) : s.Sound := by
  refine ⟨hpos, ?_⟩
  change s.stop < 2 ^ 32
  rw [hstop]
  exact ht.bounded

/-- Recording a segment that lies between its two neighbours keeps the
invariant, whichever of them it touches. -/
theorem record_inv (h : Arrayed p (xs ++ ys)) (hlen : (xs ++ ys).length ≤ 15)
    (hsep : Separated (xs ++ ys)) (hs : seg.Sound) (habove : ∀ g ∈ xs.getLast?, seg.stop ≤ g.seq)
    (hbelow : ∀ l ∈ ys.head?, l.stop ≤ seg.seq) :
    ∃ ty p', recordSegment p ys.head? xs.getLast? xs.length seg = .ok (ty, p') ∧ PeerInv p' := by
  have hup := hsep.above_of_last habove
  have hlow := hsep.below_of_head hbelow
  by_cases hlt : ∀ l ∈ ys.head?, l.stop ≠ seg.seq
  · by_cases hgte : ∀ g ∈ xs.getLast?, seg.stop ≠ g.seq
    · obtain ⟨ty, p', hrec, hcomp⟩ := record_gap h hlen hsep hs hlt hgte
      exact ⟨ty, p', hrec, hcomp.inv (hsep.put hs hup hlow)⟩
    push Not at hgte
    obtain ⟨g, hg, htouch⟩ := hgte
    obtain ⟨as, rfl⟩ := getLast?_eq_some_iff.mp hg
    rw [append_assoc, singleton_append] at h hsep hlen
    obtain ⟨ty, p', hrec, harr⟩ := record_gte h hsep hs hlt htouch
    refine ⟨ty, p', by rw [hg]; exact hrec, _, harr, by simpa using hlen, ?_⟩
    have hgs : g.Sound := hsep.sound g (by simp)
    have hstop : stop ⟨seg.seq, g.len + seg.len⟩ = g.stop := by
      unfold stop at *
      simp only
      omega
    exact hsep.replace (hgs.of_stop (Nat.add_pos_left hgs.pos _) hstop)
      (by rw [hstop]; exact hsep.above) hlow
  · push Not at hlt
    obtain ⟨l, hl, htouch⟩ := hlt
    obtain ⟨bs, rfl⟩ := head?_eq_some_iff.mp hl
    have hls : l.Sound := hsep.sound l (by simp)
    have hstop : stop ⟨l.seq, l.len + seg.len⟩ = seg.stop := by
      unfold stop at *
      simp only
      omega
    by_cases hgte : ∀ g ∈ xs.getLast?, seg.stop ≠ g.seq
    · obtain ⟨ty, p', hrec, harr⟩ := record_lt h hs htouch hgte
      refine ⟨ty, p', hrec, _, harr, by simpa using hlen, ?_⟩
      exact hsep.replace (hs.of_stop (Nat.add_pos_left hls.pos _) hstop)
        (by rw [hstop]; exact hup) hsep.below
    push Not at hgte
    obtain ⟨g, hg, htouch'⟩ := hgte
    obtain ⟨as, rfl⟩ := getLast?_eq_some_iff.mp hg
    rw [append_assoc, singleton_append] at h hsep hlen
    obtain ⟨ty, p', hrec, harr⟩ := record_both h hsep hs htouch htouch'
    refine ⟨ty, p', by rw [hg]; exact hrec, _, harr, ?_, ?_⟩
    · simp only [length_append, length_cons] at hlen ⊢
      omega
    · have hgs : g.Sound := hsep.sound g (by simp)
      have := hsep.merge
      rwa [merged_eq hgs (hsep.below l mem_cons_self)] at this

/-- The filter in front of the search either ends the call in a state that
keeps the invariant, or lets a sound segment through to a non-empty list. -/
theorem check_cases (h : Arrayed p live) (hlen : live.length ≤ 15) (hsep : Separated live)
    (hpos : 0 < seg.len) (hseq : seg.seq < 2 ^ 32) (hbound : seg.len < 2 ^ 32) :
    (∃ p', checkSeqSegment p seg = .ok (false, p') ∧ PeerInv p') ∨
      (checkSeqSegment p seg = .ok (true, p) ∧ live ≠ [] ∧ seg.Sound) := by
  by_cases hwrap : wrappingAdd 32 seg.seq seg.len < seg.seq
  · exact .inl ⟨p, by simp [checkSeqSegment, hwrap], live, h, hlen, hsep⟩
  have hs : seg.Sound := by
    refine ⟨hpos, ?_⟩
    unfold wrappingAdd at hwrap
    omega
  have hfirst : ∀ q, Arrayed q [] → ∃ p', insertSeqSegment q 0 seg = .ok p' ∧ PeerInv p' := by
    intro q hq
    have hq' : Arrayed q ([] ++ []) := hq
    obtain ⟨p', hins, harr⟩ := hq'.insert (by simp) seg
    exact ⟨p', hins, [seg], harr, by simp, by simp, by simpa using hs⟩
  cases live with
  | nil =>
    obtain ⟨p', hins, hinv⟩ := hfirst p h
    exact .inl ⟨p', by simp [checkSeqSegment, hwrap, h.len, hins], hinv⟩
  | cons last rest =>
    have hne : p.seqListLen ≠ 0 := by simp [h.len]
    have hlast : index p.seqList 0 = .ok last := by
      apply index_ok
      rw [h.list]
      rfl
    have hadd : checkedAdd 32 last.seq last.len = .ok last.stop :=
      checkedAdd_ok (hsep.sound last (by simp)).bounded
    have hcyc : seqCycled last seg = .ok (decide
        (seg.seq < seqNumberLowThreshold ∧ last.stop > seqNumberHighThreshold)) := by
      by_cases hlow : seg.seq < seqNumberLowThreshold <;> simp [seqCycled, hlow, hadd]
    have hbef : seqBeforeCycle last seg = .ok (decide
        (seg.seq > seqNumberHighThreshold ∧ last.stop < seqNumberLowThreshold)) := by
      by_cases hhigh : seg.seq > seqNumberHighThreshold <;> simp [seqBeforeCycle, hhigh, hadd]
    simp only [checkSeqSegment, if_neg hwrap, if_neg hne, hlast, ok_bind, hcyc, hbef,
      decide_eq_true_eq, pure_eq_ok]
    split
    · obtain ⟨p', hins, hinv⟩ := hfirst default ⟨rfl, rfl, by simp⟩
      exact .inl ⟨p', by simp [hins], hinv⟩
    split
    · exact .inl ⟨p, rfl, _, h, hlen, hsep⟩
    · exact .inr ⟨rfl, by simp, hs⟩

def SeqSegment.bytes (s : SeqSegment) : Set Nat := Set.Ico s.seq (s.seq + s.len)

/-- What the sequence list promises to the classification of packets: the live
part is strictly descending, its intervals are disjoint and do not wrap, the
rest of the array is zero, and one place is always free. -/
structure SeqListOk (p : SessionPeer) : Prop where
  size : p.seqList.length = seqListMaxLen
  descending : (p.seqList.take p.seqListLen).Pairwise (fun a b => a.seq > b.seq)
  disjoint : (p.seqList.take p.seqListLen).Pairwise (fun a b => Disjoint a.bytes b.bytes)
  bounded : ∀ s ∈ p.seqList.take p.seqListLen, s.seq + s.len < 2 ^ 32
  cleared : ∀ s ∈ p.seqList.drop p.seqListLen, s = zero
  len : p.seqListLen ≤ 15

theorem Arrayed.take (h : Arrayed p live) : p.seqList.take p.seqListLen = live := by
  rw [h.list, h.len, take_left]

theorem Arrayed.drop (h : Arrayed p live) :
    p.seqList.drop p.seqListLen = List.replicate (seqListMaxLen - live.length) zero := by
  rw [h.list, h.len, drop_left]

theorem PeerInv.ok (h : PeerInv p) : SeqListOk p := by
  obtain ⟨live, harr, hlen, hsep⟩ := h
  refine ⟨?_, ?_, ?_, ?_, ?_, ?_⟩
  · have hfits := harr.fits
    rw [harr.list, length_append, length_replicate]
    omega
  · rw [harr.take]
    refine hsep.apart.imp_of_mem ?_
    intro a b _ hb hab
    have := (hsep.sound b hb).pos
    unfold stop at hab
    omega
  · rw [harr.take]
    refine hsep.apart.imp ?_
    intro a b hab
    rw [Set.disjoint_left]
    intro x hxa hxb
    have h1 := hxa.1
    have h2 := hxb.2
    unfold stop at hab
    omega
  · rw [harr.take]
    exact fun s hs => (hsep.sound s hs).bounded
  · rw [harr.drop]
    exact fun s hs => eq_of_mem_replicate hs
  · rw [harr.len]
    exact hlen

/-- The call passes the filter and its segment starts exactly where a recorded
segment other than the lowest one starts, and is no longer than it. -/
def StartsOnInterval (p : SessionPeer) (c : Call) : Prop :=
  c.payloadLen ≠ 0 ∧ c.seq ≠ 0 ∧ checkSeqSegment p c.seg = .ok (true, p) ∧
    ∃ i s, i + 1 < p.seqListLen ∧ p.seqList[i]? = some s ∧
      s.seq = c.seg.seq ∧ c.seg.len ≤ s.len

theorem Arrayed.getElem? (h : Arrayed p live) {i : Nat} (hi : i < live.length) :
    p.seqList[i]? = live[i]? := by
  rw [h.list, getElem?_append_left hi]

theorem eq_append (hxs : upper live seg = xs) (hys : lower live seg = ys) : live = xs ++ ys := by
  rw [← hxs, ← hys, upper_append_lower]

/-- The retransmission test on a separated list: the lower neighbour decides
when there is one, otherwise the lowest segment at or above. -/
theorem isRetransSegment_spec (hsep : Separated (xs ++ ys)) (hne : xs ++ ys ≠ [])
    (seg : SeqSegment) :
    isRetransSegment ys.head? xs.getLast? seg = .ok (decide
      ((∃ l ∈ ys.head?, l.seq ≤ seg.seq ∧ seg.seq < l.stop) ∨
        (ys = [] ∧ ∃ g ∈ xs.getLast?, g.seq ≤ seg.seq ∧ seg.seq < g.stop))) := by
  cases ys with
  | cons l ys =>
    have hl : l.Sound := hsep.sound l (by simp)
    simp [isRetransSegment, checkRetrans_spec hl]
  | nil =>
    rcases eq_nil_or_concat xs with rfl | ⟨as, g, rfl⟩
    · simp at hne
    · have hg : g.Sound := hsep.sound g (by simp)
      simp [isRetransSegment, checkRetrans_spec hg]

theorem classify_eq (h : Arrayed p live) (hsep : Separated live) (hne : live ≠ []) (hs : seg.Sound)
    (hxs : upper live seg = xs) (hys : lower live seg = ys) :
    classifySegment p seg =
      if (∃ l ∈ ys.head?, l.seq ≤ seg.seq ∧ seg.seq < l.stop) ∨
        (ys = [] ∧ ∃ g ∈ xs.getLast?, g.seq ≤ seg.seq ∧ seg.seq < g.stop)
      then .ok (.retrans, p)
      else if (∃ g ∈ xs.getLast?, (seg.seq < g.seq ∧ g.seq < seg.stop) ∨ g.stop < seg.stop) ∨
        ∃ l ∈ ys.head?, seg.seq < l.stop
      then .ok (.error, p)
      else recordSegment p ys.head? xs.getLast? xs.length seg := by
  have hsearch := search_spec h hne seg
  rw [hxs, hys] at hsearch
  obtain rfl := eq_append hxs hys
  have herr := isErrorSegment_spec
    (fun l hl => hsep.sound l (mem_append_right _ (mem_of_mem_head? hl)))
    (fun g hg => hsep.sound g (mem_append_left _ (mem_of_mem_getLast? hg))) hs
  simp only [classifySegment, hsearch, ok_bind, isRetransSegment_spec hsep hne, herr,
    decide_eq_true_eq, pure_eq_ok]

/-- **Classification keeps the invariant**, unless the segment starts where a
segment above the lowest one starts and ends inside it. -/
theorem classify_inv (h : Arrayed p live) (hlen : live.length ≤ 15) (hsep : Separated live)
    (hne : live ≠ []) (hs : seg.Sound) (hxs : upper live seg = xs) (hys : lower live seg = ys)
    (hstart : ∀ g ∈ xs.getLast?, g.seq = seg.seq → seg.len ≤ g.len → ys = []) :
    ∃ ty p', classifySegment p seg = .ok (ty, p') ∧ PeerInv p' := by
  rw [classify_eq h hsep hne hs hxs hys]
  split
  · exact ⟨_, p, rfl, _, h, hlen, hsep⟩
  rename_i hnoret
  split
  · exact ⟨_, p, rfl, _, h, hlen, hsep⟩
  rename_i hnoerr
  simp only [not_or, not_exists, not_and, not_lt] at hnoret hnoerr
  have hup : ∀ g ∈ xs, seg.seq ≤ g.seq := fun g hg => mem_upper (hxs ▸ hg)
  obtain rfl := eq_append hxs hys
  refine record_inv h hlen hsep hs ?_ hnoerr.2
  intro g hg
  have h1 := hup g (mem_of_mem_getLast? hg)
  obtain ⟨h2, h3⟩ := hnoerr.1 g hg
  by_contra hcontra
  -- the segment must start where `g` starts, so `g` is the lowest one
  have hsame : g.seq = seg.seq := by
    by_contra hdiff
    omega
  have hle : seg.len ≤ g.len := by
    unfold stop at h3
    omega
  have h4 := hnoret.2 (hstart g hg hsame hle) g hg (by omega)
  omega

variable {as bs : List SeqSegment} {c : Call}

theorem not_ok_of_shared {g s : SeqSegment} (h : Arrayed p (as ++ g :: s :: bs)) (hg : 0 < g.len)
    (hle : s.seq ≤ g.seq) (hlt : g.seq < s.stop) : ¬ SeqListOk p := by
  intro hok
  have hdis := hok.disjoint
  rw [h.take] at hdis
  have hgs : Disjoint g.bytes s.bytes :=
    (pairwise_cons.mp (pairwise_append.mp hdis).2.1).1 s mem_cons_self
  rw [Set.disjoint_left] at hgs
  exact hgs (a := g.seq) ⟨le_refl _, by omega⟩ ⟨hle, hlt⟩

/-- Compacting a list in which `g` and `seg` start together leaves a shared
byte, also when `seg` itself is merged away. -/
theorem Compacted.not_ok {g l seg : SeqSegment} (h : Compacted p ((as ++ [g]) ++ seg :: l :: bs))
    (hg : 0 < g.len) (hs : seg.Sound) (hl : l.stop ≤ seg.seq) (hsame : g.seq = seg.seq) :
    ¬ SeqListOk p := by
  have hpos := hs.pos
  have hstop : g.seq < seg.stop := by
    unfold stop
    omega
  generalize hlive : (as ++ [g]) ++ seg :: l :: bs = live at h
  cases h with
  | fits harr hlen =>
    subst hlive
    exact not_ok_of_shared (by simpa using harr) hg hsame.ge hstop
  | @merged zs g' l' hlen harr =>
    -- take the two merged segments off both sides
    obtain ⟨ds, d, hds⟩ : ∃ ds d, l :: bs = ds ++ [d] :=
      ⟨(l :: bs).dropLast, (l :: bs).getLast (by simp),
        (dropLast_append_getLast (by simp)).symm⟩
    rcases eq_nil_or_concat ds with rfl | ⟨es, e, rfl⟩
    · have hd : l = d ∧ bs = [] := by simpa using hds
      obtain ⟨rfl, rfl⟩ := hd
      have heq : (as ++ [g]) ++ [seg, l] = zs ++ [g', l'] := hlive
      obtain ⟨rfl, hpair⟩ := append_inj' heq rfl
      obtain ⟨rfl, rfl⟩ : seg = g' ∧ l = l' := by simpa using hpair
      rw [merged_eq hs hl] at harr
      refine not_ok_of_shared (by simpa using harr) hg ?_ ?_
      · unfold stop at hl
        simp only
        omega
      · unfold stop at *
        simp only
        omega
    · have heq : (as ++ [g] ++ seg :: es) ++ [e, d] = zs ++ [g', l'] := by
        rw [← hlive, hds]
        simp
      obtain ⟨rfl, -⟩ := append_inj' heq rfl
      exact not_ok_of_shared (by simpa using harr) hg hsame.ge hstop

/-- A segment that starts where a segment above the lowest one starts, and
ends inside it, is recorded next to it. -/
theorem classify_not_ok {g l seg : SeqSegment} (h : Arrayed p live) (hlen : live.length ≤ 15)
    (hsep : Separated live) (hs : seg.Sound) (hxs : upper live seg = as ++ [g])
    (hys : lower live seg = l :: bs) (hsame : g.seq = seg.seq) (hle : seg.len ≤ g.len) :
    ∃ ty p', classifySegment p seg = .ok (ty, p') ∧ ¬ SeqListOk p' := by
  have hne : live ≠ [] := by
    rw [eq_append hxs hys]
    simp
  have hclass := classify_eq h hsep hne hs hxs hys
  obtain rfl := eq_append hxs hys
  have hg : g.Sound := hsep.sound g (by simp)
  have hlg : l.stop ≤ g.seq := hsep.above g (by simp)
  have hspos := hs.pos
  have hgte : ∀ g' ∈ (as ++ [g]).getLast?, seg.stop ≠ g'.seq := by
    simp [stop]
    omega
  -- the lower neighbour ends below, and `g` reaches as far
  rw [if_neg (by simp; omega), if_neg (by simp [stop] at *; omega)] at hclass
  rw [hclass]
  by_cases htouch : l.stop = seg.seq
  · obtain ⟨ty, p', hrec, harr⟩ := record_lt h hs htouch hgte
    refine ⟨ty, p', hrec, not_ok_of_shared (by simpa using harr) hg.pos ?_ ?_⟩
    all_goals
      unfold stop at *
      simp only
      omega
  · obtain ⟨ty, p', hrec, hcomp⟩ := record_gap h hlen hsep hs (by simpa using htouch) hgte
    exact ⟨ty, p', hrec, hcomp.not_ok hg.pos hs (hsame ▸ hlg) hsame⟩

/-- Where a recorded segment above the lowest one starts with `seg`, the list
splits right behind it. -/
theorem split_at_start {g l seg : SeqSegment} (hsep : Separated (as ++ g :: l :: bs))
    (hsame : g.seq = seg.seq) :
    upper (as ++ g :: l :: bs) seg = as ++ [g] ∧ lower (as ++ g :: l :: bs) seg = l :: bs := by
  have has : ∀ a ∈ as, decide (seg.seq ≤ a.seq) = true := by
    intro a ha
    have := hsep.above a ha
    unfold stop at this
    exact decide_eq_true (by omega)
  have hl : ¬ seg.seq ≤ l.seq := by
    have h1 := hsep.below l mem_cons_self
    have h2 := (hsep.sound l (by simp)).pos
    unfold stop at h1
    omega
  constructor
  · rw [upper, takeWhile_append_of_pos has]
    simp [hsame, hl]
  · rw [lower, dropWhile_append_of_pos has]
    simp [hsame, hl]

/-- The position in `StartsOnInterval` is where the search splits the list. -/
theorem startsOnInterval_iff (h : Arrayed p live) (hsep : Separated live) (Q : SeqSegment → Prop) :
    (∃ i s, i + 1 < p.seqListLen ∧ p.seqList[i]? = some s ∧ s.seq = seg.seq ∧ Q s) ↔
      ∃ as g l bs, upper live seg = as ++ [g] ∧ lower live seg = l :: bs ∧
        g.seq = seg.seq ∧ Q g := by
  constructor
  · rintro ⟨i, g, hi, hget, hsame, hle⟩
    rw [h.len] at hi
    rw [h.getElem? (by omega)] at hget
    obtain ⟨hlt, hg⟩ := List.getElem?_eq_some_iff.mp hget
    obtain ⟨as, rest, rfl, rfl⟩ : ∃ as rest, live = as ++ g :: rest ∧ as.length = i := by
      refine ⟨live.take i, live.drop (i + 1), ?_, by simp; omega⟩
      rw [← hg, ← drop_eq_getElem_cons, take_append_drop]
    cases rest with
    | nil => simp at hi
    | cons l bs =>
      obtain ⟨hup, hlow⟩ := split_at_start hsep hsame
      exact ⟨as, g, l, bs, hup, hlow, hsame, hle⟩
  · rintro ⟨as, g, l, bs, hup, hlow, hsame, hle⟩
    obtain rfl := eq_append hup hlow
    refine ⟨as.length, g, ?_, ?_, hsame, hle⟩
    · rw [h.len]
      simp
    · rw [h.getElem? (by simp)]
      simp

theorem Call.seg_seq_lt (c : Call) : c.seg.seq < 2 ^ 32 := c.seq.toNat_lt

theorem Call.seg_len_pos (h : c.payloadLen ≠ 0) : 0 < c.seg.len :=
  Nat.pos_of_ne_zero fun h0 => h (UInt16.toNat_inj.mp h0)

theorem Call.seg_len_lt (c : Call) : c.seg.len < 2 ^ 32 :=
  lt_trans c.payloadLen.toNat_lt (by decide)

theorem assertStep_notCare (h : c.payloadLen = 0 ∨ c.seq = 0) : assertStep p c = .ok p := by
  have : c.payloadLen.toNat = 0 ∨ c.seq.toNat = 0 := by
    rcases h with h | h
    · exact .inl (by simp [h])
    · exact .inr (by simp [h])
  simp only [assertStep, assertSeqNumber, if_pos this]
  rfl

theorem assertSeqNumber_eq (hpay : c.payloadLen ≠ 0) (hseq : c.seq ≠ 0) :
    assertSeqNumber p c.seq.toNat c.payloadLen.toNat = (do
      let (pass, p) ← checkSeqSegment p c.seg
      if pass then classifySegment p c.seg else return (.notCare, p)) := by
  have hno : ¬ (c.payloadLen.toNat = 0 ∨ c.seq.toNat = 0) := by
    rintro (h | h)
    · exact hpay (UInt16.toNat_inj.mp h)
    · exact hseq (UInt32.toNat_inj.mp h)
  simp only [assertSeqNumber, if_neg hno, Call.seg]

/-- **Good step.**  A call that does not start on a recorded interval neither
panics nor breaks the invariant. -/
theorem assertStep_inv (h : PeerInv p) (hc : ¬ StartsOnInterval p c) :
    ∃ p', assertStep p c = .ok p' ∧ PeerInv p' := by
  by_cases hcare : c.payloadLen = 0 ∨ c.seq = 0
  · exact ⟨p, assertStep_notCare hcare, h⟩
  obtain ⟨hpay, hseq⟩ := not_or.mp hcare
  obtain ⟨live, harr, hlen, hsep⟩ := h
  rw [assertStep, assertSeqNumber_eq hpay hseq]
  rcases check_cases harr hlen hsep (Call.seg_len_pos hpay) c.seg_seq_lt c.seg_len_lt with
    ⟨p', hcheck, hinv⟩ | ⟨hcheck, hne, hs⟩
  · exact ⟨p', by simp [hcheck, Except.map], hinv⟩
  obtain ⟨ty, p', hclass, hinv⟩ := classify_inv harr hlen hsep hne hs rfl rfl (by
    intro g hg hsame hle
    obtain ⟨as, has⟩ := getLast?_eq_some_iff.mp hg
    by_contra hlow
    obtain ⟨l, bs, hlow⟩ := exists_cons_of_ne_nil hlow
    exact hc ⟨hpay, hseq, hcheck,
      (startsOnInterval_iff harr hsep _).mpr ⟨as, g, l, bs, has, hlow, hsame, hle⟩⟩)
  exact ⟨p', by simp [hcheck, hclass, Except.map], hinv⟩

/-- **Bad step.**  A call that starts on a recorded interval leaves a list
that is no longer a set of disjoint intervals. -/
theorem assertStep_not_ok (h : PeerInv p) (hc : StartsOnInterval p c) :
    ∃ p', assertStep p c = .ok p' ∧ ¬ SeqListOk p' := by
  obtain ⟨live, harr, hlen, hsep⟩ := h
  obtain ⟨hpay, hseq, hcheck, hon⟩ := hc
  obtain ⟨as, g, l, bs, hup, hlow, hsame, hle⟩ := (startsOnInterval_iff harr hsep _).mp hon
  rcases check_cases harr hlen hsep (Call.seg_len_pos hpay) c.seg_seq_lt c.seg_len_lt with
    ⟨p', hno, -⟩ | ⟨-, -, hs⟩
  · rw [hcheck] at hno
    simp at hno
  obtain ⟨ty, p', hclass, hbad⟩ := classify_not_ok harr hlen hsep hs hup hlow hsame hle
  refine ⟨p', ?_, hbad⟩
  rw [assertStep, assertSeqNumber_eq hpay hseq]
  simp [hcheck, hclass, Except.map]

/-- **The sequence list over any stream of calls.**  The run never panics and
the list is a set of disjoint intervals after every call exactly when no call
of the stream starts on a recorded interval. -/
theorem seq_list_ok_iff (calls : List Call) :
    StatesHold assertStep SeqListOk SessionPeer.default calls ↔
      StepsObey assertStep (fun p c => ¬ StartsOnInterval p c) SessionPeer.default calls := by
  refine statesHold_iff (J := PeerInv) (fun p => PeerInv.ok) ?_ ?_ peerInv_default
  · intro p c hp hc
    exact assertStep_inv hp hc
  intro p c hp hc p' hok
  obtain ⟨q, hq, hbad⟩ := assertStep_not_ok hp (not_not.mp hc)
  rw [hok] at hq
  cases hq
  exact hbad

/-- The third segment repeats the first one after a lower one was recorded. -/
theorem seq_list_repeats_start :
    ¬ StatesHold assertStep SeqListOk SessionPeer.default [⟨100, 10⟩, ⟨50, 10⟩, ⟨100, 10⟩] := by
  intro h
  obtain ⟨p, hrun, hok⟩ := h.run_ok
  have hval : run assertStep default [⟨100, 10⟩, ⟨50, 10⟩, ⟨100, 10⟩] =
      .ok ⟨[⟨100, 10⟩, ⟨100, 10⟩, ⟨50, 10⟩] ++ List.replicate 13 zero, 3⟩ := by
    decide
  rw [hval] at hrun
  cases hrun
  have := hok.descending
  simp at this

/-- The first byte of the call's segment lies in a recorded interval. -/
def Covered (p : SessionPeer) (c : Call) : Prop :=
  ∃ s ∈ p.seqList.take p.seqListLen, c.seg.seq ∈ s.bytes

/-- The call's segment starts where a recorded segment other than the lowest one
starts, however long it is. -/
def SharesStart (p : SessionPeer) (c : Call) : Prop :=
  ∃ i s, i + 1 < p.seqListLen ∧ p.seqList[i]? = some s ∧ s.seq = c.seg.seq

/-- A segment whose first byte is recorded is a retransmission, unless the lower
neighbour hides the segment it starts with. -/
theorem classify_covered (h : Arrayed p live) (hsep : Separated live) {s : SeqSegment}
    (hmem : s ∈ live) (hbyte : seg.seq ∈ s.bytes) (hxs : upper live seg = xs)
    (hys : lower live seg = ys) (hstart : ∀ as g, xs = as ++ [g] → g.seq = seg.seq → ys = []) :
    classifySegment p seg = .ok (.retrans, p) := by
  have hne := ne_nil_of_mem hmem
  have hsearch := search_spec h hne seg
  rw [hxs, hys] at hsearch
  have hup : ∀ g ∈ xs, seg.seq ≤ g.seq := fun g hg => mem_upper (hxs ▸ hg)
  have hlow : ∀ l bs, ys = l :: bs → l.seq < seg.seq := fun l bs h => head_lower (hys.trans h)
  obtain rfl := eq_append hxs hys
  have hret := isRetransSegment_spec hsep hne seg
  have hyes : (∃ l ∈ ys.head?, l.seq ≤ seg.seq ∧ seg.seq < l.stop) ∨
      (ys = [] ∧ ∃ g ∈ xs.getLast?, g.seq ≤ seg.seq ∧ seg.seq < g.stop) := by
    rcases mem_append.mp hmem with hmem | hmem
    · -- the segments above it end above its first byte, so it is the last of its half
      obtain ⟨as, g, rfl⟩ := eq_nil_or_concat xs |>.resolve_left (ne_nil_of_mem hmem)
      rw [concat_eq_append] at *
      have hsg : s = g := by
        rcases mem_append.mp hmem with hs | hs
        · have h1 : g.stop ≤ s.seq := Separated.above (by simpa using hsep) s hs
          have h2 := hup g (by simp)
          have h3 := (hsep.sound g (by simp)).pos
          have h4 := hbyte.1
          unfold stop at h1
          omega
        · exact mem_singleton.mp hs
      subst hsg
      have hle := hup s hmem
      exact .inr ⟨hstart as s rfl (Nat.le_antisymm hbyte.1 hle), s, by simp, hbyte⟩
    · obtain ⟨l, bs, rfl⟩ := exists_cons_of_ne_nil (ne_nil_of_mem hmem)
      refine .inl ⟨l, rfl, ?_⟩
      rcases mem_cons.mp hmem with rfl | hs
      · exact hbyte
      have h1 := hsep.below s hs
      have h2 := hlow l bs rfl
      have h3 : seg.seq < s.stop := hbyte.2
      omega
  rw [decide_eq_true hyes] at hret
  simp only [classifySegment, hsearch, ok_bind, hret]
  rfl

/-- **Covered bytes.**  Along every stream of calls none of which starts where a
recorded segment other than the lowest one starts, such a call that passes the filter
is a retransmission whenever its first byte is recorded, and changes nothing. -/
theorem covered_bytes_retrans (calls : List Call)
    (h : StepsObey assertStep (fun p c => ¬ SharesStart p c) SessionPeer.default calls) :
    StatesHold assertStep (fun p => ∀ c : Call, c.payloadLen ≠ 0 → c.seq ≠ 0 →
      checkSeqSegment p c.seg = .ok (true, p) → Covered p c → ¬ SharesStart p c →
        assertSeqNumber p c.seq.toNat c.payloadLen.toNat = .ok (.retrans, p))
      SessionPeer.default calls := by
  have hinv : StatesHold assertStep PeerInv default calls := by
    refine statesHold_of_invariant (fun p c hp hc => assertStep_inv hp ?_) peerInv_default h
    rintro ⟨-, -, -, i, s, hi, hs, hsame, -⟩
    exact hc ⟨i, s, hi, hs, hsame⟩
  refine hinv.mono fun p hp c hpay hseq hcheck hcov hc => ?_
  obtain ⟨live, harr, -, hsep⟩ := hp
  obtain ⟨s, hmem, hbyte⟩ := hcov
  rw [harr.take] at hmem
  have hclass := classify_covered harr hsep hmem hbyte rfl rfl (by
    intro as g hxs hsame
    by_contra hlow
    obtain ⟨l, bs, hlow⟩ := exists_cons_of_ne_nil hlow
    obtain ⟨i, s, hi, hs, hstart, -⟩ := (startsOnInterval_iff harr hsep fun _ => True).mpr
      ⟨as, g, l, bs, hxs, hlow, hsame, trivial⟩
    exact hc ⟨i, s, hi, hs, hstart⟩)
  rw [assertSeqNumber_eq hpay hseq, hcheck]
  exact hclass

/-- A segment that starts inside the only recorded one. -/
theorem covered_bytes_retrans_inside :
    ∃ p, run assertStep SessionPeer.default [⟨100, 10⟩] = .ok p ∧
      assertSeqNumber p 104 10 = .ok (.retrans, p) := by
  have hobeys : StepsObey assertStep (fun p c => ¬ SharesStart p c) default
      [⟨100, 10⟩] := ⟨fun ⟨_, _, hi, _⟩ => Nat.not_lt_zero _ hi, fun _ _ => trivial⟩
  obtain ⟨p, hrun, hp⟩ := (covered_bytes_retrans _ hobeys).run_ok
  cases hrun
  refine ⟨_, rfl, hp ⟨104, 10⟩ (by decide) (by decide) rfl ?_ ?_⟩
  · exact ⟨⟨100, 10⟩, by decide, by decide, by decide⟩
  · exact fun ⟨_, _, hi, _⟩ => Nat.not_lt_zero _ (Nat.lt_of_succ_lt_succ hi)

/-- The same segment twice in a row above a lower one: the second copy is recorded. -/
theorem repeated_segment_out_of_order :
    ∃ p p', run assertStep SessionPeer.default [⟨50, 10⟩, ⟨100, 10⟩] = .ok p ∧
      assertSeqNumber p 100 10 = .ok (.outOfOrder, p') ∧ p'.seqListLen = p.seqListLen + 1 :=
  ⟨_, _, rfl, rfl, rfl⟩

end ZeroTrace.SeqList
