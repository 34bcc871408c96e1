import ZeroTrace.SeqList
import Mathlib.Data.List.TakeWhile

/-!
# The sequence list as a list

The array of a session peer is a list of live segments followed by zeros.
`Arrayed` names that list, and this file says what each function under
`assertSeqNumber` does to it: an insertion puts a segment between two halves,
a merge replaces two neighbours by one, the search splits the list at the
start of the segment, and recording a segment has one of four effects,
depending on the neighbours it touches.

`Separated` is the invariant the list is meant to carry: sound segments, each
ending at or below the start of the one before it.
-/

namespace ZeroTrace.SeqList

open RustExec List SeqSegment

variable {xs ys : List SeqSegment} {p : SessionPeer}

/-- The array of `p` is the list `live` followed by zeros. -/
structure Arrayed (p : SessionPeer) (live : List SeqSegment) : Prop where
  list : p.seqList =
    live ++ List.replicate (seqListMaxLen - live.length) zero
  len : p.seqListLen = live.length
  fits : live.length ≤ seqListMaxLen

variable {s : SeqSegment}

theorem index_append : index (xs ++ s :: ys) xs.length = .ok s := by
  apply index_ok
  simp

theorem store_append (t : SeqSegment) :
    store (xs ++ s :: ys) xs.length t = .ok (xs ++ t :: ys) := by
  rw [store_ok t (by simp)]
  simp

theorem rotateLeftSlice_append (xs ys zs : List SeqSegment) (s : SeqSegment) :
    rotateLeftSlice (xs ++ s :: ys ++ zs) xs.length (xs.length + (s :: ys).length) =
      xs ++ ys ++ s :: zs := by
  have hlen : xs.length + (s :: ys).length = (xs ++ s :: ys).length := by simp
  rw [rotateLeftSlice, hlen, take_left, drop_left, drop_left]
  cases ys <;> simp [rotateLeft]

theorem rotateRightFrom_append (xs ys : List SeqSegment) (s : SeqSegment) :
    rotateRightFrom (xs ++ (ys ++ [s])) xs.length = xs ++ s :: ys := by
  rw [rotateRightFrom, take_left, drop_left]
  cases ys <;> simp [rotateRight]

theorem Arrayed.insert (h : Arrayed p (xs ++ ys)) (hroom : (xs ++ ys).length < seqListMaxLen)
    (seg : SeqSegment) :
    ∃ p', insertSeqSegment p xs.length seg = .ok p' ∧ Arrayed p' (xs ++ seg :: ys) := by
  -- the array has at least one zero entry to give up
  obtain ⟨r, hr⟩ : ∃ r, seqListMaxLen - (xs ++ ys).length = r + 1 :=
    ⟨seqListMaxLen - (xs ++ ys).length - 1, by omega⟩
  have hlist := h.list
  rw [hr, replicate_succ', append_assoc, ← append_assoc ys] at hlist
  have hrest : seqListMaxLen - (xs ++ seg :: ys).length = r := by
    simp only [length_append, length_cons] at hr ⊢
    omega
  have hfits : (xs ++ seg :: ys).length ≤ seqListMaxLen := by
    simp only [length_append, length_cons] at hroom ⊢
    omega
  refine ⟨⟨(xs ++ seg :: ys) ++ replicate r zero, p.seqListLen + 1⟩, ?_, ?_⟩
  · by_cases hlt : xs.length < p.seqListLen
    · have hrot := rotateRightFrom_append xs (ys ++ replicate r zero) zero
      rw [← hlist] at hrot
      simp [insertSeqSegment, hlt, hrot, store_append]
    have hys : ys = [] := by
      rw [h.len, length_append] at hlt
      exact length_eq_zero_iff.mp (by omega)
    subst hys
    rw [nil_append, ← replicate_succ', replicate_succ] at hlist
    simp [insertSeqSegment, hlt, hlist, store_append]
  · exact ⟨by rw [hrest], by simp [h.len]; omega, hfits⟩

variable {g l : SeqSegment}

theorem Arrayed.merge (h : Arrayed p (xs ++ g :: l :: ys)) :
    ∃ p', mergeSeqList p xs.length = .ok p' ∧
      Arrayed p' (xs ++ ⟨l.seq, wrappingAdd 32 (wrappingSub 32 g.seq l.seq) g.len⟩ :: ys) := by
  set m : SeqSegment := ⟨l.seq, wrappingAdd 32 (wrappingSub 32 g.seq l.seq) g.len⟩ with hm
  obtain ⟨r, hr⟩ : ∃ r, seqListMaxLen - (xs ++ g :: l :: ys).length = r := ⟨_, rfl⟩
  have hfits := h.fits
  have hlist := h.list
  have hlen := h.len
  rw [hr] at hlist
  simp only [length_append, length_cons] at hlen hr hfits
  have hlist' : p.seqList = xs ++ g :: (l :: ys ++ replicate r zero) := by simpa using hlist
  have hlist'' : p.seqList = (xs ++ [g]) ++ l :: (ys ++ replicate r zero) := by
    simpa using hlist
  have hassert : assert (decide (xs.length + 1 < p.seqListLen)) = .ok () := by
    rw [hlen, decide_eq_true (by omega)]
    rfl
  have hg : index p.seqList xs.length = .ok g := by rw [hlist']; exact index_append
  have hl : index p.seqList (xs.length + 1) = .ok l := by
    have := @index_append (xs ++ [g]) (ys ++ replicate r zero) l
    rw [hlist'']; simpa using this
  have hstore : store p.seqList xs.length m =
      .ok (xs ++ m :: (l :: ys ++ replicate r zero)) := by
    rw [hlist']; exact store_append m
  have hclear : store (xs ++ m :: (l :: ys ++ replicate r zero))
      (xs.length + 1) zero =
        .ok ((xs ++ [m]) ++ zero :: ys ++ replicate r zero) := by
    have := @store_append (xs ++ [m]) (ys ++ replicate r zero) l zero
    simpa using this
  have hrot := rotateLeftSlice_append (xs ++ [m]) ys (replicate r zero) zero
  have hshape : (xs ++ [m]) ++ ys ++ zero :: replicate r zero =
      (xs ++ m :: ys) ++ replicate (r + 1) zero := by
    simp [replicate_succ]
  refine ⟨⟨(xs ++ m :: ys) ++ replicate (r + 1) zero, p.seqListLen - 1⟩, ?_, ?_⟩
  · simp only [mergeSeqList, hassert, hg, hl, ok_bind, ← hm, hstore, hclear, pure_eq_ok]
    by_cases hmore : xs.length + 2 < p.seqListLen
    · have hpos : p.seqListLen = (xs ++ [m]).length + (zero :: ys).length := by
        simp only [length_append, length_cons, length_nil]; omega
      have hpos' : xs.length + 1 = (xs ++ [m]).length := by simp
      rw [if_pos hmore, ← hshape, ← hrot, hpos', ← hpos]
    · have hys : ys = [] := length_eq_zero_iff.mp (by omega)
      subst hys
      rw [if_neg hmore, ← hshape]
      simp
  · refine ⟨?_, ?_, ?_⟩
    · have : seqListMaxLen - (xs ++ m :: ys).length = r + 1 := by
        simp only [length_append, length_cons]; omega
      rw [this]
    all_goals simp only [length_append, length_cons]; omega

variable (live : List SeqSegment) (seg : SeqSegment)

/-- The recorded segments at or above the start of `seg`. -/
def upper : List SeqSegment :=
  live.takeWhile (fun s => seg.seq ≤ s.seq)

/-- The recorded segments that start below `seg`. -/
def lower : List SeqSegment :=
  live.dropWhile (fun s => seg.seq ≤ s.seq)

theorem upper_append_lower : upper live seg ++ lower live seg = live :=
  takeWhile_append_dropWhile

variable {live}

theorem mem_upper {seg s : SeqSegment} (h : s ∈ upper live seg) : seg.seq ≤ s.seq := by
  simpa using mem_takeWhile_imp h

theorem head_lower {seg l : SeqSegment} {ys : List SeqSegment} (h : lower live seg = l :: ys) :
    l.seq < seg.seq := by
  have hne : lower live seg ≠ [] := by rw [h]; simp
  have := head_dropWhile_not (fun s : SeqSegment => decide (seg.seq ≤ s.seq)) hne
  unfold lower at h
  simp only [h, head_cons] at this
  simpa using this

theorem findIdx_eq_upper_length (live : List SeqSegment) (seg : SeqSegment) :
    live.findIdx (fun s => seg.seq > s.seq) = (upper live seg).length := by
  induction live with
  | nil => rfl
  | cons s live ih =>
    by_cases hs : seg.seq ≤ s.seq
    · have hno : ¬ seg.seq > s.seq := by omega
      simp [findIdx_cons, upper, hs, hno, ih]
    · have hyes : seg.seq > s.seq := by omega
      simp [findIdx_cons, upper, hs, hyes]

theorem search_spec (h : Arrayed p live) (hne : live ≠ []) (seg : SeqSegment) :
    search p seg =
      .ok ((lower live seg).head?, (upper live seg).getLast?, (upper live seg).length) := by
  have hpos : p.seqListLen ≠ 0 := by
    rw [h.len]
    exact fun h0 => hne (length_eq_zero_iff.mp h0)
  have hslice : sliceTo p.seqList p.seqListLen = .ok live := by
    have hle : live.length ≤ p.seqList.length := by rw [h.list]; simp
    rw [sliceTo, h.len, if_pos hle, h.list, take_left]
  have hsplit := upper_append_lower live seg
  have hidx := findIdx_eq_upper_length live seg
  simp only [search, if_neg hpos, hslice, ok_bind, hidx]
  generalize upper live seg = xs at *
  generalize lower live seg = ys at *
  subst hsplit
  have hlist := h.list
  have hlen := h.len
  rcases eq_nil_or_concat xs with rfl | ⟨as, g, rfl⟩
  · obtain ⟨l, bs, rfl⟩ : ∃ l bs, ys = l :: bs := exists_cons_of_ne_nil hne
    have hl : index p.seqList 0 = .ok l := by
      apply index_ok
      rw [hlist]
      rfl
    simp [hl]
  have hg : index p.seqList as.length = .ok g := by
    apply index_ok
    rw [hlist]
    simp
  cases ys with
  | nil =>
    have hend : as.length + 1 = p.seqListLen := by simpa using hlen.symm
    simp [← hend, hg]
  | cons l bs =>
    have hl : index p.seqList (as.length + 1) = .ok l := by
      apply index_ok
      rw [hlist]
      simp
    have hlt : as.length + 1 ≠ p.seqListLen := by
      rw [hlen]
      simp
    simp [hlt, hl, hg]

/-- One past the last byte. -/
def SeqSegment.stop (s : SeqSegment) : Nat := s.seq + s.len

/-- Non-empty, and its end does not wrap. -/
structure SeqSegment.Sound (s : SeqSegment) : Prop where
  pos : 0 < s.len
  bounded : s.seq + s.len < 2 ^ 32

/-- Sound segments, each ending at or below the start of the one before it. -/
structure Separated (live : List SeqSegment) : Prop where
  apart : live.Pairwise (fun a b => b.stop ≤ a.seq)
  sound : ∀ s ∈ live, s.Sound

theorem Separated.nil : Separated [] := ⟨List.Pairwise.nil, by simp⟩

theorem Separated.sublist (h : Separated ys) (hsub : xs.Sublist ys) : Separated xs :=
  ⟨h.apart.sublist hsub, fun s hs => h.sound s (hsub.subset hs)⟩

theorem Separated.above (h : Separated (xs ++ s :: ys)) : ∀ a ∈ xs, s.stop ≤ a.seq := by
  intro a ha
  exact (pairwise_append.mp h.apart).2.2 a ha s mem_cons_self

theorem Separated.below (h : Separated (xs ++ s :: ys)) : ∀ b ∈ ys, b.stop ≤ s.seq := by
  intro b hb
  exact (pairwise_cons.mp (pairwise_append.mp h.apart).2.1).1 b hb

theorem Separated.put (h : Separated (xs ++ ys)) (hs : s.Sound) (habove : ∀ a ∈ xs, s.stop ≤ a.seq)
    (hbelow : ∀ b ∈ ys, b.stop ≤ s.seq) : Separated (xs ++ s :: ys) := by
  obtain ⟨hxs, hys, hxy⟩ := pairwise_append.mp h.apart
  refine ⟨pairwise_append.mpr ⟨hxs, pairwise_cons.mpr ⟨hbelow, hys⟩, fun a ha => ?_⟩, ?_⟩
  · exact forall_mem_cons.mpr ⟨habove a ha, hxy a ha⟩
  · obtain ⟨hsxs, hsys⟩ := forall_mem_append.mp h.sound
    exact forall_mem_append.mpr ⟨hsxs, forall_mem_cons.mpr ⟨hs, hsys⟩⟩

theorem Separated.replace {s t : SeqSegment} (h : Separated (xs ++ s :: ys)) (ht : t.Sound)
    (habove : ∀ a ∈ xs, t.stop ≤ a.seq) (hbelow : ∀ b ∈ ys, b.stop ≤ t.seq) :
    Separated (xs ++ t :: ys) :=
  (h.sublist (by simp)).put ht habove hbelow

/-- What `mergeSeqList` leaves of two neighbours: everything from the start of
the lower one to the end of the upper one. -/
theorem merged_eq (hg : g.Sound) (hl : l.stop ≤ g.seq) :
    (⟨l.seq, wrappingAdd 32 (wrappingSub 32 g.seq l.seq) g.len⟩ : SeqSegment) =
      ⟨l.seq, g.stop - l.seq⟩ := by
  have hgb := hg.bounded
  unfold stop at *
  rw [wrappingSub_of_le (by omega) (by omega), wrappingAdd_of_lt (by omega)]
  congr 1
  omega

theorem Separated.merge (h : Separated (xs ++ g :: l :: ys)) :
    Separated (xs ++ ⟨l.seq, wrappingAdd 32 (wrappingSub 32 g.seq l.seq) g.len⟩ :: ys) := by
  have hg : g.Sound := h.sound g (by simp)
  have hlg : l.stop ≤ g.seq := h.below l mem_cons_self
  have hgab := h.above
  have hrest : Separated (xs ++ l :: ys) := h.sublist (by simp)
  have hgb := hg.bounded
  have hgp := hg.pos
  rw [merged_eq hg hlg]
  refine hrest.replace ⟨?_, ?_⟩ ?_ hrest.below
  iterate 2
    · simp only [stop] at *
      omega
  · intro a ha
    have := hgab a ha
    simp only [stop] at *
    omega

theorem checkRetrans_spec {base seg : SeqSegment} (hb : base.Sound) :
    checkRetrans base seg = .ok (decide (base.seq ≤ seg.seq ∧ seg.seq < base.stop)) := by
  by_cases h : base.seq ≤ seg.seq
  · simp [checkRetrans, h, checkedAdd_ok hb.bounded, stop]
  · simp [checkRetrans, h]

theorem overlapsGte_spec {g seg : SeqSegment} (hg : g.Sound) (hs : seg.Sound) :
    overlapsGte g seg =
      .ok (decide ((seg.seq < g.seq ∧ g.seq < seg.stop) ∨ g.stop < seg.stop)) := by
  by_cases h : seg.seq < g.seq ∧ g.seq < seg.seq + seg.len
  · simp [overlapsGte, checkedAdd_ok hs.bounded, stop, h]
  · simp [overlapsGte, checkedAdd_ok hs.bounded, checkedAdd_ok hg.bounded, stop, h]

variable {seg}

theorem isErrorSegment_spec {lt gte : Option SeqSegment} (hlt : ∀ l ∈ lt, l.Sound)
    (hgte : ∀ g ∈ gte, g.Sound) (hs : seg.Sound) :
    isErrorSegment lt gte seg = .ok (decide
      ((∃ g ∈ gte, (seg.seq < g.seq ∧ g.seq < seg.stop) ∨ g.stop < seg.stop) ∨
        ∃ l ∈ lt, seg.seq < l.stop)) := by
  have hl : ∀ l, lt = some l → checkedAdd 32 l.seq l.len = .ok l.stop := by
    intro l h
    exact checkedAdd_ok (hlt l h).bounded
  cases gte with
  | none =>
    cases lt with
    | none => simp [isErrorSegment]
    | some l => simp [isErrorSegment, hl l rfl]
  | some g =>
    have hg := overlapsGte_spec (hgte g rfl) hs
    by_cases hov : (seg.seq < g.seq ∧ g.seq < seg.stop) ∨ g.stop < seg.stop
    · simp [isErrorSegment, hg, hov]
    · cases lt with
      | none => simp [isErrorSegment, hg, hov]
      | some l => simp [isErrorSegment, hg, hov, hl l rfl]

theorem Arrayed.store (h : Arrayed p (xs ++ s :: ys)) (t : SeqSegment) :
    ∃ zs, RustExec.store p.seqList xs.length t = .ok zs ∧
      Arrayed { p with seqList := zs } (xs ++ t :: ys) := by
  have hlist : p.seqList = xs ++ s :: (ys ++
      replicate (seqListMaxLen - (xs ++ s :: ys).length) zero) := by
    simpa using h.list
  refine ⟨_, by rw [hlist]; exact store_append t, ?_, ?_, ?_⟩
  · simp
  · simpa using h.len
  · simpa using h.fits

theorem continueLt_apart {lt : Option SeqSegment} (hlt : ∀ l ∈ lt, l.Sound)
    (hne : ∀ l ∈ lt, l.stop ≠ seg.seq) : continueLt lt seg = .ok none := by
  cases lt with
  | none => rfl
  | some l =>
    have hno : l.seq + l.len ≠ seg.seq := hne l rfl
    simp [continueLt, checkedAdd_ok (hlt l rfl).bounded, hno]

theorem continueLt_touching (hs : seg.Sound) (htouch : l.stop = seg.seq) :
    continueLt (some l) seg = .ok (some ⟨l.seq, l.len + seg.len⟩) := by
  have hb := hs.bounded
  unfold stop at htouch
  have h1 : l.seq + l.len < 2 ^ 32 := by omega
  have h2 : l.len + seg.len < 2 ^ 32 := by omega
  simp [continueLt, checkedAdd_ok h1, checkedAdd_ok h2, htouch]

theorem continueGte_apart {gte : Option SeqSegment} (hs : seg.Sound)
    (hne : ∀ g ∈ gte, seg.stop ≠ g.seq) : continueGte gte seg = .ok none := by
  cases gte with
  | none => rfl
  | some g =>
    have hno : seg.seq + seg.len ≠ g.seq := hne g rfl
    simp [continueGte, checkedAdd_ok hs.bounded, hno]

theorem continueGte_touching (hs : seg.Sound) (hg : g.Sound) (htouch : seg.stop = g.seq) :
    continueGte (some g) seg = .ok (some ⟨seg.seq, g.len + seg.len⟩) := by
  have hb := hg.bounded
  unfold stop at htouch
  have h2 : g.len + seg.len < 2 ^ 32 := by omega
  simp [continueGte, checkedAdd_ok hs.bounded, checkedAdd_ok h2, htouch]

/-- What `recordSegment` leaves in place of a list that may have grown to the
capacity of the array: itself, or itself with its two lowest entries merged. -/
inductive Compacted (p : SessionPeer) : List SeqSegment → Prop
  | fits {live : List SeqSegment} (harr : Arrayed p live)
      (hlen : live.length ≤ 15) : Compacted p live
  | merged {zs : List SeqSegment} {g l : SeqSegment} (hlen : zs.length = 14)
      (harr : Arrayed p (zs ++
        [⟨l.seq, wrappingAdd 32 (wrappingSub 32 g.seq l.seq) g.len⟩])) :
      Compacted p (zs ++ [g, l])

theorem record_gap (h : Arrayed p (xs ++ ys)) (hlen : (xs ++ ys).length ≤ 15)
    (hsep : Separated (xs ++ ys)) (hs : seg.Sound) (hlt : ∀ l ∈ ys.head?, l.stop ≠ seg.seq)
    (hgte : ∀ g ∈ xs.getLast?, seg.stop ≠ g.seq) :
    ∃ ty p', recordSegment p ys.head? xs.getLast? xs.length seg = .ok (ty, p') ∧
      Compacted p' (xs ++ seg :: ys) := by
  have hsound : ∀ l ∈ ys.head?, l.Sound := fun l hl =>
    hsep.sound l (mem_append_right _ (mem_of_mem_head? hl))
  obtain ⟨q, hins, harr⟩ := h.insert (by simpa using Nat.lt_succ_of_le hlen) seg
  have hrec : recordSegment p ys.head? xs.getLast? xs.length seg = (do
      let p ← mergeAtCapacity q
      return (if xs.getLast?.isSome then .outOfOrder else .discontinuous, p)) := by
    simp [recordSegment, checkAndUpdateContinuousSegment, continueLt_apart hsound hlt,
      continueGte_apart hs hgte, writeBack, hins]
  rw [hrec]
  by_cases hfull : q.seqListLen ≥ seqListMaxLen
  · -- the list has exactly sixteen entries, so its last two are at 14 and 15
    have hlen16 : (xs ++ seg :: ys).length = 16 := by
      have h1 := harr.len
      have h2 := harr.fits
      simp only [seqListMaxLen] at *
      omega
    obtain ⟨zs, tl, hsplit, hzs⟩ : ∃ zs tl, xs ++ seg :: ys = zs ++ tl ∧ zs.length = 14 :=
      ⟨(xs ++ seg :: ys).take 14, (xs ++ seg :: ys).drop 14, by simp, by simp [hlen16]⟩
    have htl : tl.length = 2 := by
      rw [hsplit, length_append] at hlen16
      omega
    obtain ⟨g, l, rfl⟩ := length_eq_two.mp htl
    rw [hsplit] at harr ⊢
    obtain ⟨p', hmerge, harr'⟩ := harr.merge
    have hmerge : mergeSeqList q (seqListMaxLen - 2) = .ok p' := by rwa [hzs] at hmerge
    refine ⟨if xs.getLast?.isSome then .outOfOrder else .discontinuous, p', ?_, .merged hzs harr'⟩
    simp only [mergeAtCapacity, if_pos hfull, hmerge, ok_bind, pure_eq_ok]
  · refine ⟨if xs.getLast?.isSome then .outOfOrder else .discontinuous, q, ?_,
      .fits harr ?_⟩
    · simp only [mergeAtCapacity, if_neg hfull, ok_bind, pure_eq_ok]
    · have h1 := harr.len
      simp only [seqListMaxLen] at *
      omega

theorem record_lt (h : Arrayed p (xs ++ l :: ys)) (hs : seg.Sound)
    (hlt : l.stop = seg.seq) (hgte : ∀ g ∈ xs.getLast?, seg.stop ≠ g.seq) :
    ∃ ty p', recordSegment p (some l) xs.getLast? xs.length seg = .ok (ty, p') ∧
      Arrayed p' (xs ++ ⟨l.seq, l.len + seg.len⟩ :: ys) := by
  obtain ⟨zs, hstore, harr⟩ := h.store ⟨l.seq, l.len + seg.len⟩
  refine ⟨if xs.getLast?.isSome then .outOfOrder else .continuous, _, ?_, harr⟩
  simp [recordSegment, checkAndUpdateContinuousSegment, continueLt_touching hs hlt,
    continueGte_apart hs hgte, writeBack, hstore]

theorem record_gte (h : Arrayed p (xs ++ g :: ys)) (hsep : Separated (xs ++ g :: ys))
    (hs : seg.Sound) (hlt : ∀ l ∈ ys.head?, l.stop ≠ seg.seq) (hgte : seg.stop = g.seq) :
    ∃ ty p', recordSegment p ys.head? (some g) (xs ++ [g]).length seg = .ok (ty, p') ∧
      Arrayed p' (xs ++ ⟨seg.seq, g.len + seg.len⟩ :: ys) := by
  have hsound : ∀ l ∈ ys.head?, l.Sound := fun l hl => hsep.sound l (by simp [mem_of_mem_head? hl])
  have hg : g.Sound := hsep.sound g (by simp)
  obtain ⟨zs, hstore, harr⟩ := h.store ⟨seg.seq, g.len + seg.len⟩
  refine ⟨.outOfOrder, _, ?_, harr⟩
  simp [recordSegment, checkAndUpdateContinuousSegment, continueLt_apart hsound hlt,
    continueGte_touching hs hg hgte, writeBack, hstore]

theorem record_both (h : Arrayed p (xs ++ g :: l :: ys)) (hsep : Separated (xs ++ g :: l :: ys))
    (hs : seg.Sound) (hlt : l.stop = seg.seq) (hgte : seg.stop = g.seq) :
    ∃ ty p', recordSegment p (some l) (some g) (xs ++ [g]).length seg = .ok (ty, p') ∧
      Arrayed p' (xs ++ ⟨l.seq, g.stop - l.seq⟩ :: ys) := by
  have hg : g.Sound := hsep.sound g (by simp)
  have h' : Arrayed p ((xs ++ [g]) ++ l :: ys) := by simpa using h
  obtain ⟨zs, hstore, harr⟩ := h'.store ⟨l.seq, l.len + seg.len⟩
  have harr' : Arrayed { p with seqList := zs }
      (xs ++ g :: (⟨l.seq, l.len + seg.len⟩ :: ys)) := by
    simpa using harr
  obtain ⟨ws, hstore', harr''⟩ := harr'.store ⟨seg.seq, g.len + seg.len⟩
  obtain ⟨p', hmerge, hfinal⟩ := harr''.merge
  have heq : (⟨l.seq, wrappingAdd 32 (wrappingSub 32 seg.seq l.seq)
      (g.len + seg.len)⟩ : SeqSegment) = ⟨l.seq, g.stop - l.seq⟩ := by
    have hgb := hg.bounded
    unfold stop at *
    rw [wrappingSub_of_le (by omega) (by omega), wrappingAdd_of_lt (by omega)]
    congr 1
    omega
  rw [heq] at hfinal
  refine ⟨.outOfOrder, p', ?_, hfinal⟩
  have hlen : (xs ++ [g]).length = xs.length + 1 := by simp
  rw [hlen] at hstore ⊢
  simp [recordSegment, checkAndUpdateContinuousSegment, continueLt_touching hs hlt,
    continueGte_touching hs hg hgte, writeBack, hstore, hstore', hmerge]

end ZeroTrace.SeqList
