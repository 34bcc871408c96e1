import Mathlib.Data.Vector.Defs
import ZeroTrace.BitIndex
import ZeroTrace.FlowKey
import ZeroTrace.SliceReads

/-!
# Matched fields

A packet is matched against the rules of a policy by a fixed layout of its addresses,
ports and other fields, as bytes.  A rule is such a layout together with a mask of the bits
that it looks at.  `get_table_index` picks the bits of a mask from a packet and numbers them
from below; `get_all_table_index` finds all numbers that a rule's packets can get.

`n` is the number of bytes of an address.
-/

namespace ZeroTrace.Policy

open RustExec BitIndex Nat
open List hiding Vector

def matchedFieldOtherSize : Nat := 10

structure MatchedFieldN (n : Nat) where
  srcIp : Vector (BitVec 8) n := .replicate n 0
  dstIp : Vector (BitVec 8) n := .replicate n 0
  others : Vector (BitVec 8) matchedFieldOtherSize := .replicate matchedFieldOtherSize 0
  deriving DecidableEq

/-- `MatchedFlag`, without the addresses. -/
inductive MatchedFlag where
  | srcEpc
  | dstEpc
  | srcPort
  | dstPort
  | proto
  | captureNetworkType

namespace MatchedFieldN

variable {n : Nat}

def bitSize (n : Nat) : Nat := (n * 2 + matchedFieldOtherSize) * 8

def offsetOf : MatchedFlag → Nat
  | .srcEpc => 0
  | .dstEpc => 2
  | .srcPort => 4
  | .dstPort => 6
  | .proto => 8
  | .captureNetworkType => 9

variable (field : MatchedFieldN n)

/-- Two bytes of the other fields, the low one first. -/
def setWord (offset : Nat) (value : BitVec 16) : MatchedFieldN n :=
  { field with
    others := (field.others.setIfInBounds offset (value.setWidth 8)).setIfInBounds (offset + 1)
      ((value >>> 8).setWidth 8) }

def set (flag : MatchedFlag) (value : BitVec 16) : MatchedFieldN n :=
  match flag with
  | .srcEpc | .dstEpc | .srcPort | .dstPort => field.setWord (offsetOf flag) value
  | .proto | .captureNetworkType =>
    { field with others := field.others.setIfInBounds (offsetOf flag) (value.setWidth 8) }

def setMask (flag : MatchedFlag) (isSet : Bool) : MatchedFieldN n :=
  field.set flag (if isSet then 0xffff else 0)

def writeByte {k : Nat} (bytes : Vector (BitVec 8) k) (i : Nat) (byte : BitVec 8) :
    Exec (Vector (BitVec 8) k) :=
  if i < k then .ok (bytes.setIfInBounds i byte) else .error .outOfBounds

/-- A bit of `set_bits`: the byte that has it is overwritten. -/
def setBit (b : Nat) : Exec (MatchedFieldN n) :=
  if b < 8 * n then
    writeByte field.srcIp (b >>> 3) (1#8 <<< (b &&& 7)) >>= fun srcIp =>
      .ok { field with srcIp := srcIp }
  else if b < 8 * 2 * n then
    writeByte field.dstIp ((b - 8 * n) >>> 3) (1#8 <<< ((b - 8 * n) &&& 7)) >>= fun dstIp =>
      .ok { field with dstIp := dstIp }
  else if b < 8 * (2 * n + 10) then
    writeByte field.others ((b - 8 * 2 * n) >>> 3) (1#8 <<< ((b - 8 * 2 * n) &&& 7)) >>=
      fun others => .ok { field with others := others }
  else .error .assertFailed

/-- The loop of `set_bits`. -/
def setBitsLoop : List Nat → MatchedFieldN n → Exec (MatchedFieldN n)
  | [], field => .ok field
  | b :: bits, field => field.setBit b >>= setBitsLoop bits

def setBits (bits : List Nat) : Exec (MatchedFieldN n) := setBitsLoop bits {}

def isBitZero (offset : Nat) : Exec Bool :=
  if offset < 8 * n then
    index field.srcIp.toList (offset >>> 3) >>= fun byte =>
      .ok (byte &&& 1#8 <<< (offset &&& 7) == 0)
  else if offset < 8 * 2 * n then
    index field.dstIp.toList ((offset - 8 * n) >>> 3) >>= fun byte =>
      .ok (byte &&& 1#8 <<< ((offset - 8 * n) &&& 7) == 0)
  else if offset < 8 * (2 * n + 10) then
    index field.others.toList ((offset - 8 * 2 * n) >>> 3) >>= fun byte =>
      .ok (byte &&& 1#8 <<< ((offset - 8 * 2 * n) &&& 7) == 0)
  else .error .assertFailed

def bitAnd (self rhs : MatchedFieldN n) : MatchedFieldN n where
  srcIp := self.srcIp.zipWith (· &&& ·) rhs.srcIp
  dstIp := self.dstIp.zipWith (· &&& ·) rhs.dstIp
  others := self.others.zipWith (· &&& ·) rhs.others

def bitOr (self rhs : MatchedFieldN n) : MatchedFieldN n where
  srcIp := self.srcIp.zipWith (· ||| ·) rhs.srcIp
  dstIp := self.dstIp.zipWith (· ||| ·) rhs.dstIp
  others := self.others.zipWith (· ||| ·) rhs.others

/-- `1 << offset` of `get_table_index`, an `i32` that is cut to a `u16`. -/
def indexBit (offset : Nat) : Exec (BitVec 16) :=
  if offset < 32 then .ok ((1#32 <<< offset).setWidth 16) else .error .overflow

/-- The loop of `get_table_index`. -/
def tableIndexLoop (result maskVector : MatchedFieldN n) :
    List Nat → BitVec 16 → Nat → Exec (BitVec 16)
  | [], index, _ => .ok index
  | i :: is, index, offset =>
    result.isBitZero i >>= fun zero =>
      (if zero then .ok index else indexBit offset >>= fun bit => .ok (index ||| bit)) >>=
        fun index =>
          maskVector.isBitZero i >>= fun zero =>
            tableIndexLoop result maskVector is index (if zero then offset else offset + 1)

def getTableIndex (maskVector : MatchedFieldN n) (min max : Nat) : Exec (BitVec 16) :=
  assert (min ≤ max) >>= fun _ =>
    tableIndexLoop (field.bitAnd maskVector) maskVector (List.range' min (max + 1 - min)) 0#16 0

/-- The places of the vector's bits that a mask leaves open, numbered from `i`. -/
def openOffsets (mask : MatchedFieldN n) : Nat → List Nat → Exec (List Nat)
  | _, [] => .ok []
  | i, offset :: offsets =>
    mask.isBitZero offset >>= fun zero =>
      openOffsets mask (i + 1) offsets >>= fun rest => .ok (if zero then i :: rest else rest)

/-- `1 << offset` of a `u16`. -/
def wordBit (offset : Nat) : Exec (BitVec 16) :=
  if offset < 16 then .ok (1#16 <<< offset) else .error .overflow

def clearOffsets : List Nat → BitVec 16 → Exec (BitVec 16)
  | [], index => .ok index
  | offset :: offsets, index =>
    wordBit offset >>= fun bit => clearOffsets offsets (index &&& ~~~ bit)

/-- The open places are filled in both ways. -/
def expandOffsets : List Nat → List (BitVec 16) → Exec (List (BitVec 16))
  | [], base => .ok base
  | offset :: offsets, base =>
    wordBit offset >>= fun bit => expandOffsets offsets (base ++ base.map (· ||| bit))

def getAllTableIndex (maskVector mask : MatchedFieldN n) (min max : Nat)
    (vectorBits : List Nat) : Exec (List (BitVec 16)) :=
  field.getTableIndex maskVector min max >>= fun index =>
    openOffsets mask 0 vectorBits >>= fun offsets =>
      clearOffsets offsets index >>= fun index => expandOffsets offsets [index]

end MatchedFieldN

/-- `Fieldv4` and `Fieldv6`. -/
structure Field (n : Nat) where
  field : MatchedFieldN n := {}
  mask : MatchedFieldN n := {}
  deriving DecidableEq

namespace MatchedFieldN

variable {n : Nat}

def bytes (field : MatchedFieldN n) : List (BitVec 8) :=
  field.srcIp.toList ++ (field.dstIp.toList ++ field.others.toList)

def bit (field : MatchedFieldN n) (i : Nat) : Bool :=
  (field.bytes.getD (i / 8) 0).getLsbD (i % 8)

variable (field : MatchedFieldN n)

@[simp] theorem length_others : field.others.toList.length = 10 :=
  Vector.length_toList

@[simp] theorem length_bytes : field.bytes.length = n * 2 + 10 := by
  rw [bytes, length_append, length_append, length_others, Vector.length_toList,
    Vector.length_toList]
  omega

theorem bitSize_eq (n : Nat) : bitSize n = 8 * (2 * n + 10) := by
  unfold bitSize matchedFieldOtherSize
  omega

theorem and_bit_eq_zero {byte : BitVec 8} {k : Nat} (hk : k < 8) :
    (byte &&& 1#8 <<< k == 0) = !byte.getLsbD k := by
  rw [← BitVec.twoPow_eq, BitVec.and_twoPow]
  cases hbit : byte.getLsbD k with
  | false => rfl
  | true =>
    have hne : BitVec.twoPow 8 k ≠ 0 := by
      intro heq
      have hzero := congrArg (·.getLsbD k) heq
      simp [hk] at hzero
    simpa using hne

theorem shiftRight_three (k : Nat) : k >>> 3 = k / 8 := shiftRight_eq_div_pow k 3

theorem and_seven (k : Nat) : k &&& 7 = k % 8 := and_two_pow_sub_one_eq_mod k 3

/-- **Reading a bit.** -/
theorem isBitZero_ok {i : Nat} (hi : i < bitSize n) : field.isBitZero i = .ok (!field.bit i) := by
  rw [bitSize_eq] at hi
  have hread : ∀ (bytes : List (BitVec 8)) (k : Nat), k < bytes.length →
      index bytes k = .ok (bytes.getD k 0) := fun _ _ => Slices.index_byteAt
  have hmod : ∀ k : Nat, k % 8 < 8 := fun k => mod_lt k (by decide)
  unfold isBitZero bit bytes
  simp only [shiftRight_three, and_seven]
  by_cases hsrc : i < 8 * n
  · rw [if_pos hsrc, hread _ _ (by simp; omega), ok_bind, and_bit_eq_zero (hmod i)]
    rw [getD_append _ _ _ _ (by simp; omega)]
  rw [if_neg hsrc]
  by_cases hdst : i < 8 * 2 * n
  · rw [if_pos hdst, hread _ _ (by simp; omega), ok_bind, and_bit_eq_zero (hmod _)]
    rw [getD_append_right _ _ _ _ (by simp; omega), getD_append _ _ _ _ (by simp; omega),
      sub_mul_div, sub_mul_mod (by omega), Vector.length_toList]
  · rw [if_neg hdst, if_pos hi, hread _ _ (by rw [length_others]; omega), ok_bind,
      and_bit_eq_zero (hmod _)]
    rw [getD_append_right _ _ _ _ (by simp; omega), getD_append_right _ _ _ _ (by simp; omega)]
    have hplace : (i - 8 * 2 * n) / 8 = i / 8 - n - n := by omega
    have hbit : (i - 8 * 2 * n) % 8 = i % 8 := by omega
    rw [hplace, hbit, Vector.length_toList, Vector.length_toList]

theorem ext_bit {f g : MatchedFieldN n} (h : ∀ i, i < bitSize n → f.bit i = g.bit i) : f = g := by
  have hbytes : f.bytes = g.bytes := by
    apply ext_getElem (by rw [length_bytes, length_bytes])
    intro k hk hk'
    apply BitVec.eq_of_getLsbD_eq
    intro j hj
    have hlt : 8 * k + j < bitSize n := by
      rw [length_bytes] at hk
      rw [bitSize_eq]
      omega
    have hbit := h (8 * k + j) hlt
    have hdiv : (8 * k + j) / 8 = k := by omega
    have hmod : (8 * k + j) % 8 = j := by omega
    rwa [bit, bit, hdiv, hmod, getD_eq_getElem _ _ hk, getD_eq_getElem _ _ hk'] at hbit
  obtain ⟨hsrc, hrest⟩ := append_inj hbytes (by simp)
  obtain ⟨hdst, hothers⟩ := append_inj hrest (by simp)
  rw [MatchedFieldN.mk.injEq]
  exact ⟨Vector.toList_inj.mp hsrc, Vector.toList_inj.mp hdst, Vector.toList_inj.mp hothers⟩

variable (f g : MatchedFieldN n) {offset : Nat} {vectorBits : List Nat} {offsets : List Nat}
  (i : Nat) {bits : List Nat} {min max : Nat}

theorem bytes_bitAnd : (f.bitAnd g).bytes = List.zipWith (· &&& ·) f.bytes g.bytes := by
  unfold bytes bitAnd
  rw [zipWith_append (by simp), zipWith_append (by simp)]
  simp

theorem bytes_bitOr : (f.bitOr g).bytes = List.zipWith (· ||| ·) f.bytes g.bytes := by
  unfold bytes bitOr
  rw [zipWith_append (by simp), zipWith_append (by simp)]
  simp

theorem getD_zipWith {op : BitVec 8 → BitVec 8 → BitVec 8} (hop : op 0 0 = 0)
    {xs ys : List (BitVec 8)} (h : xs.length = ys.length) (k : Nat) :
    (List.zipWith op xs ys).getD k 0 = op (xs.getD k 0) (ys.getD k 0) := by
  simp only [getD_eq_getElem?_getD, getElem?_zipWith]
  by_cases hk : k < xs.length
  · rw [getElem?_eq_getElem hk, getElem?_eq_getElem (h ▸ hk)]
    rfl
  · have hk' := not_lt.mp hk
    rw [getElem?_eq_none hk', getElem?_eq_none (h ▸ hk')]
    exact hop.symm

theorem bit_bitAnd : (f.bitAnd g).bit i = (f.bit i && g.bit i) := by
  rw [bit, bytes_bitAnd, getD_zipWith rfl (by simp), BitVec.getLsbD_and]
  rfl

theorem bit_bitOr : (f.bitOr g).bit i = (f.bit i || g.bit i) := by
  rw [bit, bytes_bitOr, getD_zipWith rfl (by simp), BitVec.getLsbD_or]
  rfl

theorem bit_empty : ({} : MatchedFieldN n).bit i = false := by
  have hbytes : ({} : MatchedFieldN n).bytes = replicate (n + (n + matchedFieldOtherSize)) 0 := by
    simp [bytes]
  rw [bit, hbytes, getD_eq_getElem?_getD, getElem?_getD_replicate_default_eq]
  exact BitVec.getLsbD_zero

/-- **Writing a bit** overwrites its byte. -/
theorem setBit_ok (f : MatchedFieldN n) {b : Nat} (hb : b < bitSize n) :
    ∃ g, f.setBit b = .ok g ∧ g.bytes = f.bytes.set (b / 8) (1#8 <<< (b % 8)) := by
  rw [bitSize_eq] at hb
  unfold setBit writeByte bytes
  simp only [shiftRight_three, and_seven]
  by_cases hsrc : b < 8 * n
  · rw [if_pos hsrc, if_pos (by omega), ok_bind]
    refine ⟨_, rfl, ?_⟩
    rw [set_append_left _ _ (by simp; omega)]
    simp
  rw [if_neg hsrc]
  by_cases hdst : b < 8 * 2 * n
  · rw [if_pos hdst, if_pos (by omega), ok_bind]
    refine ⟨_, rfl, ?_⟩
    rw [set_append_right _ _ (by simp; omega), Vector.length_toList,
      set_append_left _ _ (by simp; omega), sub_mul_div, sub_mul_mod (by omega)]
    simp
  · rw [if_neg hdst, if_pos hb, if_pos (by unfold matchedFieldOtherSize; omega), ok_bind]
    have hplace : (b - 8 * 2 * n) / 8 = b / 8 - n - n := by omega
    have hbit : (b - 8 * 2 * n) % 8 = b % 8 := by omega
    refine ⟨_, rfl, ?_⟩
    rw [set_append_right _ _ (by simp; omega), Vector.length_toList,
      set_append_right _ _ (by simp; omega), Vector.length_toList, hplace, hbit]
    simp

theorem bit_setBit {f g : MatchedFieldN n} {b i : Nat} (hb : b < bitSize n)
    (hg : g.bytes = f.bytes.set (b / 8) (1#8 <<< (b % 8))) :
    g.bit i = if i / 8 = b / 8 then decide (i = b) else f.bit i := by
  have hlt : b / 8 < f.bytes.length := by
    rw [bitSize_eq] at hb
    rw [length_bytes]
    omega
  rw [bit, hg, getD_eq_getElem?_getD]
  by_cases hbyte : i / 8 = b / 8
  · have hmod : b % 8 = i % 8 ↔ i = b := by omega
    have hi : i % 8 < 8 := mod_lt i (by decide)
    rw [if_pos hbyte, hbyte, getElem?_set_self hlt, Option.getD_some, ← BitVec.twoPow_eq,
      BitVec.getLsbD_twoPow]
    by_cases heq : i = b
    · simp [heq, hmod.mpr heq, hi]
    · have hne : ¬ b % 8 = i % 8 := fun h => heq (hmod.mp h)
      simp [heq, hne]
  · rw [if_neg hbyte, getElem?_set_ne (Ne.symm hbyte), bit, getD_eq_getElem?_getD]

def LastInByte (bits : List Nat) (i : Nat) : Prop := i ∈ bits ∧ ∀ b ∈ bits, b / 8 = i / 8 → b ≤ i

instance (bits : List Nat) (i : Nat) : Decidable (LastInByte bits i) :=
  inferInstanceAs (Decidable (_ ∧ _))

/-- **Of ascending bits in one byte only the last is set.** -/
theorem setBitsLoop_ok (hbits : ∀ b ∈ bits, b < bitSize n)
    (hsorted : bits.Pairwise (· < ·)) (f : MatchedFieldN n) :
    ∃ g, setBitsLoop bits f = .ok g ∧ ∀ i, g.bit i =
      if ∃ b ∈ bits, b / 8 = i / 8 then decide (LastInByte bits i) else f.bit i := by
  induction bits generalizing f with
  | nil => exact ⟨f, rfl, fun i => by simp⟩
  | cons b bits ih =>
    obtain ⟨hlow, hsorted⟩ := pairwise_cons.mp hsorted
    obtain ⟨hb, hrest⟩ := forall_mem_cons.mp hbits
    obtain ⟨f', hset, hbytes⟩ := setBit_ok f hb
    obtain ⟨g, hloop, hbit⟩ := ih hrest hsorted f'
    refine ⟨g, by rw [setBitsLoop, hset, ok_bind, hloop], fun i => ?_⟩
    rw [hbit i, bit_setBit hb hbytes]
    by_cases hrest : ∃ b' ∈ bits, b' / 8 = i / 8
    · obtain ⟨b', hb', hbyte⟩ := hrest
      rw [if_pos ⟨b', hb', hbyte⟩, if_pos ⟨b', mem_cons_of_mem _ hb', hbyte⟩]
      -- a later bit of the byte overwrites this one
      have hiff : LastInByte bits i ↔ LastInByte (b :: bits) i := by
        constructor
        · rintro ⟨hmem, hmax⟩
          refine ⟨mem_cons_of_mem _ hmem, fun c hc hbyte => ?_⟩
          rcases mem_cons.mp hc with rfl | hc
          · exact (hlow i hmem).le
          · exact hmax c hc hbyte
        · rintro ⟨hmem, hmax⟩
          have hle := hmax b' (mem_cons_of_mem _ hb') hbyte
          have hlt := hlow b' hb'
          refine ⟨(mem_cons.mp hmem).resolve_left (by omega), fun c hc hbyte => ?_⟩
          exact hmax c (mem_cons_of_mem _ hc) hbyte
      exact decide_eq_decide.mpr hiff
    · rw [if_neg hrest]
      by_cases hbyte : i / 8 = b / 8
      · rw [if_pos hbyte, if_pos ⟨b, mem_cons_self, hbyte.symm⟩]
        apply decide_eq_decide.mpr
        constructor
        · rintro rfl
          refine ⟨mem_cons_self, fun c hc hc' => ?_⟩
          rcases mem_cons.mp hc with rfl | hc
          · exact le_refl _
          · exact absurd ⟨c, hc, hc'⟩ hrest
        · rintro ⟨hmem, -⟩
          exact (mem_cons.mp hmem).resolve_right fun h => hrest ⟨i, h, rfl⟩
      · rw [if_neg hbyte, if_neg]
        rintro ⟨c, hc, hc'⟩
        rcases mem_cons.mp hc with rfl | hc
        · exact hbyte hc'.symm
        · exact hrest ⟨c, hc, hc'⟩

theorem setBits_ok (hbits : ∀ b ∈ bits, b < bitSize n) (hsorted : bits.Pairwise (· < ·)) :
    ∃ mask : MatchedFieldN n, setBits bits = .ok mask ∧
      ∀ i, mask.bit i = decide (LastInByte bits i) := by
  obtain ⟨mask, hok, hbit⟩ := setBitsLoop_ok hbits hsorted ({} : MatchedFieldN n)
  refine ⟨mask, hok, fun i => ?_⟩
  rw [hbit]
  split
  · rfl
  · next hnone =>
    rw [bit_empty]
    exact (decide_eq_false fun h => hnone ⟨i, h.1, rfl⟩).symm

theorem indexBit_ok (h : offset < 32) : indexBit offset = .ok (BitVec.twoPow 16 offset) := by
  rw [indexBit, if_pos h]
  congr 1
  apply BitVec.eq_of_getLsbD_eq
  intro j hj
  rw [BitVec.getLsbD_setWidth, ← BitVec.twoPow_eq, BitVec.getLsbD_twoPow, BitVec.getLsbD_twoPow]
  by_cases heq : offset = j
  · simp [heq, hj, show j < 32 by omega]
  · simp [heq]

def maskPlaces (mask : MatchedFieldN n) (places : List Nat) : List Nat :=
  places.filter fun i => mask.bit i

theorem tableIndexLoop_ok (field mask : MatchedFieldN n) {places : List Nat}
    (hplaces : ∀ i ∈ places, i < bitSize n) (index : BitVec 16)
    (hoffset : offset + (maskPlaces mask places).length ≤ 32) :
    tableIndexLoop (field.bitAnd mask) mask places index offset =
      .ok (index ||| packFrom 16 offset ((maskPlaces mask places).map field.bit)) := by
  induction places generalizing index offset with
  | nil => simp [tableIndexLoop, maskPlaces, packFrom]
  | cons i places ih =>
    obtain ⟨hi, hrest⟩ := forall_mem_cons.mp hplaces
    rw [tableIndexLoop, isBitZero_ok _ hi, ok_bind, isBitZero_ok _ hi, bit_bitAnd]
    cases hmask : mask.bit i with
    | false =>
      have hplaces' : maskPlaces mask (i :: places) = maskPlaces mask places := by
        simp [maskPlaces, hmask]
      rw [hplaces'] at hoffset ⊢
      rw [Bool.and_false, Bool.not_false, if_pos rfl, ok_bind, ok_bind, if_pos rfl,
        ih hrest index hoffset]
    | true =>
      have hplaces' : maskPlaces mask (i :: places) = i :: maskPlaces mask places := by
        simp [maskPlaces, hmask]
      rw [hplaces', length_cons] at hoffset
      rw [hplaces', map_cons, packFrom, Bool.and_true, ← BitVec.or_assoc]
      cases hbit : field.bit i with
      | false =>
        rw [Bool.not_false, if_pos rfl, ok_bind, ok_bind, Bool.not_true, if_neg (by decide),
          ih hrest index (by omega), if_neg (by decide), BitVec.or_zero]
      | true =>
        rw [Bool.not_true, if_neg (by decide), indexBit_ok (by omega), ok_bind, ok_bind,
          ok_bind, if_neg (by decide), if_pos rfl, ih hrest _ (by omega)]

/-- **The index of a packet** has the bits of the mask, numbered from below. -/
theorem getTableIndex_ok (field mask : MatchedFieldN n) (hle : min ≤ max) (hmax : max < bitSize n)
    (hcount : (maskPlaces mask (List.range' min (max + 1 - min))).length ≤ 32) :
    field.getTableIndex mask min max = .ok (packFrom 16 0
      ((maskPlaces mask (List.range' min (max + 1 - min))).map field.bit)) := by
  have hplaces : ∀ i ∈ List.range' min (max + 1 - min), i < bitSize n := by
    intro i hi
    rw [mem_range'_1] at hi
    omega
  rw [getTableIndex, assert, if_pos (decide_eq_true hle), ok_bind,
    tableIndexLoop_ok field mask hplaces 0#16 (by omega), BitVec.zero_or]

theorem openOffsets_ok (mask : MatchedFieldN n)
    (hbits : ∀ b ∈ vectorBits, b < bitSize n) (i : Nat) :
    ∃ offsets, openOffsets mask i vectorBits = .ok offsets ∧ offsets.Nodup ∧
      ∀ j, j ∈ offsets ↔ i ≤ j ∧ ∃ b, vectorBits[j - i]? = some b ∧ mask.bit b = false := by
  induction vectorBits generalizing i with
  | nil => exact ⟨[], rfl, nodup_nil, fun j => by simp⟩
  | cons b bits ih =>
    obtain ⟨hb, hrest⟩ := forall_mem_cons.mp hbits
    obtain ⟨rest, hok, hnodup, hmem⟩ := ih hrest (i + 1)
    have hlater : ∀ j, j ≠ i → (j ∈ rest ↔
        i ≤ j ∧ ∃ c, (b :: bits)[j - i]? = some c ∧ mask.bit c = false) := by
      intro j hne
      rw [hmem]
      by_cases hle : i + 1 ≤ j
      · have hstep : j - i = j - (i + 1) + 1 := by omega
        rw [hstep, getElem?_cons_succ]
        simp [hle, le_of_succ_le hle]
      · have hlt : ¬ i ≤ j := by omega
        simp [hle, hlt]
    have hnot : i ∉ rest := fun h => absurd ((hmem i).mp h).1 (by omega)
    rw [openOffsets, isBitZero_ok _ hb, ok_bind, hok, ok_bind]
    refine ⟨_, rfl, ?_, fun j => ?_⟩
    · split
      · exact nodup_cons.mpr ⟨hnot, hnodup⟩
      · exact hnodup
    by_cases hj : j = i
    · subst hj
      cases hbit : mask.bit b with
      | false => simp [hbit]
      | true => simp [hbit, hnot]
    · cases hbit : mask.bit b with
      | false => simpa [hj] using hlater j hj
      | true => simpa using hlater j hj

theorem wordBit_ok (h : offset < 16) : wordBit offset = .ok (BitVec.twoPow 16 offset) := by
  rw [wordBit, if_pos h, BitVec.twoPow_eq]

theorem clearOffsets_ok (h : ∀ offset ∈ offsets, offset < 16) (index : BitVec 16) :
    clearOffsets offsets index = .ok (clear offsets index) := by
  induction offsets generalizing index with
  | nil => rfl
  | cons offset offsets ih =>
    obtain ⟨hlt, hrest⟩ := forall_mem_cons.mp h
    rw [clearOffsets, wordBit_ok hlt, ok_bind, ih hrest]
    rfl

theorem expandOffsets_ok (h : ∀ offset ∈ offsets, offset < 16) (base : List (BitVec 16)) :
    expandOffsets offsets base = .ok (expand offsets base) := by
  induction offsets generalizing base with
  | nil => rfl
  | cons offset offsets ih =>
    obtain ⟨hlt, hrest⟩ := forall_mem_cons.mp h
    rw [expandOffsets, wordBit_ok hlt, ok_bind, ih hrest]
    rfl

/-- **The indices of a rule** are those that agree with its own at the places whose bit its
mask looks at.  Each is listed once. -/
theorem getAllTableIndex_ok {field maskVector mask : MatchedFieldN n} {index : BitVec 16}
    (hindex : field.getTableIndex maskVector min max = .ok index)
    (hbits : ∀ b ∈ vectorBits, b < bitSize n) (hlength : vectorBits.length ≤ 16) :
    ∃ indices, field.getAllTableIndex maskVector mask min max vectorBits = .ok indices ∧
      indices.Nodup ∧
      ∀ x, x ∈ indices ↔ ∀ j, j < 16 →
        (∀ b, vectorBits[j]? = some b → mask.bit b = true) → x.getLsbD j = index.getLsbD j := by
  obtain ⟨offsets, hok, hnodup, hmem⟩ := openOffsets_ok mask hbits 0
  have hlt : ∀ offset ∈ offsets, offset < 16 := by
    intro offset ho
    obtain ⟨-, b, hb, -⟩ := (hmem offset).mp ho
    have hoffset := (List.getElem?_eq_some_iff.mp hb).1
    omega
  refine ⟨expand offsets [clear offsets index], ?_, ?_, fun x => ?_⟩
  · rw [getAllTableIndex, hindex, ok_bind, hok, ok_bind, clearOffsets_ok hlt, ok_bind,
      expandOffsets_ok hlt]
  · refine nodup_expand (nodup_singleton _) hnodup hlt fun y hy offset ho => ?_
    rw [mem_singleton.mp hy, getLsbD_clear _ _ (hlt offset ho)]
    simp [ho]
  · rw [mem_expand_clear]
    have hopen : ∀ j, j ∉ offsets ↔ ∀ b, vectorBits[j]? = some b → mask.bit b = true := by
      intro j
      rw [hmem j]
      simp
    simp only [hopen]

end MatchedFieldN

end ZeroTrace.Policy
