import ZeroTrace.StashKey
import ZeroTrace.PackedWords

/-!
# What a key of the stash tells apart

The word of a key is an append of its fields, so that two keys are compared field by
field.  Two fields share bits with others: the capture network of one end lies over the
number of its code, and that of a path, in the reserved bits of the capture port, over the
protocol of the application layer.
-/

namespace ZeroTrace.FlowGenerator

open PackedWords

theorem CaptureNetworkType.Numbered.cases {t : CaptureNetworkType} (h : t.Numbered) :
    t = .unknown ∨ ∃ b : BitVec 8, t.toU16 = b.setWidth 16 := by
  cases t with
  | any => exact .inr ⟨0, rfl⟩
  | idc value => exact .inr ⟨value, rfl⟩
  | cloud => exact .inr ⟨3, rfl⟩
  | max => cases h
  | unknown => exact .inl rfl

variable {t t' : CaptureNetworkType}

theorem CaptureNetworkType.Numbered.toU16_inj (h : t.Numbered) (h' : t'.Numbered) :
    t.toU16 = t'.toU16 ↔ t = t' := by
  constructor
  · intro heq
    have hsome : some t = some t' := by rw [← h, ← h', heq]
    exact Option.some.inj hsome
  · intro heq
    rw [heq]

/-- A code laid over the high byte of a capture network is legible, unless all bits of
the network are set. -/
theorem CaptureNetworkType.Numbered.or_shiftLeft_inj
    (h : t.Numbered) (h' : t'.Numbered) {c c' : BitVec 8} (hc : c ≠ 255) (hc' : c' ≠ 255) :
    t.toU16 ||| c.setWidth 16 <<< 8 = t'.toU16 ||| c'.setWidth 16 <<< 8 ↔
      t = t' ∧ (t = .unknown ∨ c = c') := by
  have hfull : ∀ x : BitVec 16, unknown.toU16 ||| x = 255#8 ++ 255#8 :=
    fun x => BitVec.allOnes_or
  have hbyte : ∀ b d : BitVec 8, b.setWidth 16 ||| d.setWidth 16 <<< 8 = d ++ b :=
    fun b d => (or_shiftLeft_eq_append b d rfl).trans (BitVec.setWidth_eq _)
  have hne : ∀ {b : BitVec 8}, b.setWidth 16 ≠ unknown.toU16 := by
    intro b heq
    have hlt := congrArg BitVec.toNat heq
    simp [toU16] at hlt
    omega
  obtain rfl | ⟨b, hb⟩ := h.cases
  · obtain rfl | ⟨b', hb'⟩ := h'.cases
    · simp only [hfull, true_or, and_self]
    rw [hfull, hb', hbyte, append_inj_iff]
    refine iff_of_false ?_ ?_
    · intro heq
      exact hc' heq.1.symm
    · intro heq
      rw [← heq.1] at hb'
      exact hne hb'.symm
  · obtain rfl | ⟨b', hb'⟩ := h'.cases
    · rw [hfull, hb, hbyte, append_inj_iff]
      refine iff_of_false ?_ ?_
      · intro heq
        exact hc heq.1
      · intro heq
        rw [heq.1] at hb
        exact hne hb.symm
    · rw [hb, hb', hbyte, hbyte, append_inj_iff, ← h.toU16_inj h', hb, hb',
        setWidth_inj_iff (by decide)]
      have hknown : t ≠ .unknown := by
        intro heq
        rw [heq] at hb
        exact hne hb.symm
      simp only [hknown, false_or]
      exact And.comm

namespace TapPort

/-- Every constructor leaves the reserved bits clear: the sources of a translation, at
most 6, take four bits. -/
theorem reserved_ofFields (low : BitVec 32) (tunnelType : TunnelType) (natSource : BitVec 4)
    (kind : BitVec 8) : (ofFields low tunnelType (natSource.setWidth 8) kind).reserved = 0 := by
  have hmask : reservedMask = (BitVec.allOnes 20).setWidth 32 := by decide
  ext i hi
  simp only [reserved, ofFields, hmask, BitVec.getElem_and, BitVec.getElem_or,
    BitVec.getElem_shiftLeft, BitVec.getElem_setWidth, BitVec.getLsbD_setWidth,
    BitVec.getLsbD_allOnes]
  grind

end TapPort

end ZeroTrace.FlowGenerator

namespace ZeroTrace.Collector

open FlowGenerator PackedWords

theorem Direction.toU8_injective : Function.Injective Direction.toU8 := by
  intro a b h
  revert h
  cases a <;> cases b <;> decide

theorem l7Byte_injective : Function.Injective l7Byte := by
  intro a b h
  revert h
  cases a <;> cases b <;> decide

/-- The code of one end, by what is added to the tags that all have. -/
def Code.ofSingle (mac isL7 : Bool) : Code :=
  match mac, isL7 with
  | true, true => .singleMacIpPortApp
  | true, false => .singleMacIpPort
  | false, false => .singleIpPort
  | false, true => .singleIpPortApp

/-- The code of a path, by what is added to the tags that all have. -/
def Code.ofEdge (mac isL7 : Bool) : Code :=
  match mac, isL7 with
  | true, true => .edgeMacIpPortApp
  | true, false => .edgeMacIpPort
  | false, false => .edgeIpPort
  | false, true => .edgeIpPortApp

namespace StashKey

/-- The number of a code in a key, with the mark for hardware addresses above it. -/
def codeNumber (mac isL7 : Bool) : BitVec 4 :=
  match mac, isL7 with
  | true, true => 11
  | true, false => 10
  | false, false => 1
  | false, true => 4

theorem codeNumber_inj {mac isL7 mac' isL7' : Bool} :
    codeNumber mac isL7 = codeNumber mac' isL7' ↔ mac = mac' ∧ isL7 = isL7' := by
  revert mac isL7 mac' isL7'
  decide

/-- The capture network of one end with the number of the code over its high byte. -/
def singleTap (t : Tagger) (code : BitVec 8) : BitVec 16 :=
  t.tapType.toU16 ||| code.setWidth 16 <<< 8

variable (t : Tagger)

theorem singleTap_setWidth (code : BitVec 8) :
    (singleTap t code).setWidth 128 <<< 48 =
      t.tapType.toU16.setWidth 128 <<< 48 ||| code.setWidth 128 <<< 56 := by
  unfold singleTap
  rw [BitVec.setWidth_or, BitVec.shiftLeft_or_distrib,
    setWidth_shiftLeft_setWidth code (by decide), ← BitVec.shiftLeft_add]

variable (mac isL7 : Bool) (t' : Tagger) (code l7 : BitVec 8) {i : Nat}

def singleWord (code l7 : BitVec 8) : BitVec 128 :=
  (l7 ++ (singleTap t code ++ (t.serverPort ++ (t.direction.toU8 ++ (t.protocol.value ++
    t.l3EpcId))))).setWidth 128

theorem singleFields_append :
    singleFields t ||| code.setWidth 128 <<< 56 ||| l7.setWidth 128 <<< 64 =
      singleWord t code l7 := by
  unfold singleFields singleWord
  rw [BitVec.or_assoc _ _ (code.setWidth 128 <<< 56), ← singleTap_setWidth,
    or_shiftLeft_eq_append _ _ rfl, or_shiftLeft_eq_append _ _ rfl,
    or_shiftLeft_eq_append _ _ rfl, or_shiftLeft_eq_append _ _ rfl,
    or_shiftLeft_eq_append _ _ rfl]

/-- The protocol in the word of one end, where its code asks for one. -/
def shownL7 (t : Tagger) : BitVec 8 := if isL7 then l7Byte t.l7Protocol else 0

theorem codeNumber_mac : ((codeNumber true isL7).setWidth 8).setWidth 128 <<< 56 =
      (if isL7 then 3#128 else 2#128) <<< 56 ||| 1#128 <<< 59 := by
  cases isL7 <;> decide

theorem codeNumber_plain : ((codeNumber false isL7).setWidth 8).setWidth 128 <<< 56 =
      (if isL7 then 4#128 else 1#128) <<< 56 := by
  cases isL7 <;> decide

theorem fastIdOf_single {t : Tagger} {mac isL7 : Bool} (h : t.code = .ofSingle mac isL7) :
    fastIdOf t = .ok (singleWord t ((codeNumber mac isL7).setWidth 8) (shownL7 isL7 t)) := by
  have hblank : (shownL7 false t).setWidth 128 <<< 64 = 0#128 := by
    rw [shownL7, if_neg Bool.false_ne_true]
    decide
  rw [← singleFields_append, fastIdOf, h]
  cases mac with
  | true =>
    rw [codeNumber_mac]
    cases isL7 with
    | true =>
      rw [Code.ofSingle, if_pos rfl, or_or_or_rotate, shownL7]
      rfl
    | false =>
      change Except.ok (1#128 <<< 59 ||| (singleFields t ||| 2#128 <<< 56)) = _
      rw [BitVec.or_comm, BitVec.or_assoc, hblank, BitVec.or_zero]
      rfl
  | false =>
    rw [codeNumber_plain]
    cases isL7 with
    | true => rfl
    | false =>
      rw [hblank, BitVec.or_zero]
      rfl

theorem singleWord_inj {t t' : Tagger} {code code' l7 l7' : BitVec 8} :
    singleWord t code l7 = singleWord t' code' l7' ↔
      l7 = l7' ∧ singleTap t code = singleTap t' code' ∧ t.serverPort = t'.serverPort ∧
        t.direction = t'.direction ∧ t.protocol = t'.protocol ∧ t.l3EpcId = t'.l3EpcId := by
  unfold singleWord
  rw [setWidth_inj_iff (by decide), append_inj_iff, append_inj_iff, append_inj_iff,
    append_inj_iff, append_inj_iff, Direction.toU8_injective.eq_iff, IpProtocol.mk.injEq]

/-- The 16 bits that the capture network of a path shares with the protocol of the
application layer. -/
def edgeTap (l7 : BitVec 8) : BitVec 16 := t.tapType.toU16 ||| l7.setWidth 16 <<< 8

def edgeReserved : BitVec 20 :=
  codeNumber mac isL7 ++ edgeTap t (shownL7 (mac && isL7) t)

def edgeWord : BitVec 128 :=
  (t.tapPort.bits ||| (edgeReserved t mac isL7).setWidth 64 <<< 40) ++
    (t.direction.toU8 ++ (t.serverPort ++ (t.protocol.value ++ (t.l3EpcId1 ++ t.l3EpcId))))

theorem edgeReserved_setWidth : (edgeReserved t mac isL7).setWidth 32 =
      t.tapType.toU16.setWidth 32 ||| ((shownL7 (mac && isL7) t).setWidth 32 <<< 8 |||
        (codeNumber mac isL7).setWidth 32 <<< 16) := by
  unfold edgeReserved edgeTap
  rw [← or_shiftLeft_eq_append _ _ rfl, BitVec.setWidth_or,
    setWidth_shiftLeft_setWidth _ (by decide), BitVec.or_assoc]

theorem setReservedBytes_edge :
    (t.tapPort.setReservedBytes ((edgeReserved t mac isL7).setWidth 32)).bits =
      t.tapPort.bits ||| (edgeReserved t mac isL7).setWidth 64 <<< 40 := by
  have hmask : TapPort.reservedMask = (BitVec.allOnes 20).setWidth 32 := by decide
  unfold TapPort.setReservedBytes
  rw [hmask, ← BitVec.setWidth_and, BitVec.and_allOnes, BitVec.setWidth_setWidth (by decide)]

theorem edgePort_eq : edgePort t ((shownL7 (mac && isL7) t).setWidth 32 <<< 8 |||
        (codeNumber mac isL7).setWidth 32 <<< 16) =
      (t.tapPort.bits ||| (edgeReserved t mac isL7).setWidth 64 <<< 40).setWidth 128 <<< 64 := by
  rw [edgePort, ← edgeReserved_setWidth, setReservedBytes_edge]

theorem edgeFields_append :
    edgeFields t ||| edgePort t ((shownL7 (mac && isL7) t).setWidth 32 <<< 8 |||
        (codeNumber mac isL7).setWidth 32 <<< 16) = edgeWord t mac isL7 := by
  rw [edgePort_eq, edgeFields, edgeWord, or_shiftLeft_eq_append _ _ rfl,
    or_shiftLeft_eq_append _ _ rfl, or_shiftLeft_eq_append _ _ rfl,
    or_shiftLeft_eq_append _ _ rfl, or_shiftLeft_eq_append _ _ rfl, BitVec.setWidth_eq]

theorem fastIdOf_edge {t : Tagger} {mac isL7 : Bool} (h : t.code = .ofEdge mac isL7) :
    fastIdOf t = .ok (edgeWord t mac isL7) := by
  have hblank : (shownL7 false t).setWidth 32 <<< 8 = 0#32 := by
    rw [shownL7, if_neg Bool.false_ne_true]
    decide
  rw [← edgeFields_append, fastIdOf, h]
  cases mac with
  | true =>
    cases isL7 with
    | true =>
      simp only [BitVec.or_assoc, shownL7]
      rfl
    | false =>
      rw [Bool.and_false, hblank, BitVec.zero_or]
      rfl
  | false =>
    rw [Bool.false_and, hblank, BitVec.zero_or]
    cases isL7 <;> rfl

theorem reserved_inj {p p' : TapPort} (h : p.reserved = 0) (h' : p'.reserved = 0)
    {r r' : BitVec 20} :
    p.bits ||| r.setWidth 64 <<< 40 = p'.bits ||| r'.setWidth 64 <<< 40 ↔ p = p' ∧ r = r' := by
  have hmask : TapPort.reservedMask.setWidth 64 = (BitVec.allOnes 20).setWidth 64 := by decide
  have hinside : ∀ x : BitVec 20, x.setWidth 64 <<< 40 &&& TapPort.reservedMask.setWidth 64 <<< 40 =
      x.setWidth 64 <<< 40 := by
    intro x
    rw [hmask, ← BitVec.shiftLeft_and_distrib, ← BitVec.setWidth_and, BitVec.and_allOnes]
  have hword : ∀ x : BitVec 20, x.setWidth 64 <<< 40 = (x ++ 0#40).setWidth 64 := by
    intro x
    rw [← or_shiftLeft_eq_append _ _ rfl, BitVec.setWidth_zero, BitVec.zero_or]
  rw [overlay_inj_iff h h' (hinside r) (hinside r'), hword, hword, setWidth_inj_iff (by decide),
    append_inj_iff, TapPort.mk.injEq]
  simp only [and_true]

theorem edgeWord_inj {t t' : Tagger} (h : t.tapPort.reserved = 0) (h' : t'.tapPort.reserved = 0)
    {mac isL7 mac' isL7' : Bool} :
    edgeWord t mac isL7 = edgeWord t' mac' isL7' ↔
      (t.tapPort = t'.tapPort ∧ (mac = mac' ∧ isL7 = isL7') ∧
          edgeTap t (shownL7 (mac && isL7) t) = edgeTap t' (shownL7 (mac' && isL7') t')) ∧
        t.direction = t'.direction ∧ t.serverPort = t'.serverPort ∧ t.protocol = t'.protocol ∧
          t.l3EpcId1 = t'.l3EpcId1 ∧ t.l3EpcId = t'.l3EpcId := by
  unfold edgeWord
  rw [append_inj_iff, append_inj_iff, append_inj_iff, append_inj_iff, append_inj_iff,
    reserved_inj h h', edgeReserved, edgeReserved, append_inj_iff, codeNumber_inj,
    Direction.toU8_injective.eq_iff, IpProtocol.mk.injEq]

def codeBit : Nat :=
  match mac, isL7 with
  | true, true => 0
  | true, false => 1
  | false, false => 0
  | false, true => 2

theorem codeBit_lt : codeBit mac isL7 < 4 := by
  revert mac isL7
  decide

theorem codeNumber_codeBit : (codeNumber mac isL7).getLsbD (codeBit mac isL7) = true := by
  revert mac isL7
  decide

theorem singleWord_codeBit (l7 : BitVec 8) :
    (singleWord t ((codeNumber mac isL7).setWidth 8) l7).getLsbD (56 + codeBit mac isL7) =
      true := by
  have hlt := codeBit_lt mac isL7
  have hbit := codeNumber_codeBit mac isL7
  generalize codeBit mac isL7 = k at hlt hbit
  unfold singleWord singleTap
  simp only [BitVec.getLsbD_setWidth, BitVec.getLsbD_append, BitVec.getLsbD_or,
    BitVec.getLsbD_shiftLeft]
  have hplace : 56 + k - (16 + (8 + (8 + 16))) = 8 + k := by omega
  rw [if_pos (by omega), if_neg (by omega), hplace, Nat.add_sub_cancel_left, hbit]
  simp
  omega

theorem singleWord_high (hi : 72 ≤ i) : (singleWord t code l7).getLsbD i = false := by
  unfold singleWord
  rw [BitVec.getLsbD_setWidth, BitVec.getLsbD_of_ge _ _ hi, Bool.and_false]

theorem edgeWord_codeBit : (edgeWord t mac isL7).getLsbD (120 + codeBit mac isL7) = true := by
  have hlt := codeBit_lt mac isL7
  have hbit := codeNumber_codeBit mac isL7
  generalize codeBit mac isL7 = k at hlt hbit
  unfold edgeWord edgeReserved
  simp only [BitVec.getLsbD_setWidth, BitVec.getLsbD_append, BitVec.getLsbD_or,
    BitVec.getLsbD_shiftLeft]
  have hplace : 120 + k - (8 + (16 + (8 + (16 + 16)))) - 40 = 16 + k := by omega
  rw [if_neg (by omega), hplace, if_neg (by omega), Nat.add_sub_cancel_left, hbit]
  simp
  omega

def aclWord : BitVec 128 := (t.serverPort ++ t.aclGid).setWidth 128

theorem fastIdOf_acl {t : Tagger} (h : t.code = .acl) : fastIdOf t = .ok (aclWord t) := by
  rw [aclWord, ← or_shiftLeft_eq_append _ _ rfl, fastIdOf, h]
  rfl

theorem aclWord_high (hi : 32 ≤ i) : (aclWord t).getLsbD i = false := by
  unfold aclWord
  rw [BitVec.getLsbD_setWidth, BitVec.getLsbD_of_ge _ _ hi, Bool.and_false]

theorem aclWord_inj {t t' : Tagger} :
    aclWord t = aclWord t' ↔ t.serverPort = t'.serverPort ∧ t.aclGid = t'.aclGid := by
  unfold aclWord
  rw [setWidth_inj_iff (by decide), append_inj_iff]

theorem edgeWord_ne_singleWord (mac isL7 : Bool) (code l7 : BitVec 8) :
    edgeWord t mac isL7 ≠ singleWord t' code l7 := by
  intro heq
  have hset := edgeWord_codeBit t mac isL7
  rw [heq, singleWord_high t' code l7 (by omega)] at hset
  cases hset

theorem edgeWord_ne_aclWord (mac isL7 : Bool) : edgeWord t mac isL7 ≠ aclWord t' := by
  intro heq
  have hset := edgeWord_codeBit t mac isL7
  rw [heq, aclWord_high t' (by omega)] at hset
  cases hset

theorem singleWord_ne_aclWord (mac isL7 : Bool) (l7 : BitVec 8) :
    singleWord t ((codeNumber mac isL7).setWidth 8) l7 ≠ aclWord t' := by
  intro heq
  have hset := singleWord_codeBit t mac isL7 l7
  rw [heq, aclWord_high t' (by omega)] at hset
  cases hset

end StashKey

end ZeroTrace.Collector
