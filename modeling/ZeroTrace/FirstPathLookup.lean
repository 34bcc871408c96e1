import ZeroTrace.FirstPathTable

/-!
# A lookup against a scan of the rules

Building the tables always comes to an end, and neither it nor a lookup leaves a table.  A
lookup delivers what a scan of all match fields delivers exactly when each match field that
looks at the bit with some number among the bits of the vector also looks at the bit with
that number in the mask.  This is so when no two bits of the vector share a byte.
-/

namespace ZeroTrace.Policy

open RustExec MatchedFieldN VectorN Acl
open List hiding Vector

namespace VectorN

variable {n : Nat} {v : VectorN n} {field : Field n} {packet : MatchedFieldN n}

/-- A lookup delivers what a scan delivers, whatever is done with the match fields. -/
def Exact (v : VectorN n) (table : List (List (TableItem n))) (items : List (TableItem n)) :
    Prop :=
  ∀ (P : Type) (merge : P → TableItem n → P) (packet : MatchedFieldN n) (policy : P),
    v.getPolicyFromTable merge table packet policy =
      .ok ((items.filter fun item => Matches packet item.field).foldl merge policy)

/-- A match field some packet can have looks at a bit of the mask where it looks at the bit
of the vector with the same number. -/
def Aligned (v : VectorN n) (field : Field n) : Prop :=
  field.field.bitAnd field.mask = field.field →
    ∀ p ∈ v.maskBits.zip v.vectorBits, field.mask.bit p.2 = true → field.mask.bit p.1 = true

instance (v : VectorN n) (field : Field n) : Decidable (v.Aligned field) :=
  inferInstanceAs (Decidable (_ → _))

theorem decide_matches (packet : MatchedFieldN n) (field : Field n) :
    decide (Matches packet field) = (List.range (bitSize n)).all fun i =>
      (packet.bit i && field.mask.bit i) == field.field.bit i := by
  rw [Bool.eq_iff_iff, decide_eq_true_iff, all_eq_true]
  constructor
  · intro h i _
    rw [beq_iff_eq, ← bit_bitAnd, h]
  intro h
  refine ext_bit fun i hi => ?_
  rw [bit_bitAnd]
  exact beq_iff_eq.mp (h i (mem_range.mpr hi))

theorem Matches.within (h : Matches packet field) :
    field.field.bitAnd field.mask = field.field := by
  apply ext_bit
  intro i _
  rw [← h, bit_bitAnd, bit_bitAnd, Bool.and_assoc, Bool.and_self]

theorem Aligned.found (h : v.Aligned field) (hmatches : Matches packet field) :
    v.found packet field = true := by
  rw [found_iff]
  intro p hp hmask
  have hlooks := h hmatches.within p hp hmask
  have hbit : (packet.bitAnd field.mask).bit p.1 = field.field.bit p.1 :=
    congrArg (·.bit p.1) hmatches
  rwa [bit_bitAnd, hlooks, Bool.and_true] at hbit

theorem exists_unit {b : Nat} (hb : b < bitSize n) :
    ∃ unit : MatchedFieldN n, ∀ i, unit.bit i = decide (i = b) := by
  have hbits : ∀ c ∈ [b], c < bitSize n := fun c hc => mem_singleton.mp hc ▸ hb
  obtain ⟨unit, -, hbit⟩ := setBits_ok hbits (pairwise_singleton _ _)
  refine ⟨unit, fun i => ?_⟩
  rw [hbit]
  refine decide_eq_decide.mpr ⟨fun h => mem_singleton.mp h.1, ?_⟩
  rintro rfl
  exact ⟨mem_singleton_self i, fun c hc _ => (mem_singleton.mp hc).le⟩

theorem Valid.exists_missed (hv : v.Valid) (h : ¬ v.Aligned field) :
    ∃ packet, Matches packet field ∧ v.found packet field = false := by
  simp only [Aligned, Classical.not_imp, not_forall, Bool.not_eq_true] at h
  obtain ⟨hwithin, ⟨b, c⟩, hmem, hc, hb⟩ := h
  have hvb : b ∈ v.vectorBits := mem_of_mem_filter (of_mem_zip hmem).1
  obtain ⟨unit, hunit⟩ := exists_unit (hv.bounded b hvb)
  have hfield : ∀ i, field.field.bit i = (field.field.bit i && field.mask.bit i) := fun i => by
    rw [← bit_bitAnd, hwithin]
  have hfieldb : field.field.bit b = false := by rw [hfield, hb, Bool.and_false]
  refine ⟨field.field.bitOr unit, ext_bit fun i _ => ?_, ?_⟩
  · rw [bit_bitAnd, bit_bitOr, hunit, hfield i]
    by_cases hi : i = b
    · rw [hi, hb, Bool.and_false, Bool.and_false]
    · rw [decide_eq_false hi, Bool.or_false, Bool.and_assoc, Bool.and_self]
  · rw [Bool.eq_false_iff, Ne, found, all_eq_true]
    intro hall
    have hpair := hall (b, c) hmem
    simp [hc, bit_bitOr, hunit, hfieldb] at hpair

/-- **A lookup is exact when all match fields are aligned, and only then.** -/
theorem Valid.exact_iff_aligned (hv : v.Valid) (items : List (TableItem n)) :
    ∃ table, v.generateTable items = .ok table ∧
      (∀ (P : Type) (merge : P → TableItem n → P) (packet : MatchedFieldN n) (policy : P),
        ∃ result, v.getPolicyFromTable merge table packet policy = .ok result) ∧
      (v.Exact table items ↔ ∀ item ∈ items, v.Aligned item.field) := by
  obtain ⟨table, hok, hlookup⟩ := hv.getPolicyFromTable items
  refine ⟨table, hok, fun P merge packet policy => ⟨_, hlookup P merge packet policy⟩, ?_, ?_⟩
  · intro hexact item hitem
    by_contra hnot
    obtain ⟨packet, hmatches, hmissed⟩ := hv.exists_missed hnot
    -- collecting the match fields tells the two apart
    have hsame := Except.ok.inj ((hlookup _ (fun found item => item :: found) packet []).symm.trans
      (hexact _ _ packet []))
    rw [foldl_flip_cons_eq_append', foldl_flip_cons_eq_append', append_nil,
      append_nil, reverse_inj] at hsame
    have hscan : item ∈ items.filter fun item => Matches packet item.field :=
      mem_filter.mpr ⟨hitem, decide_eq_true hmatches⟩
    rw [← hsame] at hscan
    have hfound := (mem_filter.mp (mem_of_mem_filter hscan)).2
    rw [hmissed] at hfound
    exact absurd hfound Bool.false_ne_true
  · intro haligned P merge packet policy
    rw [hlookup, filter_filter]
    congr 2
    refine filter_congr fun item hitem => ?_
    by_cases hmatches : Matches packet item.field
    · rw [(haligned item hitem).found hmatches, Bool.and_true]
    · rw [decide_eq_false hmatches, Bool.false_and]

end VectorN

namespace FirstPath

theorem sizeLoop_cases (sum level : Nat) {sizes : List Nat} :
    sizeLoop sum level sizes = vectorMaskSizeMin ∨ sizeLoop sum level sizes ∈ sizes := by
  induction sizes with
  | nil => exact Or.inl rfl
  | cons size sizes ih =>
    rw [sizeLoop]
    split
    · exact Or.inr mem_cons_self
    · exact ih.imp_right (mem_cons_of_mem size)

theorem vectorSize_bounds (sum level : Nat) :
    0 < vectorSize sum level ∧ vectorSize sum level ≤ 16 := by
  have hcases : vectorSize sum level = _ ∨ vectorSize sum level ∈ _ := sizeLoop_cases sum level
  rcases hcases with h | h
  · rw [h]
    decide
  · rw [mem_reverse, mem_range'_1] at h
    unfold vectorMaskSizeMin vectorMaskSizeMax at h
    exact ⟨by omega, by omega⟩

theorem countIndices_ok {n : Nat} {v : VectorN n} (hv : v.Valid) (fields : List (Field n)) :
    ∃ num, v.countIndices fields = .ok num := by
  induction fields with
  | nil => exact ⟨0, rfl⟩
  | cons field fields ih =>
    obtain ⟨indices, hindices, -⟩ := hv.allTableIndex field
    obtain ⟨num, hnum⟩ := ih
    exact ⟨indices.length + num, by rw [countIndices, hindices, ok_bind, hnum, ok_bind]⟩

theorem calcVectorTableMemory_ok {n : Nat} {v : VectorN n} (hv : v.Valid)
    (fields : List (Field n)) :
    ∃ v', v.calcVectorTableMemory fields = .ok v' ∧ v'.Valid ∧ v'.vectorBits = v.vectorBits := by
  obtain ⟨num, hnum⟩ := countIndices_ok hv fields
  refine ⟨{ v with count := num }, ?_, ?_, rfl⟩
  · rw [calcVectorTableMemory, hnum, ok_bind]
  · exact ⟨hv.sorted, hv.bounded, hv.length, hv.within, hv.order, hv.last, hv.mask⟩

/-- Both vectors can be looked up with. -/
structure Valid (fp : FirstPath) : Prop where
  vector4 : fp.vector4.Valid
  vector6 : fp.vector6.Valid

theorem chooseVectors_ok (fp : FirstPath) (acls : List Acl) (memoryExceeded : Bool) :
    ∃ fp', fp.chooseVectors acls memoryExceeded = .ok fp' ∧ fp'.Valid ∧
      fp'.currentLevel = fp.levelFor (policyCount acls) memoryExceeded ∧
      fp'.vector4.vectorBits =
        ((sortedBits (acls.flatMap matchField)).take
          (vectorSize (policyCount acls) fp'.currentLevel)).insertionSort (· ≤ ·) := by
  obtain ⟨hpos, hle⟩ := vectorSize_bounds (policyCount acls)
    (fp.levelFor (policyCount acls) memoryExceeded)
  obtain ⟨v4, hinit4, hv4, hbits⟩ := fp.vector4.init_ok (acls.flatMap matchField) hpos hle
  obtain ⟨v6, hinit6, hv6, -⟩ := fp.vector6.init_ok (acls.flatMap matchField6) hpos hle
  obtain ⟨v4', hcount4, hv4', hbits'⟩ := calcVectorTableMemory_ok hv4 (acls.flatMap matchField)
  obtain ⟨v6', hcount6, hv6', -⟩ := calcVectorTableMemory_ok hv6 (acls.flatMap matchField6)
  refine ⟨⟨v4', fp.table4, v6', fp.table6, fp.level, fp.levelFor (policyCount acls) memoryExceeded,
    fp.memoryLimit⟩, ?_, ⟨hv4', hv6'⟩, rfl, hbits'.trans hbits⟩
  rw [chooseVectors]
  rw [hinit4, ok_bind, hinit6, ok_bind, hcount4, ok_bind, hcount6, ok_bind]

/-- The search for a level that fits ends, since every pass but the first raises the
level. -/
theorem vectorLoop_ok (acls : List Acl) (memoryCheck : Nat → Bool) {fuel : Nat}
    (memoryExceeded : Bool) {fp : FirstPath} (hfp : fp.Valid) (hpos : 0 < fuel)
    (hfuel : if memoryExceeded then levelMax + 1 ≤ fuel + fp.currentLevel
      else levelMax + 2 ≤ fuel) :
    ∃ r, vectorLoop acls memoryCheck fuel memoryExceeded fp = .ok r ∧ ∀ fp' ∈ r, fp'.Valid := by
  induction fuel generalizing memoryExceeded fp with
  | zero => exact absurd hpos (Nat.lt_irrefl 0)
  | succ fuel ih =>
    rw [vectorLoop]
    by_cases hlevel : fp.currentLevel < levelMax
    · obtain ⟨fp', hchoose, hvalid, hcurrent, -⟩ := fp.chooseVectors_ok acls memoryExceeded
      rw [if_pos hlevel, hchoose, ok_bind]
      split
      · exact ⟨some fp', rfl, fun fp'' h => Option.some.inj h ▸ hvalid⟩
      split
      · refine ih true ⟨hvalid.vector4, hvalid.vector6⟩ ?_ ?_
        · split at hfuel
          · omega
          · omega
        rw [if_pos rfl]
        dsimp only
        cases memoryExceeded with
        | false =>
          rw [if_neg Bool.false_ne_true] at hfuel
          omega
        | true =>
          rw [if_pos rfl] at hfuel
          have hsame : fp'.currentLevel = fp.currentLevel := by
            rw [hcurrent, levelFor, if_neg]
            exact fun h => Bool.false_ne_true h.2.1.symm
          omega
      · exact ⟨none, rfl, fun fp'' h => absurd h (Option.not_mem_none fp'')⟩
    · rw [if_neg hlevel]
      exact ⟨some fp, rfl, fun fp'' h => Option.some.inj h ▸ hfp⟩

/-- **The lookups of the first path are exact if and only if the match fields are aligned
with the vectors.**  The tables are always built, or given up for want of memory, and no
lookup leaves its table. -/
theorem lookup_exact_iff (fp : FirstPath) (acls : List Acl) (memoryCheck : Nat → Bool) :
    ∃ r, fp.generateFirstTable acls memoryCheck = .ok r ∧ ∀ fp' ∈ r,
      (∀ field direction policy,
        (∃ result, fp'.getPolicyFromTable4 field direction policy = .ok result)) ∧
      (∀ field direction policy,
        (∃ result, fp'.getPolicyFromTable6 field direction policy = .ok result)) ∧
      (fp'.vector4.Exact fp'.table4 (items Acl.matchField acls) ∧
          fp'.vector6.Exact fp'.table6 (items Acl.matchField6 acls) ↔
        (∀ acl ∈ acls, ∀ field ∈ acl.matchField, fp'.vector4.Aligned field) ∧
          ∀ acl ∈ acls, ∀ field ∈ acl.matchField6, fp'.vector6.Aligned field) := by
  have hitems : ∀ {n : Nat} (v : VectorN n) (matchField : Acl → List (Field n)),
      (∀ item ∈ items matchField acls, v.Aligned item.field) ↔
        ∀ acl ∈ acls, ∀ field ∈ matchField acl, v.Aligned field := by
    intro n v matchField
    simp only [items, mem_flatMap, mem_map]
    constructor
    · intro h acl hacl field hfield
      exact h ⟨field, acl.policy⟩ ⟨acl, hacl, field, hfield, rfl⟩
    · rintro h item ⟨acl, hacl, field, hfield, rfl⟩
      exact h acl hacl field hfield
  have hempty : { fp with vector4 := {}, vector6 := {} }.Valid := ⟨valid_default, valid_default⟩
  obtain ⟨chosen, hloop, hvalid⟩ := vectorLoop_ok acls memoryCheck false hempty
    (Nat.succ_pos (levelMax + 1)) (Nat.le_refl _)
  rw [generateFirstTable, hloop, ok_bind]
  cases chosen with
  | none => exact ⟨none, rfl, fun fp' h => absurd h (Option.not_mem_none fp')⟩
  | some fp' =>
    obtain ⟨hv4, hv6⟩ := hvalid fp' rfl
    obtain ⟨table4, htable4, htotal4, hexact4⟩ := hv4.exact_iff_aligned (items matchField acls)
    obtain ⟨table6, htable6, htotal6, hexact6⟩ := hv6.exact_iff_aligned (items matchField6 acls)
    refine ⟨some { fp' with table4 := table4, table6 := table6 }, ?_, fun fp'' h => ?_⟩
    · dsimp only
      rw [htable4, ok_bind, htable6, ok_bind]
    obtain rfl := Option.some.inj h
    refine ⟨fun field direction policy => htotal4 _ _ field policy,
      fun field direction policy => htotal6 _ _ field policy, ?_⟩
    exact and_congr (hexact4.trans (hitems _ _)) (hexact6.trans (hitems _ _))

def octets (a b c d : BitVec 8) : Vector (BitVec 8) 4 := Vector.ofFn fun i => [a, b, c, d].getD i 0

/-- A rule for the packets from a network. -/
def sourceAcl (aclId : BitVec 32) (src mask : Vector (BitVec 8) 4) : Exec Acl :=
  ({ policy := { npbActions := [{ aclGids := [1] }], aclId := aclId } } : Acl).generateMatch
    [{ ip := .v4 src, mask := .v4 mask }]
    [{ ip := .v4 (octets 0 0 0 0), mask := .v4 (octets 0 0 0 0) }]

/-- What `sourceAcl` delivers. -/
def sourceRule (aclId : BitVec 32) (src mask : Vector (BitVec 8) 4) : Acl :=
  let acl : Acl := { policy := { npbActions := [{ aclGids := [1] }], aclId := aclId } }
  let fields :=
    acl.matchItems src mask (octets 0 0 0 0) (octets 0 0 0 0) epcAny epcAny [.all] [.all]
  { acl with matchField := fields }

/-- Rules for 11.3.0.0/16, 8.0.0.0/16 and 8.0.0.0/8. -/
def nestedRules : List Acl :=
  [sourceRule 1 (octets 11 3 0 0) (octets 255 255 0 0),
    sourceRule 2 (octets 8 0 0 0) (octets 255 255 0 0),
    sourceRule 3 (octets 8 0 0 0) (octets 255 0 0 0)]

/-- A packet from 8.2.0.1. -/
def nestedPacket : MatchedFieldN 4 :=
  ({ srcIp := octets 8 2 0 1 } : MatchedFieldN 4).set .captureNetworkType
    FlowGenerator.CaptureNetworkType.cloud.toU16

theorem take_flatMap_range {α : Type} {f : Nat → List α} {k m count : Nat} (hk : k ≤ m)
    (hcount : count ≤ ((List.range k).flatMap f).length) :
    ((List.range m).flatMap f).take count = ((List.range k).flatMap f).take count := by
  obtain ⟨d, rfl⟩ := Nat.exists_eq_add_of_le hk
  rw [range_add, flatMap_append, take_append_of_le_length hcount]

theorem nestedRules_bits :
    ((sortedBits (nestedRules.flatMap matchField)).take 4).insertionSort (· ≤ ·) =
      [0, 1, 8, 9] := by
  have hrows : ((List.range 2).flatMap fun k => (List.range (bitSize 4)).filter fun i =>
      splitIndex (nestedRules.flatMap matchField) i = k) = [0, 1, 8, 9] := by
    decide +kernel
  rw [sortedBits, take_flatMap_range (k := 2) (by decide) (by rw [hrows]; decide), hrows]
  decide

/-- The third rule is the packet's, and the lookup does not deliver it. -/
theorem nested_rule_missed :
    [sourceAcl 1 (octets 11 3 0 0) (octets 255 255 0 0),
      sourceAcl 2 (octets 8 0 0 0) (octets 255 255 0 0),
      sourceAcl 3 (octets 8 0 0 0) (octets 255 0 0 0)] = nestedRules.map .ok ∧
    ((items Acl.matchField nestedRules).filter fun item =>
        Matches nestedPacket item.field).foldl (mergeItem .forward) {} =
      { npbActions := [{ aclGids := [1] }], aclId := 3 } ∧
    ∃ fp, generateFirstTable { level := 0, currentLevel := 0 } nestedRules (fun _ => true) =
        .ok (some fp) ∧
      fp.getPolicyFromTable4 nestedPacket .forward {} = .ok {} := by
  refine ⟨rfl, ?_, ?_⟩
  · decide +kernel
  obtain ⟨fp, hchoose, ⟨hv4, hv6⟩, hlevel, hbits⟩ :=
    chooseVectors_ok { level := 0, currentLevel := 0 } nestedRules false
  have hsize : vectorSize (policyCount nestedRules) fp.currentLevel = 4 := by
    rw [hlevel]
    decide +kernel
  rw [hsize, nestedRules_bits] at hbits
  obtain ⟨table4, htable4, hlookup⟩ := hv4.getPolicyFromTable (items matchField nestedRules)
  obtain ⟨table6, htable6, -⟩ := hv6.getPolicyFromTable (items matchField6 nestedRules)
  have hloop : vectorLoop nestedRules (fun _ => true) (levelMax + 2) false
      { level := 0, currentLevel := 0 } = .ok (some fp) := by
    rw [vectorLoop, if_pos (by decide), hchoose, ok_bind, if_pos rfl]
  refine ⟨{ fp with table4 := table4, table6 := table6 }, ?_, ?_⟩
  · rw [generateFirstTable, hloop, ok_bind]
    dsimp only
    rw [htable4, ok_bind, htable6, ok_bind]
  have hfound : ∀ field, fp.vector4.found nestedPacket field =
      ({ vectorBits := [0, 1, 8, 9] } : VectorN 4).found nestedPacket field := by
    intro field
    rw [found, found, maskBits, hbits]
    rfl
  rw [getPolicyFromTable4]
  rw [hlookup]
  simp only [hfound, decide_matches]
  decide +kernel

end FirstPath

end ZeroTrace.Policy
