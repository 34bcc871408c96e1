import ZeroTrace.FirstPath

/-!
# The table of the first path

`init` always finds its bits: they are ascending, lie inside a field, and are as many as
asked for.  Of those that share a byte only the last reaches the mask, so that a packet may
have fewer bits in its index than there are places in a rule's.  The row of a packet holds
the match fields that agree with the packet at these places, in their order.
-/

namespace ZeroTrace.Policy.VectorN

open RustExec MatchedFieldN List BitIndex Nat List.Pairwise

variable {n : Nat}

section Rows

variable {α : Type}

theorem pushAt_ok {table : List (List α)} {i : Nat} (hi : i < table.length) (item : α) :
    ∃ table', pushAt table i item = .ok table' ∧ table'.length = table.length ∧
      ∀ k, table'.getD k [] = table.getD k [] ++ if i = k then [item] else [] := by
  have hrow : table[i]? = some (table.getD i []) := by
    rw [getD_eq_getElem _ _ hi, getElem?_eq_getElem hi]
  refine ⟨table.set i (table.getD i [] ++ [item]), ?_, length_set, fun k => ?_⟩
  · rw [pushAt, index_ok hrow, ok_bind, store_ok _ hi]
  simp only [getD_eq_getElem?_getD]
  by_cases hk : i = k
  · subst hk
    rw [getElem?_set_self hi, if_pos rfl, hrow]
    rfl
  · rw [getElem?_set_ne hk, if_neg hk, append_nil]

end Rows

variable {vectorSize : Nat} {table : List (List (TableItem n))} {picked : List Nat}

section Bits

/-- How many rules have a bit as 0. -/
def zeros (fields : List (Field n)) (i : Nat) : Nat :=
  fields.countP fun field => field.mask.bit i && !field.field.bit i

/-- How many rules have a bit as 1. -/
def ones (fields : List (Field n)) (i : Nat) : Nat :=
  fields.countP fun field => field.mask.bit i && field.field.bit i

section

variable (fields : List (Field n))

theorem zeros_add_ones_le (i : Nat) : zeros fields i + ones fields i ≤ fields.length := by
  have hsplit := length_eq_countP_add_countP (fun field : Field n => field.field.bit i)
    (l := fields.filter fun field => field.mask.bit i)
  have hle := length_filter_le (fun field : Field n => field.mask.bit i) fields
  simp only [countP_filter, Bool.not_eq_true, Bool.decide_eq_false] at hsplit
  simp only [zeros, ones, Bool.and_comm (Field.mask _ |>.bit i)]
  omega

theorem matchedBits_ok {i : Nat} (hi : i < bitSize n) :
    matchedBits i fields = .ok (zeros fields i, ones fields i) := by
  induction fields with
  | nil => rfl
  | cons field fields ih =>
    rw [matchedBits, ih, ok_bind]
    dsimp only
    rw [isBitZero_ok _ hi, ok_bind, isBitZero_ok _ hi]
    unfold zeros ones
    rw [countP_cons, countP_cons]
    cases field.mask.bit i with
    | false => rfl
    | true =>
      cases field.field.bit i <;> rfl

/-- The row of a bit in the table by which the bits are sorted. -/
def splitIndex (fields : List (Field n)) (i : Nat) : Nat :=
  let matched0 := zeros fields i
  let matched1 := ones fields i
  let index :=
    if matched0 = 0 ∧ matched1 = 0 then fields.length
    else (if matched0 > matched1 then matched0 - matched1 else matched1 - matched0) +
      (fields.length - (matched0 + matched1))
  if i16Max < index then index / ((fields.length >>> 15) + 1) + i16Max else index

theorem sortTableIndex_ok (i : Nat) :
    sortTableIndex (zeros fields i) (ones fields i) fields.length = .ok (splitIndex fields i) := by
  have hle := zeros_add_ones_le fields i
  unfold sortTableIndex calcIndex splitIndex
  by_cases hnone : zeros fields i = 0 ∧ ones fields i = 0
  · rw [if_pos hnone, ok_bind]
    simp only [if_pos hnone]
  · rw [if_neg hnone, checkedSub_ok hle, ok_bind, ok_bind]
    simp only [if_neg hnone]

theorem splitIndex_lt (i : Nat) : splitIndex fields i < u16Max := by
  have hle := zeros_add_ones_le fields i
  have hindex : ∀ index, index ≤ fields.length →
      (if i16Max < index then index / ((fields.length >>> 15) + 1) + i16Max else index) <
        u16Max := by
    intro index hindex
    rw [shiftRight_eq_div_pow]
    unfold i16Max u16Max
    split
    · have hdiv : index / (fields.length / 2 ^ 15 + 1) < 2 ^ 15 := by
        rw [div_lt_iff_lt_mul (succ_pos _)]
        rw [mul_succ]
        omega
      omega
    · omega
  apply hindex
  split
  · exact le_refl _
  · split
    · omega
    · omega

theorem sortTableLoop_ok {is : List Nat} (his : ∀ i ∈ is, i < bitSize n) {table : List (List Nat)}
    (htable : table.length = u16Max) :
    ∃ table', sortTableLoop fields is table = .ok table' ∧ table'.length = u16Max ∧
      ∀ k, table'.getD k [] = table.getD k [] ++ is.filter fun i => splitIndex fields i = k := by
  induction is generalizing table with
  | nil => exact ⟨table, rfl, htable, fun k => (append_nil _).symm⟩
  | cons i is ih =>
    obtain ⟨hi, his⟩ := forall_mem_cons.mp his
    have hindex : splitIndex fields i < table.length := htable ▸ splitIndex_lt fields i
    obtain ⟨t, hpush, hlength, hrow⟩ := pushAt_ok hindex i
    obtain ⟨t', hloop, hlength', hrow'⟩ := ih his (hlength.trans htable)
    refine ⟨t', ?_, hlength', fun k => ?_⟩
    · rw [sortTableLoop, matchedBits_ok _ hi, ok_bind]
      dsimp only
      rw [sortTableIndex_ok, ok_bind, hpush, ok_bind, hloop]
    · rw [hrow', hrow, append_assoc]
      split_ifs with hk
      · rw [filter_cons_of_pos (by simpa using hk), singleton_append]
      · rw [filter_cons_of_neg (by simpa using hk), nil_append]

/-- All bits, those that split the rules best first. -/
def sortedBits (fields : List (Field n)) : List Nat :=
  (List.range u16Max).flatMap fun k =>
    (List.range (bitSize n)).filter fun i => splitIndex fields i = k

theorem generateSortTable_ok :
    ∃ table, generateSortTable fields = .ok table ∧ table.flatten = sortedBits fields := by
  have hbits : ∀ i ∈ range (bitSize n), i < bitSize n := fun i => mem_range.mp
  have hempty : (replicate u16Max ([] : List Nat)).length = u16Max := length_replicate
  obtain ⟨table, hok, hlength, hrow⟩ := sortTableLoop_ok fields hbits hempty
  refine ⟨table, hok, ?_⟩
  have htable : table = (range u16Max).map fun k =>
      (range (bitSize n)).filter fun i => splitIndex fields i = k := by
    apply ext_getElem
    · rw [length_map, length_range, hlength]
    intro k hk hk'
    have hget := hrow k
    rw [getD_eq_getElem _ _ hk, getD_replicate _ (hlength ▸ hk), nil_append] at hget
    rw [hget, getElem_map, getElem_range]
  rw [htable, sortedBits, flatMap_def]

theorem sortedBits_perm : (sortedBits fields).Perm (range (bitSize n)) := by
  have hnodup : (sortedBits fields).Nodup := by
    refine nodup_flatMap.mpr ⟨fun k _ => nodup_range.filter _, ?_⟩
    refine nodup_range.imp fun {k k'} hne => ?_
    intro i hi hi'
    have hk := of_decide_eq_true (mem_filter.mp hi).2
    have hk' := of_decide_eq_true (mem_filter.mp hi').2
    exact hne (hk.symm.trans hk')
  refine (perm_ext_iff_of_nodup hnodup nodup_range).mpr fun i => ?_
  rw [sortedBits, mem_flatMap]
  constructor
  · rintro ⟨k, -, hi⟩
    exact (mem_filter.mp hi).1
  · intro hi
    exact ⟨splitIndex fields i, mem_range.mpr (splitIndex_lt fields i),
      mem_filter.mpr ⟨hi, decide_eq_true rfl⟩⟩

end

theorem pickRow_eq (row : List Nat) (h : picked.length < vectorSize) :
    pickRow vectorSize row picked = (picked ++ row).take vectorSize := by
  induction row generalizing picked with
  | nil => rw [pickRow, append_nil, take_of_length_le h.le]
  | cons bit row ih =>
    have hmove : picked ++ bit :: row = (picked ++ [bit]) ++ row := by simp
    rw [pickRow, hmove]
    by_cases hfull : vectorSize ≤ picked.length + 1
    · have hlength : vectorSize = (picked ++ [bit]).length := by
        rw [length_append, length_singleton]
        omega
      rw [if_pos hfull, hlength, take_left]
    · rw [if_neg hfull, ih]
      rw [length_append, length_singleton]
      omega

theorem pickRows_eq (table : List (List Nat)) (h : picked.length < vectorSize) :
    pickRows vectorSize table picked = (picked ++ table.flatten).take vectorSize := by
  induction table generalizing picked with
  | nil => rw [pickRows, flatten_nil, append_nil, take_of_length_le h.le]
  | cons row table ih =>
    rw [pickRows, pickRow_eq row h, flatten_cons, ← append_assoc]
    by_cases hfull : vectorSize ≤ ((picked ++ row).take vectorSize).length
    · have hle : vectorSize ≤ (picked ++ row).length := by
        rw [length_take] at hfull
        omega
      simp only [if_pos hfull, take_append_of_le_length hle]
    · have hall : (picked ++ row).take vectorSize = picked ++ row := by
        apply take_of_length_le
        rw [length_take] at hfull
        omega
      simp only [if_neg hfull]
      rw [hall] at hfull ⊢
      exact ih (not_le.mp hfull)

end Bits

/-- What `init` guarantees of a vector. -/
structure Valid (v : VectorN n) : Prop where
  sorted : v.vectorBits.Pairwise (· < ·)
  bounded : ∀ b ∈ v.vectorBits, b < bitSize n
  length : v.vectorBits.length ≤ 16
  within : ∀ b ∈ v.vectorBits, v.minBit ≤ b ∧ b ≤ v.maxBit
  order : v.minBit ≤ v.maxBit
  last : v.maxBit < bitSize n
  mask : ∀ i, v.mask.bit i = decide (LastInByte v.vectorBits i)

theorem bitSize_pos (n : Nat) : 80 ≤ bitSize n := by
  rw [bitSize_eq]
  omega

theorem valid_default : ({} : VectorN n).Valid where
  sorted := nil
  bounded b hb := absurd hb not_mem_nil
  length := zero_le _
  within b hb := absurd hb not_mem_nil
  order := le_refl 0
  last := lt_of_lt_of_le (show 0 < 80 by decide) (bitSize_pos n)
  mask i := by
    rw [bit_empty]
    exact (decide_eq_false fun h => absurd h.1 not_mem_nil).symm

/-- **`init` finds its bits.** -/
theorem init_ok (v : VectorN n) (fields : List (Field n)) (hpos : 0 < vectorSize)
    (hle : vectorSize ≤ 16) :
    ∃ v', v.init fields vectorSize = .ok v' ∧ v'.Valid ∧
      v'.vectorBits = ((sortedBits fields).take vectorSize).insertionSort (· ≤ ·) := by
  obtain ⟨table, htable, hflatten⟩ := generateSortTable_ok fields
  have hperm := sortedBits_perm fields
  have hsize := bitSize_pos n
  have hpicked : pickRows vectorSize table [] = (sortedBits fields).take vectorSize := by
    rw [pickRows_eq table hpos, nil_append, hflatten]
  have hcount : ((sortedBits fields).take vectorSize).length = vectorSize := by
    rw [length_take, hperm.length_eq, length_range]
    omega
  generalize hbits : ((sortedBits fields).take vectorSize).insertionSort (· ≤ ·) = vectorBits
  have hsort : vectorBits.Perm ((sortedBits fields).take vectorSize) :=
    hbits ▸ perm_insertionSort _ _
  have hlength : vectorBits.length = vectorSize := hsort.length_eq.trans hcount
  have hbounded : ∀ b ∈ vectorBits, b < bitSize n := fun b hb =>
    mem_range.mp (hperm.mem_iff.mp (mem_of_mem_take (hsort.mem_iff.mp hb)))
  have hnodup : vectorBits.Nodup :=
    hsort.nodup_iff.mpr ((hperm.nodup_iff.mpr nodup_range).sublist (take_sublist _ _))
  have hle' : vectorBits.Pairwise (· ≤ ·) := hbits ▸ pairwise_insertionSort _ _
  have hsorted : vectorBits.Pairwise (· < ·) :=
    hle'.imp₂ (fun _ _ hle hne => lt_of_le_of_ne hle hne) hnodup
  obtain ⟨mask, hmask, hbit⟩ := setBits_ok hbounded hsorted
  have hfirst : 0 < vectorBits.length := by omega
  have hlast : vectorSize - 1 < vectorBits.length := by omega
  refine ⟨⟨vectorBits[0], vectorBits[vectorSize - 1], v.count, mask, vectorBits⟩, ?_,
    ⟨hsorted, hbounded, hlength.trans_le hle, ?_, ?_, ?_, hbit⟩, rfl⟩
  · rw [init, htable, ok_bind, hpicked, hbits]
    dsimp only
    rw [index_ok (getElem?_eq_getElem hfirst), ok_bind, checkedSub_ok hpos, ok_bind,
      index_ok (getElem?_eq_getElem hlast), ok_bind, hmask, ok_bind]
  · intro b (hb : b ∈ vectorBits)
    obtain ⟨k, hk, rfl⟩ := getElem_of_mem hb
    exact ⟨hsorted.sortedLT.sortedLE.getElem_le_getElem_of_le (zero_le k),
      hsorted.sortedLT.sortedLE.getElem_le_getElem_of_le (by omega)⟩
  · exact hsorted.sortedLT.sortedLE.getElem_le_getElem_of_le (zero_le _)
  · exact hbounded _ (getElem_mem _)

section Lookup

variable {v : VectorN n}

def maskBits (v : VectorN n) : List Nat :=
  v.vectorBits.filter fun b => decide (LastInByte v.vectorBits b)

theorem Valid.maskPlaces_eq (hv : v.Valid) :
    maskPlaces v.mask (range' v.minBit (v.maxBit + 1 - v.minBit)) = v.maskBits := by
  have hplaces : (maskPlaces v.mask (range' v.minBit (v.maxBit + 1 - v.minBit))).Pairwise
      (· < ·) := filter _ pairwise_lt_range'
  have hbits : v.maskBits.Pairwise (· < ·) := filter _ hv.sorted
  refine List.Perm.eq_of_pairwise (fun a b _ _ hab hba => absurd hba hab.not_gt) hplaces hbits ?_
  refine (perm_ext_iff_of_nodup (hplaces.imp ne_of_lt) (hbits.imp ne_of_lt)).mpr fun i => ?_
  rw [maskPlaces, maskBits, mem_filter, mem_filter, hv.mask, mem_range'_1]
  constructor
  · rintro ⟨-, hi⟩
    exact ⟨(of_decide_eq_true hi).1, hi⟩
  · rintro ⟨hi, hlast⟩
    have hwithin := hv.within i hi
    exact ⟨by omega, hlast⟩

theorem length_maskBits_le (v : VectorN n) : v.maskBits.length ≤ v.vectorBits.length :=
  length_filter_le _ _

theorem Valid.getTableIndex (hv : v.Valid) (packet : MatchedFieldN n) :
    packet.getTableIndex v.mask v.minBit v.maxBit =
      .ok (packFrom 16 0 (v.maskBits.map packet.bit)) := by
  have hplaces := hv.maskPlaces_eq
  have hcount := v.length_maskBits_le
  have hlength := hv.length
  rw [getTableIndex_ok packet v.mask hv.order hv.last, hplaces]
  rw [hplaces]
  omega

/-- Whether a match field is filed under the index of a packet: a bit of the packet is
compared when the mask of the match field has the bit with the same number among the bits
of the vector, which need not be the same bit. -/
def found (v : VectorN n) (packet : MatchedFieldN n) (field : Field n) : Bool :=
  (v.maskBits.zip v.vectorBits).all fun (b, c) =>
    !field.mask.bit c || packet.bit b == field.field.bit b

theorem found_iff (packet : MatchedFieldN n) (field : Field n) :
    v.found packet field = true ↔ ∀ p ∈ v.maskBits.zip v.vectorBits,
      field.mask.bit p.2 = true → packet.bit p.1 = field.field.bit p.1 := by
  rw [found, all_eq_true]
  refine forall₂_congr fun p _ => ?_
  rw [Bool.or_eq_true, Bool.not_eq_true', beq_iff_eq, ← Bool.not_eq_true, ← imp_iff_not_or]

theorem getLsbD_packFrom_map {bits : List Nat} {packet : MatchedFieldN n} {j : Nat} (hj : j < 16) :
    (packFrom 16 0 (bits.map packet.bit)).getLsbD j =
      (bits[j]?.map packet.bit).getD false := by
  rw [getLsbD_packFrom _ hj, getD_eq_getElem?_getD, getElem?_map,
    Nat.sub_zero, decide_eq_true (Nat.zero_le j), Bool.true_and]

/-- **The indices of a match field** are those of the packets under which it is found. -/
theorem Valid.allTableIndex (hv : v.Valid) (field : Field n) :
    ∃ indices, v.allTableIndex field = .ok indices ∧ indices.Nodup ∧
      ∀ packet : MatchedFieldN n,
        packFrom 16 0 (v.maskBits.map packet.bit) ∈ indices ↔
          v.found packet field = true := by
  obtain ⟨indices, hok, hnodup, hmem⟩ :=
    getAllTableIndex_ok (hv.getTableIndex field.field) hv.bounded hv.length
  refine ⟨indices, hok, hnodup, fun packet => ?_⟩
  rw [hmem, found_iff]
  have hcount := v.length_maskBits_le
  have hlength := hv.length
  constructor
  · intro h p hp hmask
    obtain ⟨j, hj⟩ := mem_iff_getElem?.mp hp
    obtain ⟨hb, hc⟩ := getElem?_zip_eq_some.mp hj
    have hj := (List.getElem?_eq_some_iff.mp hb).1
    have hsame := h j (by omega) fun b' hb' => by
      rw [hc] at hb'
      exact Option.some.inj hb' ▸ hmask
    rwa [getLsbD_packFrom_map (by omega), getLsbD_packFrom_map (by omega), hb] at hsame
  · intro h j hj hmask
    rw [getLsbD_packFrom_map hj, getLsbD_packFrom_map hj]
    cases hb : v.maskBits[j]? with
    | none => rfl
    | some b =>
      have hlt : j < v.vectorBits.length := by
        have := (List.getElem?_eq_some_iff.mp hb).1
        omega
      have hc := getElem?_eq_getElem hlt
      exact h (b, _) (mem_of_getElem? (getElem?_zip_eq_some.mpr ⟨hb, hc⟩)) (hmask _ hc)

theorem fileItem_ok (item : TableItem n) {indices : List (BitVec 16)} (hnodup : indices.Nodup)
    (htable : table.length = tableSize) :
    ∃ table', fileItem item indices table = .ok table' ∧ table'.length = tableSize ∧
      ∀ x : BitVec 16, table'.getD x.toNat [] =
        table.getD x.toNat [] ++ if x ∈ indices then [item] else [] := by
  induction indices generalizing table with
  | nil => exact ⟨table, rfl, htable, fun x => by simp⟩
  | cons i indices ih =>
    obtain ⟨hnot, hnodup⟩ := nodup_cons.mp hnodup
    have hi : i.toNat < table.length := htable ▸ i.isLt
    obtain ⟨t, hpush, hlength, hrow⟩ := pushAt_ok hi item
    obtain ⟨t', hfile, hlength', hrow'⟩ := ih hnodup (hlength.trans htable)
    refine ⟨t', by rw [fileItem, hpush, ok_bind, hfile], hlength', fun x => ?_⟩
    rw [hrow', hrow, append_assoc]
    congr 1
    by_cases hx : i = x
    · subst hx
      rw [if_pos rfl, if_neg hnot, if_pos mem_cons_self, append_nil]
    · have hne : ¬ i.toNat = x.toNat := fun heq => hx (BitVec.eq_of_toNat_eq heq)
      have hmem : x ∈ i :: indices ↔ x ∈ indices := by rw [mem_cons, or_iff_right (Ne.symm hx)]
      simp only [if_neg hne, hmem, nil_append]

theorem Valid.fileItems_ok (hv : v.Valid) (items : List (TableItem n))
    (htable : table.length = tableSize) :
    ∃ table', v.fileItems items table = .ok table' ∧ table'.length = tableSize ∧
      ∀ packet : MatchedFieldN n,
        let i := (packFrom 16 0 (v.maskBits.map packet.bit)).toNat
        table'.getD i [] =
          table.getD i [] ++ items.filter fun item => v.found packet item.field := by
  induction items generalizing table with
  | nil => exact ⟨table, rfl, htable, fun packet => (append_nil _).symm⟩
  | cons item items ih =>
    obtain ⟨indices, hindices, hnodup, hmem⟩ := hv.allTableIndex item.field
    obtain ⟨t, hfile, hlength, hrow⟩ := fileItem_ok item hnodup htable
    obtain ⟨t', hrest, hlength', hrow'⟩ := ih hlength
    refine ⟨t', by rw [fileItems, hindices, ok_bind, hfile, ok_bind, hrest], hlength',
      fun packet => ?_⟩
    dsimp only
    rw [hrow', hrow, append_assoc]
    congr 1
    simp only [hmem]
    cases hfound : v.found packet item.field with
    | false => rw [filter_cons_of_neg (by simp [hfound]), if_neg (by simp), nil_append]
    | true => rw [filter_cons_of_pos (by simp [hfound]), if_pos rfl, singleton_append]

/-- **What a lookup looks at** are the match fields found under the packet's index. -/
theorem Valid.getPolicyFromTable (hv : v.Valid) (items : List (TableItem n)) :
    ∃ table, v.generateTable items = .ok table ∧
      ∀ (P : Type) (merge : P → TableItem n → P) (packet : MatchedFieldN n) (policy : P),
        v.getPolicyFromTable merge table packet policy =
          .ok (((items.filter fun item => v.found packet item.field).filter
            fun item => Matches packet item.field).foldl merge policy) := by
  have hempty : (replicate tableSize ([] : List (TableItem n))).length = tableSize :=
    length_replicate
  obtain ⟨table, hok, hlength, hrow⟩ := hv.fileItems_ok items hempty
  refine ⟨table, hok, fun P merge packet policy => ?_⟩
  have hget := hrow packet
  generalize hi : packFrom 16 0 (v.maskBits.map packet.bit) = i at hget
  have hlt : i.toNat < table.length := hlength ▸ i.isLt
  dsimp only at hget
  rw [getD_eq_getElem _ _ hlt, getD_replicate _ (hlength ▸ hlt), nil_append] at hget
  rw [VectorN.getPolicyFromTable, hv.getTableIndex, ok_bind, hi,
    index_ok (getElem?_eq_getElem hlt), ok_bind, hget]
  conv_rhs => rw [foldl_filter]
  simp only [decide_eq_true_eq]

end Lookup

end ZeroTrace.Policy.VectorN
