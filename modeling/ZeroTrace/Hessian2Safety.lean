import ZeroTrace.Hessian2Reads

/-!
# When decoding panics

A run notes every place at which it reads a value or a chunk of binary data.
`SafePlace` and `SafeChunk` say of the bytes at such a place that nothing goes
wrong there:

* a date in minutes, taken as seconds, fits 32 bits;
* a list of unknown length ends far enough behind the place at which it was
  searched, because the index of the list is taken off a count that does not
  start at the beginning of the payload;
* the definition of a class and a long object are not the last byte, and the
  class does not have a negative number of fields;
* the second byte of a short binary, which the code adds to the distance of a
  shift, is below 56.

`decodeField_exact` shows that these are all the ways to panic: a run panics if
and only if it comes to a place that is not safe.  The index never goes beyond
three times the length of the payload, so no sum of lengths overflows.
-/

namespace ZeroTrace.Hessian2

open RustExec Slices TracedExec List Traced

variable {payload : Bytes} {i start : Nat} {len : Nat} {count : Nat} {next : Nat}

/-! ## Safe places -/

/-- A date in minutes fits 32 bits as seconds. -/
def SafeDate (payload : Bytes) (i : Nat) : Prop :=
  byteAt payload i = bcDateMinute → i + 4 < payload.length →
    (doubleAt payload (i + 1)).toNat * 60 < 2 ^ 32

/-- The end found for a list of unknown length is not before its index. -/
def SafeList (payload : Bytes) (i : Nat) : Prop :=
  (byteAt payload i = bcListVariableUntyped → i + 1 < payload.length →
      i ≤ untilEnd payload (i + 1)) ∧
    (byteAt payload i = bcListVariable → ∀ type, decodeString payload (i + 1) = .ok type →
      i + 1 + type.2 < payload.length → i ≤ untilEnd payload (i + 1 + type.2))

/-- The definition of a class has bytes behind its tag and no negative count. -/
def SafeClass (payload : Bytes) (i : Nat) : Prop :=
  i + 1 < payload.length ∧ ∀ name count, decodeString payload (i + 1) = .ok name →
    decodeI32 payload (i + 1 + name.2) = .ok count → 0 ≤ count.1.toInt

/-- The object is not cut off behind its tag. -/
def SafeObject (payload : Bytes) (i : Nat) : Prop :=
  (byteAt payload i = bcObjectDef → SafeClass payload i) ∧
    (byteAt payload i = bcObject → i + 1 < payload.length)

/-- Reading a value here does not panic before another value is read. -/
def SafePlace (payload : Bytes) (i : Nat) : Prop :=
  match kindOf (byteAt payload i) with
  | .date => SafeDate payload i
  | .list => SafeList payload i
  | .object => SafeObject payload i
  | _ => True

/-- The shift of a short binary is in range. -/
def SafeChunk (payload : Bytes) (i : Nat) : Prop :=
  within (byteAt payload i) 0x34 0x37 → i + 1 < payload.length →
    (byteAt payload (i + 1)).toNat < 56

def Event.Safe (payload : Bytes) : Event → Prop
  | .enter i _ => SafePlace payload i
  | .chunk i => SafeChunk payload i
  | .element _ _ _ => True
  | .turn _ _ => True

/-! ## Headers -/

theorem doubleAt_rangeOf :
    doubleAt (rangeOf payload (i + 1) (i + 5)) 0 = doubleAt payload (i + 1) := by
  have hbyte : ∀ k, k < 4 →
      byteAt (rangeOf payload (i + 1) (i + 5)) k = byteAt payload (i + 1 + k) := by
    intro k hk
    unfold rangeOf byteAt
    rw [getD_eq_getElem?_getD, getD_eq_getElem?_getD, getElem?_drop,
      getElem?_take_of_lt (by omega)]
  unfold doubleAt
  rw [hbyte 0 (by omega), hbyte (0 + 1) (by omega), hbyte (0 + 2) (by omega),
    hbyte (0 + 3) (by omega)]

theorem decodeDatetime_settles (h : i < payload.length) :
    Settles (SafeDate payload i) (decodeDatetime payload i)
      (fun r => i + r.2 ≤ payload.length) := by
  unfold decodeDatetime
  rw [index_bind h]
  split
  next hc =>
    have hsafe : SafeDate payload i := by
      intro htag
      rw [hc.1] at htag
      exact absurd htag (by decide)
    rw [slice_ok (by omega) (by omega), ok_bind]
    exact .ok hsafe (show i + 9 ≤ _ by omega)
  next =>
    split
    next hc =>
      have hiff : SafeDate payload i ↔ (doubleAt payload (i + 1)).toNat * 60 < 2 ^ 32 :=
        ⟨fun hs => hs hc.1 hc.2, fun hs _ _ => hs⟩
      rw [slice_ok (by omega) (by omega), ok_bind, doubleAt_rangeOf]
      by_cases hfit : (doubleAt payload (i + 1)).toNat * 60 < 2 ^ 32
      · rw [checkedMul_ok hfit, ok_bind]
        exact .ok (hiff.mpr hfit) (show i + 5 ≤ _ by omega)
      · rw [checkedMul, if_neg hfit, error_bind]
        exact .error (fun hs => hfit (hiff.mp hs)) (by decide)
    next hc =>
      have hsafe : SafeDate payload i := fun htag hlt => absurd ⟨htag, hlt⟩ hc
      exact .ok hsafe (show i + 0 ≤ _ by omega)

theorem add_ok (hL : payload.length < 2 ^ 63) {a b : Nat} (h : a + b ≤ payload.length) :
    checkedAdd 64 a b = .ok (a + b) :=
  checkedAdd_ok (by omega)

def ListHeader.Inside (payload : Bytes) (i : Nat) : ListHeader → Prop
  | .done len => i + len ≤ payload.length
  | .elements start _ => i < start ∧ start ≤ payload.length

theorem variableList_settles (hs : start < payload.length) :
    Settles (i ≤ untilEnd payload start) (variableList payload i start)
      (ListHeader.Inside payload i) := by
  have hle := untilEnd_le hs
  unfold variableList
  rw [sliceFrom_ok (by omega), ok_bind, checkedSub_ok (by omega), ok_bind]
  by_cases hi : i ≤ untilEnd payload start
  · rw [checkedSub_ok hi, ok_bind]
    exact .ok hi (show i + (untilEnd payload start - i) ≤ _ by omega)
  · rw [checkedSub, if_neg hi, error_bind]
    exact .error hi (by decide)

theorem SafeList.of_ne (h : byteAt payload i ≠ bcListVariableUntyped)
    (h' : byteAt payload i ≠ bcListVariable) : SafeList payload i :=
  ⟨fun htag => absurd htag h, fun htag => absurd htag h'⟩

theorem within_ne {tag other : BitVec 8} {low high : Nat} (h : within tag low high = true)
    (hother : within other low high = false) : tag ≠ other := by
  intro heq
  rw [heq, hother] at h
  cases h

section

variable (hL : payload.length < 2 ^ 63)

include hL

theorem listHeader_settles (h : i < payload.length) :
    Settles (SafeList payload i) (listHeader payload i) (ListHeader.Inside payload i) := by
  unfold listHeader
  rw [index_bind h]
  split
  next hlast =>
    refine .ok ⟨fun _ hlt => absurd hlt (by omega), fun _ type htype => ?_⟩
      (show i + 0 ≤ _ by omega)
    intro hlt
    omega
  rename_i hlast
  have hnext : i + 1 < payload.length := Nat.lt_of_not_le hlast
  obtain ⟨type, htype, hle, -⟩ := decodeString_reads hL hnext
  obtain ⟨number, hnumber, hnumberLe⟩ := decodeI32_reads hnext
  split
  next htag =>
    have hsafe : SafeList payload i := .of_ne (by rw [htag]; decide) (by rw [htag]; decide)
    rw [htype, ok_bind, add_ok hL hle, ok_bind]
    split
    next => exact .ok hsafe (show i + 0 ≤ _ by omega)
    next hin =>
      obtain ⟨count, hcount, hcountLe⟩ := decodeI32_reads (Nat.lt_of_not_le hin)
      rw [hcount, ok_bind, add_ok hL hcountLe, ok_bind]
      exact .ok hsafe ⟨by omega, hcountLe⟩
  split
  next htag =>
    have hiff : (i + 1 + type.2 < payload.length → i ≤ untilEnd payload (i + 1 + type.2)) ↔
        SafeList payload i := by
      constructor
      · intro hend
        refine ⟨fun hother => ?_, fun _ type' htype' => ?_⟩
        · rw [htag] at hother
          exact absurd hother (by decide)
        · rw [htype] at htype'
          cases htype'
          exact hend
      · intro hsafe
        exact hsafe.2 htag type htype
    rw [htype, ok_bind, add_ok hL hle, ok_bind]
    split
    next hend =>
      rw [checkedSub_ok (by omega), ok_bind]
      exact .ok (hiff.mp fun hlt => absurd hlt (by omega))
        (show i + (i + 1 + type.2 - i) ≤ _ by omega)
    next hin =>
      have hlt := Nat.lt_of_not_le hin
      exact (variableList_settles hlt).congr ((forall_prop_of_true hlt).symm.trans hiff)
  next =>
    split
    next htag =>
      rw [htype, ok_bind, add_ok hL hle, ok_bind]
      exact .ok (.of_ne (within_ne htag (by decide)) (within_ne htag (by decide)))
        ⟨by omega, hle⟩
    split
    next htag =>
      rw [hnumber, ok_bind, add_ok hL hnumberLe, ok_bind]
      exact .ok (.of_ne (by rw [htag]; decide) (by rw [htag]; decide)) ⟨by omega, hnumberLe⟩
    split
    next htag =>
      refine (variableList_settles hnext).congr ⟨fun hend => ?_, fun hs => hs.1 htag hnext⟩
      refine ⟨fun _ _ => hend, fun hother => ?_⟩
      rw [htag] at hother
      exact absurd hother (by decide)
    next hfixed hvariable _ _ huntyped =>
      have hsafe : SafeList payload i := .of_ne huntyped hvariable
      split
      next => exact .ok hsafe ⟨by omega, by omega⟩
      next => exact .ok hsafe ⟨by omega, by omega⟩

theorem mapHeader_ok (h : i < payload.length) :
    ∃ r, mapHeader payload i = .ok r ∧ ∀ start, r = some start → i < start ∧
      start ≤ payload.length := by
  unfold mapHeader
  rw [index_bind h]
  split
  next => exact ⟨_, rfl, nofun⟩
  rename_i hlast
  have hnext : i + 1 < payload.length := Nat.lt_of_not_le hlast
  have hplain : ∀ start, some (i + 1) = some start → i < start ∧ start ≤ payload.length := by
    rintro start ⟨⟩
    omega
  split
  next =>
    obtain ⟨type, htype, -, -⟩ := decodeString_reads hL hnext
    rw [htype, ok_bind]
    split
    next =>
      obtain ⟨ref, href, hrefLe⟩ := decodeI32_reads hnext
      rw [href, ok_bind, add_ok hL hrefLe, ok_bind]
      refine ⟨_, rfl, ?_⟩
      rintro start ⟨⟩
      omega
    next => exact ⟨_, rfl, hplain⟩
  next => exact ⟨_, rfl, hplain⟩

theorem classHeader_settles :
    Settles (SafeClass payload i) (classHeader payload i)
      (fun r => ∀ names start, r = some (names, start) → i < start ∧ start ≤ payload.length) := by
  unfold classHeader
  by_cases hnext : i + 1 < payload.length
  · obtain ⟨name, hname, hle, -⟩ := decodeString_reads hL hnext
    rw [hname, ok_bind, add_ok hL hle, ok_bind]
    split
    next hend =>
      refine .ok ⟨hnext, fun name' count hname' hcount => ?_⟩ nofun
      rw [hname] at hname'
      cases hname'
      unfold decodeI32 index at hcount
      rw [getElem?_eq_none hend, error_bind] at hcount
      cases hcount
    rename_i hin
    obtain ⟨count, hcount, hcountLe⟩ := decodeI32_reads (Nat.lt_of_not_le hin)
    have hiff : SafeClass payload i ↔ 0 ≤ count.1.toInt := by
      constructor
      · intro hsafe
        exact hsafe.2 name count hname hcount
      refine fun hpos => ⟨hnext, fun name' count' hname' hcount' => ?_⟩
      rw [hname] at hname'
      cases hname'
      rw [hcount] at hcount'
      cases hcount'
      exact hpos
    rw [hcount, ok_bind, add_ok hL hcountLe, ok_bind]
    unfold withCapacity
    split
    next hneg =>
      exact .error (fun hsafe => absurd (hiff.mp hsafe) (by omega)) (by decide)
    rename_i hpos
    obtain ⟨names, hnames, hfrom, hto⟩ :=
      namesLoop_reads hL (payload.length + 1) count.1.toNat [] hcountLe (by omega)
    rw [ok_bind, hnames, ok_bind]
    refine .ok (hiff.mpr (by omega)) ?_
    rintro _ _ ⟨⟩
    exact ⟨by omega, hto⟩
  · have hcrash : decodeString payload (i + 1) = .error .outOfBounds := by
      unfold decodeString index
      rw [getElem?_eq_none (Nat.not_lt.mp hnext), error_bind]
    rw [hcrash, error_bind]
    exact .error (fun hsafe => hnext hsafe.1) (by decide)

theorem objectHeader_settles (h : i < payload.length) (tag : BitVec 8) :
    Settles (tag = bcObject → i + 1 < payload.length) (objectHeader payload i tag)
      (fun r => i < r.1 ∧ r.1 ≤ payload.length) := by
  unfold objectHeader
  split
  next htag =>
    by_cases hnext : i + 1 < payload.length
    · obtain ⟨number, hnumber, hle⟩ := decodeI32_reads hnext
      rw [hnumber, ok_bind, add_ok hL hle, ok_bind]
      exact .ok (fun _ => hnext) ⟨by omega, hle⟩
    · have hcrash : decodeI32 payload (i + 1) = .error .outOfBounds := by
        unfold decodeI32 index
        rw [getElem?_eq_none (Nat.not_lt.mp hnext), error_bind]
      rw [hcrash, error_bind]
      exact .error (fun hsafe => hnext (hsafe htag)) (by decide)
  next htag => exact .ok (fun hobject => absurd hobject htag) ⟨by omega, by omega⟩

end

/-! ## Chunks of binary data -/

theorem shifted_le {t s : Nat} (ht : t ≤ 3) (hs : s < 64) : t * 2 ^ s % 2 ^ 64 ≤ 3 * 2 ^ 62 := by
  rcases Nat.lt_or_ge s 63 with hlt | hge
  · calc t * 2 ^ s % 2 ^ 64 ≤ t * 2 ^ s := Nat.mod_le _ _
      _ ≤ 3 * 2 ^ 62 := Nat.mul_le_mul ht (Nat.pow_le_pow_right (by decide) (by omega))
  · obtain rfl : s = 63 := by omega
    omega

theorem binaryHeader_settles (h : start < payload.length) :
    Settles (SafeChunk payload start) (binaryHeader payload start (byteAt payload start))
      (fun r => ∀ next len, r = some (next, len) →
        start < next ∧ next ≤ payload.length ∧ len ≤ 3 * 2 ^ 62) := by
  unfold binaryHeader
  split
  next hc =>
    have hrange : 0x20 ≤ (byteAt payload start).toNat ∧ (byteAt payload start).toNat ≤ 0x2f := by
      simpa [within] using hc
    refine .ok (fun hshort => ?_) ?_
    · have hother : 0x34 ≤ (byteAt payload start).toNat ∧ (byteAt payload start).toNat ≤ 0x37 := by
        simpa [within] using hshort
      omega
    · rintro _ _ ⟨⟩
      exact ⟨by omega, by omega, by omega⟩
  split
  next hc =>
    have hrange : 0x34 ≤ (byteAt payload start).toNat ∧ (byteAt payload start).toNat ≤ 0x37 := by
      simpa [within] using hc.1
    have hiff : SafeChunk payload start ↔ 8 + (byteAt payload (start + 1)).toNat < 64 := by
      constructor
      · intro hs
        have hlt := hs hc.1 hc.2
        omega
      · intro hlt _ _
        omega
    have hthree : (byteAt payload start - 0x34#8).toNat ≤ 3 := by
      rw [BitVec.toNat_sub]
      simp only [BitVec.toNat_ofNat]
      omega
    rw [index_bind hc.2]
    by_cases hfit : 8 + (byteAt payload (start + 1)).toNat < 64
    · rw [checkedShl_ok hfit, ok_bind]
      refine .ok (hiff.mpr hfit) ?_
      rintro _ _ ⟨⟩
      exact ⟨by omega, by omega, shifted_le hthree hfit⟩
    · rw [checkedShl, if_neg hfit, error_bind]
      exact .error (fun hs => hfit (hiff.mp hs)) (by decide)
  next hshort =>
    have hsafe : SafeChunk payload start := fun hc hlt => absurd ⟨hc, hlt⟩ hshort
    split
    next hc =>
      obtain ⟨len, hlen, hlt⟩ := chunkLength_ok hc.2
      rw [hlen, ok_bind]
      refine .ok hsafe ?_
      rintro _ _ ⟨⟩
      exact ⟨by omega, by omega, by omega⟩
    next => exact .ok hsafe fun _ _ h => by cases h

theorem binaryLoop_exact (hL : payload.length < 2 ^ 62) (fuel : Nat) (result : Bytes)
    (hi : i ≤ start) (hs : start < payload.length) :
    Exact (Event.Safe payload)
      (binaryLoop payload i fuel start (byteAt payload start) result)
      (fun r => i + r.2 ≤ payload.length) := by
  induction fuel generalizing start result with
  | zero => exact .outOfFuel
  | succ fuel ih =>
    by_cases hsafe : SafeChunk payload start
    · refine .tell_bind hsafe ?_
      obtain ⟨header, hheader, hinside⟩ := (binaryHeader_settles hs).exists_ok hsafe
      refine .lift_bind hheader ?_
      cases header with
      | none => exact .pure (show i + 0 ≤ _ by omega)
      | some header =>
        obtain ⟨next, len⟩ := header
        obtain ⟨hlt, hle, hlen⟩ := hinside next len rfl
        have hstopped : Exact (Event.Safe payload)
            (lift (checkedSub next i) >>= fun read => .pure (result, read))
            (fun r => i + r.2 ≤ payload.length) := by
          refine .lift_bind (checkedSub_ok (by omega)) ?_
          exact .pure (show i + (next - i) ≤ _ by omega)
        dsimp only
        split
        next => exact hstopped
        rename_i hin
        refine .lift_bind (checkedAdd_ok (by omega)) ?_
        split
        next => exact hstopped
        rename_i hfit
        refine .lift_bind (slice_ok (by omega) (by omega)) ?_
        split
        next =>
          refine .lift_bind (checkedSub_ok (by omega)) ?_
          exact .pure (show i + (next + len - i) ≤ _ by omega)
        next hmore =>
          have hstop : next + len < payload.length := by
            by_contra hge
            exact hmore (.inr (by omega))
          refine .lift_bind (index_byteAt hstop) ?_
          exact ih _ (by omega) hstop
    · exact .event_not_safe hsafe (crashes_bind ((binaryHeader_settles hs).crashes hsafe))

theorem decodeBinary_exact (hL : payload.length < 2 ^ 62) (h : i < payload.length) :
    Exact (Event.Safe payload) (decodeBinary payload i) (fun r => i + r.2 ≤ payload.length) := by
  refine .lift_bind (index_byteAt h) ?_
  exact binaryLoop_exact hL _ _ (le_refl i) h

/-! ## Loops -/

/-- How far a value read at a place can reach: an unknown tag gives up a whole
payload, and each map it lies in adds one byte. -/
def Stays (payload : Bytes) (start len : Nat) : Prop :=
  len = 0 ∨ 2 * start + len ≤ 3 * payload.length

/-- Where the index of a loop of the value at `i` can be. -/
def Reach (payload : Bytes) (i next : Nat) : Prop :=
  i < next ∧ next + i + 1 ≤ 3 * payload.length

theorem Stays.of_le (h : start + len ≤ payload.length) : Stays payload start len :=
  .inr (by omega)

theorem Reach.of_le (hlt : i < next) (hle : next ≤ payload.length) : Reach payload i next :=
  ⟨hlt, by omega⟩

theorem Reach.advance (h : Reach payload i start) (hs : Stays payload start len) :
    Reach payload i (start + len) := by
  obtain ⟨hlt, hle⟩ := h
  rcases hs with hzero | hfar <;> exact ⟨by omega, by omega⟩

theorem Reach.stays (h : Reach payload i next) : Stays payload i (next - i) := by
  obtain ⟨hlt, hle⟩ := h
  exact .inr (by omega)

theorem Reach.add_ok (hL : payload.length < 2 ^ 62) (h : Reach payload i start)
    (hs : Stays payload start len) : checkedAdd 64 start len = .ok (start + len) := by
  have hnext := (h.advance hs).2
  exact checkedAdd_ok (by omega)

section Loops

variable {read : Reader} {classes : Classes}

/-- The reader that a loop is given panics exactly at places that are not safe. -/
def ReaderExact (payload : Bytes) (read : Reader) : Prop :=
  ∀ start classes, Exact (Event.Safe payload) (read start classes)
    (fun got => Stays payload start got.1.2)

variable (hL : payload.length < 2 ^ 62) (hread : ReaderExact payload read)

include hL hread

theorem listLoop_exact (fuel count : Nat) (hr : Reach payload i start) :
    Exact (Event.Safe payload) (listLoop payload read fuel count start classes)
      (fun after => Reach payload i after.1) := by
  induction fuel generalizing count start classes with
  | zero =>
    by_cases hc : count = 0
    · rw [listLoop, if_pos hc]
      exact .pure hr
    · rw [listLoop, if_neg hc]
      exact .outOfFuel
  | succ fuel ih =>
    by_cases hc : count = 0
    · rw [listLoop, if_pos hc]
      exact .pure hr
    rw [listLoop, if_neg hc]
    split
    next => exact .tell_bind trivial (.pure hr)
    next =>
      refine .tell_bind trivial ?_
      refine (hread start classes).bind fun got hgot => ?_
      refine .lift_bind (hr.add_ok hL hgot) ?_
      exact .tell_bind trivial (ih _ (hr.advance hgot))

variable (fuel : Nat)

theorem mapLoop_exact (entries : Entries) (hr : Reach payload i start) :
    Exact (Event.Safe payload) (mapLoop payload read fuel start entries classes)
      (fun after => Reach payload i after.2.1) := by
  induction fuel generalizing start entries classes with
  | zero => exact .outOfFuel
  | succ fuel ih =>
    refine .tell_bind trivial ?_
    refine (hread start classes).bind fun key hkey => ?_
    refine .lift_bind (hr.add_ok hL hkey) ?_
    have hmiddle := hr.advance hkey
    refine .tell_bind trivial ?_
    refine (hread _ key.2).bind fun value hvalue => ?_
    refine .lift_bind (hmiddle.add_ok hL hvalue) ?_
    have hnext := hmiddle.advance hvalue
    split
    next => exact .tell_bind trivial (.pure hnext)
    rename_i hin
    refine .lift_bind (index_byteAt (Nat.lt_of_not_le hin)) ?_
    split
    next => exact .tell_bind trivial (.pure hnext)
    next => exact .tell_bind trivial (ih _ hnext)

theorem fieldsLoop_exact (names : List Bytes) (entries : Entries)
    (hr : Reach payload i start) :
    Exact (Event.Safe payload) (fieldsLoop read fuel names start entries classes)
      (fun after => Reach payload i after.2.1) := by
  induction names generalizing fuel start entries classes with
  | nil =>
    rw [fieldsLoop]
    exact .pure hr
  | cons name names ih =>
    cases fuel with
    | zero => exact .outOfFuel
    | succ fuel =>
      refine .tell_bind trivial ?_
      refine (hread start classes).bind fun got hgot => ?_
      refine .lift_bind (hr.add_ok hL hgot) ?_
      exact .tell_bind trivial (ih fuel _ (hr.advance hgot))

theorem decodeList_exact (h : i < payload.length) (hsafe : SafeList payload i) :
    Exact (Event.Safe payload) (decodeList payload read fuel i classes)
      (fun got => Stays payload i got.1) := by
  obtain ⟨header, hheader, hinside⟩ := (listHeader_settles (by omega) h).exists_ok hsafe
  refine .lift_bind hheader ?_
  cases header with
  | done len => exact .pure (.of_le hinside)
  | elements start count =>
    refine (listLoop_exact hL hread fuel count (.of_le hinside.1 hinside.2)).bind ?_
    intro after hafter
    refine .lift_bind (checkedSub_ok hafter.1.le) ?_
    exact .pure hafter.stays

theorem decodeMap_exact (h : i < payload.length) :
    Exact (Event.Safe payload) (decodeMap payload read fuel i classes)
      (fun got => Stays payload i got.1.2) := by
  obtain ⟨header, hheader, hinside⟩ := mapHeader_ok (by omega) h
  refine .lift_bind hheader ?_
  cases header with
  | none => exact .pure (.inl rfl)
  | some start =>
    obtain ⟨hlt, hle⟩ := hinside start rfl
    refine (mapLoop_exact hL hread fuel [] (.of_le hlt hle)).bind ?_
    rintro ⟨entries, next, after⟩ ⟨hfrom, hto⟩
    refine .lift_bind (checkedSub_ok hfrom.le) ?_
    dsimp only at hfrom hto ⊢
    refine .lift_bind (checkedAdd_ok (by omega)) ?_
    exact .pure (.inr (show 2 * i + (next - i + 1) ≤ _ by omega))

theorem decodeClass_exact (hsafe : SafeClass payload i) :
    Exact (Event.Safe payload) (decodeClass payload read i classes)
      (fun got => Stays payload i got.1.2) := by
  obtain ⟨header, hheader, hinside⟩ := (classHeader_settles (by omega)).exists_ok hsafe
  refine .lift_bind hheader ?_
  cases header with
  | none => exact .pure (.inl rfl)
  | some header =>
    obtain ⟨names, start⟩ := header
    obtain ⟨hlt, hle⟩ := hinside names start rfl
    have hr : Reach payload i start := .of_le hlt hle
    refine (hread start _).bind fun got hgot => ?_
    refine .lift_bind (hr.add_ok hL hgot) ?_
    refine .lift_bind (checkedSub_ok (hr.advance hgot).1.le) ?_
    exact .pure (hr.advance hgot).stays

theorem decodeInstance_exact (h : i < payload.length) {tag : BitVec 8}
    (hsafe : tag = bcObject → i + 1 < payload.length) :
    Exact (Event.Safe payload) (decodeInstance payload read fuel i tag classes)
      (fun got => Stays payload i got.1.2) := by
  obtain ⟨header, hheader, hlt, hle⟩ := (objectHeader_settles (by omega) h tag).exists_ok hsafe
  refine .lift_bind hheader ?_
  cases classes[header.2]? with
  | none => exact .pure (.inl rfl)
  | some names =>
    refine (fieldsLoop_exact hL hread fuel names [] (.of_le hlt hle)).bind ?_
    intro after hafter
    refine .lift_bind (checkedSub_ok hafter.1.le) ?_
    exact .pure hafter.stays

theorem decodeObj_exact (h : i < payload.length) (hsafe : SafeObject payload i) :
    Exact (Event.Safe payload) (decodeObj payload read fuel i classes)
      (fun got => Stays payload i got.1.2) := by
  refine .lift_bind (index_byteAt h) ?_
  split
  next htag => exact decodeClass_exact hL hread (hsafe.1 htag)
  next =>
    split
    next => exact decodeInstance_exact hL hread fuel h hsafe.2
    next => exact .pure (.inl rfl)

omit hread in
theorem decodeObj_crashes (fuel : Nat) (h : i < payload.length) (hbad : ¬ SafeObject payload i) :
    Crashes (decodeObj payload read fuel i classes).result := by
  unfold decodeObj
  rw [lift_bind_of_ok (index_byteAt h)]
  by_cases hdef : byteAt payload i = bcObjectDef
  · rw [if_pos hdef]
    have hclass : ¬ SafeClass payload i := by
      intro hclass
      refine hbad ⟨fun _ => hclass, fun hobject => ?_⟩
      rw [hdef] at hobject
      exact absurd hobject (by decide)
    exact crashes_bind ((classHeader_settles (by omega)).crashes hclass)
  · rw [if_neg hdef]
    have hobject : ¬ (byteAt payload i = bcObject → i + 1 < payload.length) :=
      fun hnext => hbad ⟨fun htag => absurd htag hdef, hnext⟩
    have htag : byteAt payload i = bcObject := by
      by_contra hne
      exact hobject fun heq => absurd heq hne
    rw [if_pos (.inl htag)]
    exact crashes_bind ((objectHeader_settles (by omega) h _).crashes hobject)

end Loops

/-! ## One value -/

theorem ReadsAt.exact {α : Type} {x : Exec (α × Nat)} (hx : ReadsAt payload start x)
    (value : α → Option HessianValue) (classes : Classes) :
    Exact (Event.Safe payload)
      (lift x >>= fun got => .pure ((value got.1, got.2), classes))
      (fun got => Stays payload start got.1.2) := by
  obtain ⟨got, hgot, hle⟩ := hx
  refine .lift_bind hgot ?_
  exact .pure (.of_le hle)

section

variable (hL : payload.length < 2 ^ 62)

include hL

theorem fieldBody_exact {read : Reader} (hread : ReaderExact payload read) (fuel : Nat)
    (classes : Classes) (h : start < payload.length) (hsafe : SafePlace payload start) :
    Exact (Event.Safe payload)
      (fieldBody payload read fuel start classes (kindOf (byteAt payload start)))
      (fun got => Stays payload start got.1.2) := by
  have hone : Stays payload start 1 := .of_le h
  have hall : Stays payload start payload.length := .inr (by omega)
  unfold SafePlace at hsafe
  generalize kindOf (byteAt payload start) = kind at hsafe
  cases kind with
  | ref => exact (decodeI32_reads h).exact (fun _ => none) classes
  | int => exact (decodeI32_reads h).exact (fun n => some (.int n)) classes
  | long => exact (decodeI64_reads h).exact (fun n => some (.long n)) classes
  | date =>
    exact ReadsAt.exact ((decodeDatetime_settles h).exists_ok hsafe) (fun t => some (.dateTime t))
      classes
  | double => exact (decodeF64_reads h).exact (fun x => some (.double x)) classes
  | binary => exact (decodeBinary_exact hL h).bind fun got hle => .pure (.of_le hle)
  | string =>
    obtain ⟨⟨text, len⟩, hgot, hle, -⟩ := decodeString_reads (by omega) h
    refine .lift_bind hgot ?_
    cases text with
    | none => exact .pure hall
    | some text => exact .pure (.of_le hle)
  | list => exact (decodeList_exact hL hread fuel h hsafe).bind fun got hgot => .pure hgot
  | map => exact (decodeMap_exact hL hread fuel h).bind fun got hgot => .pure hgot
  | object => exact (decodeObj_exact hL hread fuel h hsafe).bind fun got hgot => .pure hgot
  | unknown => exact .pure hall
  | _ => exact .pure hone

theorem fieldBody_crashes {read : Reader} (fuel : Nat) (classes : Classes)
    (h : start < payload.length) (hbad : ¬ SafePlace payload start) :
    Crashes (fieldBody payload read fuel start classes (kindOf (byteAt payload start))).result := by
  unfold SafePlace at hbad
  generalize kindOf (byteAt payload start) = kind at hbad
  cases kind with
  | date => exact crashes_bind ((decodeDatetime_settles h).crashes hbad)
  | list =>
    refine crashes_bind ?_
    exact crashes_bind ((listHeader_settles (by omega) h).crashes hbad)
  | object => exact crashes_bind (decodeObj_crashes hL fuel h hbad)
  | _ => exact absurd trivial hbad

/-- **Panics are at unsafe places.** Induction on the fuel: a value at a safe
place hands the reader of less fuel to its loops, one at another place crashes
before it reads anything else. -/
theorem decodeField_exact (fuel : Nat) :
    ReaderExact payload (decodeField payload fuel) := by
  induction fuel with
  | zero => exact fun _ _ => .outOfFuel
  | succ fuel ih =>
    intro start classes
    unfold decodeField
    split
    next => exact .pure (.inl rfl)
    rename_i hin
    have hs : start < payload.length := Nat.lt_of_not_le hin
    by_cases hsafe : SafePlace payload start
    · refine .tell_bind hsafe ?_
      refine .lift_bind (index_byteAt hs) ?_
      exact fieldBody_exact hL ih fuel classes hs hsafe
    · refine .event_not_safe hsafe ?_
      rw [lift_bind_of_ok (index_byteAt hs)]
      exact fieldBody_crashes hL fuel classes hs hsafe

end

/-- **Decoding panics only at unsafe places.** Whatever the payload, the start
index and the classes known, and however far the run is followed, it has not
panicked if and only if every place it came to is safe. -/
theorem decodeField_no_panic_iff (payload : Bytes) (hL : payload.length < 2 ^ 62)
    (fuel start : Nat) (classes : Classes) :
    ¬ Crashes (decodeField payload fuel start classes).result ↔
      ∀ e ∈ (decodeField payload fuel start classes).log, e.Safe payload :=
  (decodeField_exact hL fuel start classes).iff.symm

/-- A map of one entry is read without a panic, so all its places are safe. -/
theorem decodeField_no_panic_map :
    ¬ Crashes (decodeField [0x48#8, 0x01#8, 0x61#8, 0x91#8, 0x5a#8] 6 0 []).result ∧
      ∀ e ∈ (decodeField [0x48#8, 0x01#8, 0x61#8, 0x91#8, 0x5a#8] 6 0 []).log,
        e.Safe [0x48#8, 0x01#8, 0x61#8, 0x91#8, 0x5a#8] := by
  have hno : ¬ Crashes (decodeField [0x48#8, 0x01#8, 0x61#8, 0x91#8, 0x5a#8] 6 0 []).result := by
    have hpanics :
        panics (decodeField [0x48#8, 0x01#8, 0x61#8, 0x91#8, 0x5a#8] 6 0 []).result = false := by
      decide +kernel
    rintro ⟨e, he, -⟩
    rw [he] at hpanics
    cases hpanics
  exact ⟨hno, (decodeField_no_panic_iff _ (by decide) 6 0 []).mp hno⟩

/-- The definition of a class at the end of the payload: its name is read behind
the end. -/
theorem class_at_end_panics :
    (decodeField [0x43#8] 1 0 []).result = .error .outOfBounds ∧
      Crashes (decodeField [0x43#8] 1 0 []).result := by
  have hresult : (decodeField [0x43#8] 1 0 []).result = .error .outOfBounds := rfl
  exact ⟨hresult, .outOfBounds, hresult, by decide⟩

end ZeroTrace.Hessian2
