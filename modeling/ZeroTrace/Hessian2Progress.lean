import ZeroTrace.Hessian2Safety

/-!
# When decoding ends

A value that is cut off by the end of the payload is reported with a length of
0, and a loop that has another turn then reads it again.  `Advances` says of the
bytes at a place that a value read there takes at least one of them.  The run
ends, with every turn of a loop taking a byte or leaving the loop, exactly if the
elements behind which a loop goes on advance; and then the depth of the calls and
the turns of each loop are bounded by the length of the payload plus one.

What decreases is the number of bytes behind the index: a call made by the value
at `i` is made at a larger index, and so is the next turn of a loop.  Where an
element does not advance, the value read is the same in the next turn: a map
then turns for ever, and a list or an object has a turn that takes nothing.
-/

namespace ZeroTrace.Hessian2

open RustExec Slices TracedExec Nat

variable {payload : Bytes} {i start : Nat} {next : Nat}

/-! ## Elements that advance -/

/-- The bytes of a number behind its tag. -/
def tail (tag : BitVec 8) : Nat :=
  if within tag 0xc0 0xcf ∨ within tag 0xf0 0xff ∨ tag = bcDoubleByte then 1
  else if within tag 0xd0 0xd7 ∨ within tag 0x38 0x3f ∨ tag = bcDoubleShort then 2
  else if tag = bcInt ∨ tag = bcLongInt ∨ tag = bcDateMinute ∨ tag = bcDoubleMill then 4
  else if tag = bcLong ∨ tag = bcDate ∨ tag = bcDouble then 8
  else 0

/-- A list is not cut off behind its tag or its type, and the end found for one of unknown
length is not at the distance that is taken off it. -/
def AdvancesList (payload : Bytes) (i : Nat) : Prop :=
  i + 1 < payload.length ∧
    if byteAt payload i = bcListFixed then
      ∀ type, decodeString payload (i + 1) = .ok type → i + 1 + type.2 < payload.length
    else if byteAt payload i = bcListVariable then
      ∀ type, decodeString payload (i + 1) = .ok type →
        i + 1 + type.2 < payload.length → untilEnd payload (i + 1 + type.2) ≠ i
    else byteAt payload i = bcListVariableUntyped → untilEnd payload (i + 1) ≠ i

/-- The definition of a class is not cut off behind its name, and an object is one of a class
that is known. -/
def AdvancesObject (payload : Bytes) (i known : Nat) : Prop :=
  if byteAt payload i = bcObjectDef then
    ∀ name, decodeString payload (i + 1) = .ok name → i + 1 + name.2 < payload.length
  else ∀ header, objectHeader payload i (byteAt payload i) = .ok header → header.2 < known

/-- A chunk of binary data is not cut off in front of its length. -/
def FullChunk (payload : Bytes) (i : Nat) : Prop :=
  within (byteAt payload i) 0x20 0x2f ∨
    (within (byteAt payload i) 0x34 0x37 ∧ i + 1 < payload.length) ∨
    ((byteAt payload i = bcBinaryChunk ∨ byteAt payload i = bcBinary) ∧ i + 2 < payload.length)

/-- All chunks that were come to are full. -/
def AllFull (payload : Bytes) (log : List Event) : Prop :=
  ∀ j, .chunk j ∈ log → FullChunk payload j

/-- A value read at this place takes at least one byte.  A reference never does. -/
def Advances (payload : Bytes) (i known : Nat) : Prop :=
  match kindOf (byteAt payload i) with
  | .ref => False
  | .int | .long | .date | .double => i + tail (byteAt payload i) < payload.length
  | .binary => AllFull payload (decodeBinary payload i).log
  | .list => AdvancesList payload i
  | .map => i + 1 < payload.length
  | .object => AdvancesObject payload i known
  | _ => True

/-- An element behind which the loop goes on is inside the payload and advances. -/
def Event.Advancing (payload : Bytes) : Event → Prop
  | .element i known true => i < payload.length ∧ Advances payload i known
  | _ => True

/-- A turn of a loop takes at least one byte or leaves the loop. -/
def Event.Progresses : Event → Prop
  | .turn consumed leaves => 0 < consumed ∨ leaves = true
  | _ => True

/-- The run ends and its turns progress exactly if its elements advance. -/
abbrev EndsIn {α : Type} (payload : Bytes) (k : Nat) (x : Traced Event α) (Q : α → Prop) :
    Prop :=
  Ends (Event.Advancing payload) Event.Progresses k x Q

theorem advancing_element {known : Nat} {more : Prop} [Decidable more] :
    (Event.element i known (decide more)).Advancing payload ↔
      (more → i < payload.length ∧ Advances payload i known) := by
  by_cases hmore : more <;> simp [Event.Advancing, hmore]

theorem standing_of_not_advancing {known : Nat} {more : Prop} [Decidable more]
    (h : ¬ (Event.element i known (decide more)).Advancing payload) :
    more ∧ ¬ (i < payload.length ∧ Advances payload i known) := by
  rwa [advancing_element, Classical.not_imp] at h

/-! ## Numbers -/

section Numbers

variable {α : Type} {p c : Prop} [Decidable c] {x y : Exec (α × Nat)}

/-- The number has a length if it is complete, and the length 0 if it is not. -/
structure Measures (complete : Prop) (x : Exec (α × Nat)) : Prop where
  pos : complete → ∀ r, x = .ok r → 0 < r.2
  zero : ¬ complete → ∃ n, x = .ok (n, 0)

theorem Measures.ite (hc : c → p ∧ ∀ r, x = .ok r → 0 < r.2) (hy : ¬ c → Measures p y) :
    Measures p (if c then x else y) := by
  split
  next h => exact ⟨fun _ => (hc h).2, fun hnot => absurd (hc h).1 hnot⟩
  next h => exact hy h

theorem Measures.cutOff {n : α} (hp : ¬ p) : Measures p (.ok (n, 0)) :=
  ⟨fun h => absurd h hp, fun _ => ⟨n, rfl⟩⟩

theorem pos_of_ok {r : α × Nat} {a : α} {n : Nat} (h : (.ok (a, n + 1) : Exec _) = .ok r) :
    0 < r.2 := by
  cases h
  exact succ_pos n

theorem pos_of_bind {β : Type} {z : Exec β} {f : β → Exec (α × Nat)}
    (hf : ∀ b r, f b = .ok r → 0 < r.2) (r : α × Nat) (h : z >>= f = .ok r) : 0 < r.2 := by
  obtain ⟨b, -, hb⟩ := bind_eq_ok h
  exact hf b r hb

/-- The bytes behind a tag, by the ranges of the decoders. -/
theorem tail_eq (tag : BitVec 8) :
    (within tag 0x80 0xbf ∨ within tag 0xd8 0xef ∨ tag = bcDoubleZero ∨ tag = bcDoubleOne →
      tail tag = 0) ∧
    (within tag 0xc0 0xcf ∨ within tag 0xf0 0xff ∨ tag = bcDoubleByte → tail tag = 1) ∧
    (within tag 0xd0 0xd7 ∨ within tag 0x38 0x3f ∨ tag = bcDoubleShort → tail tag = 2) ∧
    (tag = bcInt ∨ tag = bcLongInt ∨ tag = bcDateMinute ∨ tag = bcDoubleMill → tail tag = 4) ∧
    (tag = bcLong ∨ tag = bcDate ∨ tag = bcDouble → tail tag = 8) := by
  revert tag
  decide +kernel

variable (h : i < payload.length)

include h

theorem decodeI32_measures (hkind : kindOf (byteAt payload i) = .int) :
    Measures (i + tail (byteAt payload i) < payload.length) (decodeI32 payload i) := by
  have htags : ∀ tag, kindOf tag = .int → within tag 0x80 0xbf ∨ within tag 0xc0 0xcf ∨
      within tag 0xd0 0xd7 ∨ tag = bcInt := by
    decide +kernel
  have htag := htags _ hkind
  have htail := tail_eq (byteAt payload i)
  unfold decodeI32
  rw [index_bind h]
  refine .ite (fun _ => ⟨by grind, fun _ => pos_of_ok⟩) fun _ => ?_
  refine .ite (fun _ => ⟨by grind, pos_of_bind fun _ _ => pos_of_ok⟩) fun _ => ?_
  refine .ite (fun _ => ⟨by grind, pos_of_bind fun _ => pos_of_bind fun _ _ => pos_of_ok⟩)
    fun _ => ?_
  refine .ite (fun _ => ⟨by grind, pos_of_bind fun _ _ => pos_of_ok⟩) fun _ => ?_
  exact .cutOff (by grind)

theorem decodeI64_measures (hkind : kindOf (byteAt payload i) = .long) :
    Measures (i + tail (byteAt payload i) < payload.length) (decodeI64 payload i) := by
  have htags : ∀ tag, kindOf tag = .long → within tag 0xd8 0xef ∨ within tag 0xf0 0xff ∨
      within tag 0x38 0x3f ∨ tag = bcLongInt ∨ tag = bcLong := by
    decide +kernel
  have htag := htags _ hkind
  have htail := tail_eq (byteAt payload i)
  unfold decodeI64
  rw [index_bind h]
  refine .ite (fun _ => ⟨by grind, fun _ => pos_of_ok⟩) fun _ => ?_
  refine .ite (fun _ => ⟨by grind, pos_of_bind fun _ _ => pos_of_ok⟩) fun _ => ?_
  refine .ite (fun _ => ⟨by grind, pos_of_bind fun _ => pos_of_bind fun _ _ => pos_of_ok⟩)
    fun _ => ?_
  refine .ite (fun _ => ⟨by grind, pos_of_bind fun _ _ => pos_of_ok⟩) fun _ => ?_
  refine .ite (fun _ => ⟨by grind, pos_of_bind fun _ _ => pos_of_ok⟩) fun _ => ?_
  exact .cutOff (by grind)

theorem decodeDatetime_measures (hkind : kindOf (byteAt payload i) = .date) :
    Measures (i + tail (byteAt payload i) < payload.length) (decodeDatetime payload i) := by
  have htags : ∀ tag, kindOf tag = .date → tag = bcDate ∨ tag = bcDateMinute := by
    decide +kernel
  have htag := htags _ hkind
  have htail := tail_eq (byteAt payload i)
  unfold decodeDatetime
  rw [index_bind h]
  refine .ite (fun _ => ⟨by grind, pos_of_bind fun _ _ => pos_of_ok⟩) fun _ => ?_
  refine .ite (fun _ => ⟨by grind, pos_of_bind fun _ => pos_of_bind fun _ _ => pos_of_ok⟩)
    fun _ => ?_
  exact .cutOff (by grind)

theorem decodeF64_measures (hkind : kindOf (byteAt payload i) = .double) :
    Measures (i + tail (byteAt payload i) < payload.length) (decodeF64 payload i) := by
  have htags : ∀ tag, kindOf tag = .double → tag = bcDoubleZero ∨ tag = bcDoubleOne ∨
      tag = bcDoubleByte ∨ tag = bcDoubleShort ∨ tag = bcDoubleMill ∨ tag = bcDouble := by
    decide +kernel
  have htag := htags _ hkind
  have htail := tail_eq (byteAt payload i)
  unfold decodeF64
  rw [index_bind h]
  refine .ite (fun _ => ⟨by grind, fun _ => pos_of_ok⟩) fun _ => ?_
  refine .ite (fun _ => ⟨by grind, fun _ => pos_of_ok⟩) fun _ => ?_
  refine .ite (fun _ => ⟨by grind, pos_of_bind fun _ _ => pos_of_ok⟩) fun _ => ?_
  refine .ite (fun _ => ⟨by grind, pos_of_bind fun _ _ => pos_of_ok⟩) fun _ => ?_
  refine .ite (fun _ => ⟨by grind, pos_of_bind fun _ _ => pos_of_ok⟩) fun _ => ?_
  refine .ite (fun _ => ⟨by grind, pos_of_bind fun _ _ => pos_of_ok⟩) fun _ => ?_
  exact .cutOff (by grind)

/-- The tag of a reference is that of no number. -/
theorem decodeI32_ref (hkind : kindOf (byteAt payload i) = .ref) :
    decodeI32 payload i = .ok (0, 0) := by
  have htags : ∀ tag, kindOf tag = .ref → within tag 0x80 0xbf = false ∧
      within tag 0xc0 0xcf = false ∧ within tag 0xd0 0xd7 = false ∧ tag ≠ bcInt := by
    decide +kernel
  obtain ⟨hone, htwo, hthree, hfive⟩ := htags _ hkind
  unfold decodeI32
  rw [index_bind h]
  simp [hone, htwo, hthree, hfive]

end Numbers

/-! ## Headers -/

theorem variableList_done (hs : start < payload.length) :
    variableList payload i start = .ok (.done 0) ↔ untilEnd payload start = i := by
  have hle := untilEnd_le hs
  unfold variableList
  rw [sliceFrom_ok (by omega), ok_bind, checkedSub_ok (by omega), ok_bind, checkedSub]
  split
  next hi =>
    rw [ok_bind, Except.ok.injEq, ListHeader.done.injEq]
    omega
  next hi => exact iff_of_false (fun heq => by cases heq) (by omega)

section Headers

variable (hL : payload.length < 2 ^ 63)

include hL

theorem listHeader_done (h : i < payload.length) :
    listHeader payload i = .ok (.done 0) ↔ ¬ AdvancesList payload i := by
  unfold listHeader AdvancesList
  rw [index_bind h]
  split
  next hlast => exact iff_of_true rfl fun hadvances => absurd hadvances.1 (by omega)
  rename_i hlast
  have hnext : i + 1 < payload.length := Nat.lt_of_not_le hlast
  obtain ⟨type, htype, hle, -⟩ := decodeString_reads hL hnext
  obtain ⟨number, hnumber, hnumberLe⟩ := decodeI32_reads hnext
  rw [and_iff_right hnext]
  simp only [htype, ok_bind, add_ok hL hle, hnumber, add_ok hL hnumberLe, Except.ok.injEq,
    forall_eq']
  split
  · split
    next hend => exact iff_of_true rfl (by omega)
    next hin =>
      obtain ⟨count, hcount, hcountLe⟩ := decodeI32_reads (Nat.lt_of_not_le hin)
      rw [hcount, ok_bind, add_ok hL hcountLe]
      exact iff_of_false nofun (by omega)
  split
  · split
    next hend =>
      rw [checkedSub_ok (by omega), ok_bind, Except.ok.injEq, ListHeader.done.injEq]
      omega
    next hin =>
      rw [variableList_done (Nat.lt_of_not_le hin)]
      omega
  by_cases huntyped : byteAt payload i = bcListVariableUntyped
  · rw [if_neg (by rw [huntyped]; decide), if_neg (by rw [huntyped]; decide), if_pos huntyped,
      variableList_done hnext]
    simp [huntyped]
  · refine iff_of_false ?_ (not_not.mpr fun htag => absurd htag huntyped)
    split_ifs <;> simp

theorem classHeader_none :
    classHeader payload i = .ok none ↔
      ∃ name, decodeString payload (i + 1) = .ok name ∧ payload.length ≤ i + 1 + name.2 := by
  unfold classHeader
  cases hname : decodeString payload (i + 1) with
  | error e => exact iff_of_false nofun (by rintro ⟨_, ⟨⟩, -⟩)
  | ok name =>
    have hnext : i + 1 < payload.length := by
      by_contra hge
      unfold decodeString index at hname
      rw [List.getElem?_eq_none (Nat.not_lt.mp hge), error_bind] at hname
      cases hname
    obtain ⟨name', hname', hle, -⟩ := decodeString_reads hL hnext
    cases hname.symm.trans hname'
    rw [ok_bind, add_ok hL hle, ok_bind]
    split
    next hend => exact iff_of_true rfl ⟨name, rfl, hend⟩
    next hin =>
      refine iff_of_false (fun hnone => ?_) ?_
      · obtain ⟨count, -, hnone⟩ := bind_eq_ok hnone
        obtain ⟨after, -, hnone⟩ := bind_eq_ok hnone
        obtain ⟨_, -, hnone⟩ := bind_eq_ok hnone
        obtain ⟨names, -, hnone⟩ := bind_eq_ok hnone
        cases hnone
      · rintro ⟨_, ⟨⟩, hend⟩
        exact hin hend

theorem mapHeader_none (h : i < payload.length) :
    mapHeader payload i = .ok none ↔ payload.length ≤ i + 1 := by
  unfold mapHeader
  rw [index_bind h]
  split
  next hend => exact iff_of_true rfl hend
  next hin =>
    refine iff_of_false ?_ hin
    have hnext : i + 1 < payload.length := Nat.lt_of_not_le hin
    split
    · obtain ⟨type, htype, -⟩ := decodeString_reads hL hnext
      obtain ⟨ref, href, hrefLe⟩ := decodeI32_reads hnext
      rw [htype, ok_bind, href, ok_bind, add_ok hL hrefLe, ok_bind]
      split <;> nofun
    · nofun

end Headers

theorem ReadsAt.ne_fuel {α : Type} {x : Exec (α × Nat)} (h : ReadsAt payload i x) :
    x ≠ .error .outOfFuel := by
  obtain ⟨r, rfl, -⟩ := h
  nofun

/-- What is an object and not the definition of a class. -/
theorem object_tag {tag : BitVec 8} (hkind : kindOf tag = .object) (hdef : tag ≠ bcObjectDef) :
    tag = bcObject ∨ within tag 0x60 0x6f = true := by
  revert tag
  decide +kernel

/-! ## Binary data -/

theorem binaryHeader_none :
    binaryHeader payload start (byteAt payload start) = .ok none ↔ ¬ FullChunk payload start := by
  unfold binaryHeader FullChunk
  split
  next hc => exact iff_of_false nofun (not_not.mpr (.inl hc))
  split
  next hc =>
    refine iff_of_false (fun hnone => ?_) (not_not.mpr (.inr (.inl hc)))
    obtain ⟨low, -, hnone⟩ := bind_eq_ok hnone
    obtain ⟨len, -, hnone⟩ := bind_eq_ok hnone
    cases hnone
  split
  next hc =>
    refine iff_of_false (fun hnone => ?_) (not_not.mpr (.inr (.inr hc)))
    obtain ⟨len, -, hnone⟩ := bind_eq_ok hnone
    cases hnone
  next hshort hmedium hlong =>
    refine iff_of_true rfl ?_
    rintro (hc | hc | hc)
    exacts [hshort hc, hmedium hc, hlong hc]

/-- A run that comes to chunks only, no more than `k` of them, and delivers a length if they
are full, and the length 0 if one is not. -/
structure Chunks (payload : Bytes) (k : Nat) (x : Traced Event (Bytes × Nat)) : Prop where
  chunks : ∀ e ∈ x.log, ∃ j, e = .chunk j
  length : x.log.length ≤ k
  ends : x.result ≠ .error .outOfFuel
  measures : Measures (AllFull payload x.log) x.result

theorem Chunks.of_nil {k : Nat} {r : Exec (Bytes × Nat)} (hr : r ≠ .error .outOfFuel)
    (hpos : ∀ a, r = .ok a → 0 < a.2) : Chunks payload k ⟨[], r⟩ where
  chunks _ he := absurd he List.not_mem_nil
  length := Nat.zero_le k
  ends := hr
  measures := ⟨fun _ => hpos, fun hnot => absurd (fun _ he => absurd he List.not_mem_nil) hnot⟩

theorem Chunks.of_ok {k : Nat} {a : Bytes × Nat} (ha : 0 < a.2) :
    Chunks payload k ⟨[], .ok a⟩ :=
  .of_nil (by simp) (by simpa using ha)

theorem Chunks.of_error {k : Nat} {p : Panic} (hp : p ≠ .outOfFuel) :
    Chunks payload k ⟨[], .error p⟩ :=
  .of_nil (by simpa using hp) (by simp)

theorem Chunks.cons {k : Nat} {g : Unit → Traced Event (Bytes × Nat)}
    (hfull : FullChunk payload start) (hg : Chunks payload k (g ())) :
    Chunks payload (k + 1) (Traced.tell (.chunk start) >>= g) := by
  rw [tell_bind_eq]
  have hiff : AllFull payload (.chunk start :: (g ()).log) ↔ AllFull payload (g ()).log := by
    refine ⟨fun hall j hj => hall j (.tail _ hj), fun hall j hj => ?_⟩
    rcases List.mem_cons.mp hj with heq | hj
    · cases heq
      exact hfull
    · exact hall j hj
  exact ⟨List.forall_mem_cons.mpr ⟨⟨start, rfl⟩, hg.chunks⟩, Nat.succ_le_succ hg.length, hg.ends,
    fun hall => hg.measures.pos (hiff.mp hall), fun hnot => hg.measures.zero (mt hiff.mpr hnot)⟩

/-- Every chunk starts behind the one before it. -/
theorem binaryLoop_chunks (fuel : Nat) (result : Bytes) (hi : i ≤ start)
    (hs : start < payload.length) (hfuel : payload.length < start + fuel) :
    Chunks payload fuel (binaryLoop payload i fuel start (byteAt payload start) result) := by
  induction fuel generalizing start result with
  | zero => omega
  | succ fuel ih =>
    have hsettles := binaryHeader_settles hs
    have hnone := @binaryHeader_none payload start
    unfold binaryLoop
    cases hheader : binaryHeader payload start (byteAt payload start) with
    | error e =>
      rw [hheader] at hnone
      refine .cons (by_contra fun hnot => by cases hnone.mpr hnot) ?_
      rw [bind_of_error (x := Traced.lift _) rfl]
      exact .of_error fun heq => hsettles.ne_outOfFuel (heq ▸ hheader)
    | ok header =>
      cases header with
      | none =>
        have hcut := hnone.mp hheader
        rw [tell_bind_eq, lift_bind_of_ok rfl]
        refine ⟨fun e he => ⟨start, List.mem_singleton.mp he⟩,
          Nat.succ_le_succ (Nat.zero_le fuel), fun heq => ?_, fun hall => ?_, fun _ => ⟨_, rfl⟩⟩
        · cases heq
        · exact absurd (hall start (List.mem_singleton_self _)) hcut
      | some header =>
        obtain ⟨next, len⟩ := header
        obtain ⟨hlt, hle, hlen⟩ := hsettles.post hheader next len rfl
        rw [hheader] at hnone
        refine .cons (by_contra fun hnot => by cases hnone.mpr hnot) ?_
        rw [lift_bind_of_ok rfl]
        have hstopped : ∀ stop data, i < stop → Chunks payload fuel
            (Traced.lift (checkedSub stop i) >>= fun read => .pure (data, read)) := by
          intro stop data hstop
          rw [lift_bind_of_ok (checkedSub_ok hstop.le)]
          exact .of_ok (Nat.sub_pos_of_lt hstop)
        dsimp only
        split
        next => exact hstopped next result (by omega)
        rw [checkedAdd]
        split
        next hadd =>
          rw [lift_bind_of_ok rfl]
          split
          next => exact hstopped next result (by omega)
          rw [lift_bind_of_ok (slice_ok (by omega) (by omega))]
          split
          next => exact hstopped (next + len) _ (by omega)
          next hmore =>
            have hin : next + len < payload.length := by
              by_contra hge
              exact hmore (.inr (by omega))
            rw [lift_bind_of_ok (index_byteAt hin)]
            exact ih _ (by omega) hin (by omega)
        next =>
          rw [bind_of_error (x := Traced.lift _) rfl]
          exact .of_error (by decide)

theorem decodeBinary_chunks (h : i < payload.length) :
    Chunks payload (payload.length + 1) (decodeBinary payload i) := by
  unfold decodeBinary
  rw [lift_bind_of_ok (index_byteAt h)]
  exact binaryLoop_chunks _ _ (le_refl i) h (by omega)

theorem Chunks.endsIn {k : Nat} {x : Traced Event (Bytes × Nat)} (hx : Chunks payload k x) :
    EndsIn payload k x (fun r => AllFull payload x.log → 0 < r.2) := by
  have hchunks : ∀ e ∈ x.log, e.Progresses ∧ e.Advancing payload := by
    intro e he
    obtain ⟨j, rfl⟩ := hx.chunks e he
    exact ⟨trivial, trivial⟩
  exact ⟨fun _ => ⟨⟨fun e he => (hchunks e he).1, hx.length⟩, hx.ends,
    fun a ha hall => hx.measures.pos hall a ha⟩, fun _ _ e he => (hchunks e he).2⟩

/-! ## Loops -/

theorem add_zero_ok (h : start < 2 ^ 64) : checkedAdd 64 start 0 = .ok start := checkedAdd_ok h

/-- The end tag takes a byte. -/
theorem ne_end_of_not_advances {known : Nat} (h : ¬ Advances payload start known) :
    byteAt payload start ≠ bcEnd := by
  intro htag
  refine h ?_
  unfold Advances
  rw [htag]
  trivial

section Loops

variable {read : Reader} {classes : Classes} {fuel k : Nat}

/-- There is fuel for every byte behind the index, and for one turn more. -/
def Fuelled (payload : Bytes) (start fuel : Nat) : Prop :=
  0 < fuel ∧ payload.length < start + fuel

/-- The reader that a loop is given ends, with at most `k` events, and takes a byte exactly
inside the payload and where it advances. -/
structure ReaderEnds (payload : Bytes) (read : Reader) (fuel k : Nat) : Prop where
  ends : ∀ start classes, Fuelled payload start fuel → EndsIn payload k (read start classes)
    (fun got => start < payload.length → Advances payload start classes.length → 0 < got.1.2)
  stands : 0 < fuel → ∀ start (classes : Classes),
    ¬ (start < payload.length ∧ Advances payload start classes.length) →
      ∃ value, (read start classes).result = .ok ((value, 0), classes)

/-- The events of a loop: each turn reads at most two elements. -/
theorem turns_succ (fuel k : Nat) :
    1 + (k + (1 + (k + (1 + fuel * (2 * k + 3))))) = (fuel + 1) * (2 * k + 3) := by
  rw [succ_mul fuel]
  omega

/-- A turn at a place inside the payload that takes a byte leaves enough fuel. -/
theorem Fuelled.turn (h : Fuelled payload start (fuel + 1))
    (hs : start < payload.length) (hnext : start < next) : Fuelled payload next fuel := by
  obtain ⟨-, hlt⟩ := h
  exact ⟨by omega, by omega⟩

theorem Fuelled.mono (h : Fuelled payload start fuel) (hle : start ≤ next) :
    Fuelled payload next fuel :=
  ⟨h.1, lt_of_lt_of_le h.2 (Nat.add_le_add_right hle fuel)⟩

section Loops

-- `bound` is the fuel of the reader, `fuel` what is left of it for the loop
variable {bound : Nat} (hread : ReaderEnds payload read bound k)
  (hbound : Fuelled payload start bound)

include hread hbound

theorem listLoop_ends (hL : payload.length < 2 ^ 63) (hfuel : Fuelled payload start fuel)
    (count : Nat) :
    EndsIn payload (fuel * (2 * k + 3)) (listLoop payload read fuel count start classes)
      (fun after => start ≤ after.1) := by
  induction fuel generalizing count start classes with
  | zero => exact absurd hfuel.1 (lt_irrefl 0)
  | succ fuel ih =>
    by_cases hc : count = 0
    · rw [listLoop, if_pos hc]
      exact .pure (le_refl start)
    rw [listLoop, if_neg hc, ← turns_succ]
    split
    next =>
      refine Ends.le (k := 1 + 0) ?_ (by omega)
      exact .note_bind trivial (.inr rfl) (.pure (le_refl start))
    rename_i hin
    have hs : start < payload.length := Nat.lt_of_not_le hin
    refine Ends.le (k := 1 + (k + (1 + fuel * (2 * k + 3)))) ?_ (by omega)
    refine .tell_bind (fun _ => trivial) (fun helement => ?_) fun hbad => ?_
    · refine (hread.ends start classes hbound).bind fun got hgot => .add_bind fun _ => ?_
      by_cases hlast : count = 1
      · refine .note_bind trivial (.inr (decide_eq_true hlast)) ?_
        unfold listLoop
        rw [if_pos (by omega)]
        exact .pure (le_add_right start got.1.2)
      · have hpos : 0 < got.1.2 := hgot hs (advancing_element.mp helement hlast).2
        have hlt : start < start + got.1.2 := Nat.lt_add_of_pos_right hpos
        refine .note_bind trivial (.inl hpos) ?_
        refine (ih (hbound.mono hlt.le) (hfuel.turn hs hlt) (count - 1)).mono fun after hle => ?_
        exact le_trans hlt.le hle
    · obtain ⟨hmore, hnot⟩ := standing_of_not_advancing hbad
      obtain ⟨value, hvalue⟩ := hread.stands hbound.1 start classes hnot
      refine .bind hvalue (.lift_bind (add_zero_ok (by omega)) (.not_nice ?_))
      simpa [Event.Progresses] using hmore

omit hbound in
/-- A map whose next key does not advance turns for ever. -/
theorem mapLoop_stuck (hL : payload.length < 2 ^ 63) (hpos : 0 < bound)
    (hs : start < payload.length) (hnot : ¬ Advances payload start classes.length) (fuel : Nat)
    (entries : Entries) :
    Stuck Event.Progresses (mapLoop payload read fuel start entries classes) := by
  cases fuel with
  | zero => exact fun _ => rfl
  | succ fuel =>
    obtain ⟨value, hvalue⟩ := hread.stands hpos start classes fun hboth => hnot hboth.2
    have hadd : checkedAdd 64 start 0 = .ok start := add_zero_ok (by omega)
    unfold mapLoop
    refine .tell_bind (.bind hvalue (.lift_bind hadd (.tell_bind (.bind hvalue ?_))))
    refine .lift_bind hadd ?_
    rw [if_neg (by omega)]
    refine .lift_bind (index_byteAt hs) ?_
    rw [if_neg (ne_end_of_not_advances hnot)]
    exact .not_nice (by simp [Event.Progresses])

theorem mapLoop_ends (hL : payload.length < 2 ^ 63) (hfuel : Fuelled payload start fuel)
    (entries : Entries) :
    EndsIn payload (fuel * (2 * k + 3)) (mapLoop payload read fuel start entries classes)
      (fun after => start ≤ after.2.1) := by
  induction fuel generalizing start entries classes with
  | zero => exact absurd hfuel.1 (lt_irrefl 0)
  | succ fuel ih =>
    rw [← turns_succ]
    unfold mapLoop
    refine .tell_bind (fun _ => trivial) (fun hkeyed => ?_) fun hbad => ?_
    · refine (hread.ends start classes hbound).bind fun key hkey => .add_bind fun _ => ?_
      have hfirst : start ≤ start + key.1.2 := le_add_right _ _
      refine .tell_bind (fun _ => trivial) (fun _ => ?_) fun hbad => ?_
      · refine (hread.ends _ key.2 (hbound.mono hfirst)).bind fun value _ => .add_bind fun _ => ?_
        have hboth : start ≤ start + key.1.2 + value.1.2 := by omega
        have hleft : ∀ entries, EndsIn payload (1 + fuel * (2 * k + 3))
            (Traced.tell (.turn (key.1.2 + value.1.2) true) >>= fun _ =>
              .pure (entries, start + key.1.2 + value.1.2, value.2))
            (fun after : Entries × Nat × Classes => start ≤ after.2.1) :=
          fun _ => .note_bind trivial (.inr rfl) (.pure hboth)
        split
        next => exact hleft _
        rename_i hin
        refine .ok_bind (index_byteAt (Nat.lt_of_not_le hin)) ?_
        split
        next => exact hleft _
        -- the loop goes on inside the payload, so the key was read there
        have hs : start < payload.length := by omega
        have hpos : 0 < key.1.2 := hkey hs (advancing_element.mp hkeyed hs).2
        refine .note_bind trivial (.inl (by omega)) ?_
        refine (ih (hbound.mono hboth) (hfuel.turn hs (by omega)) _).mono fun after hle => ?_
        exact le_trans hboth hle
      · -- the value that does not advance is the next key
        obtain ⟨hin, hnot⟩ := standing_of_not_advancing hbad
        have hnot' : ¬ Advances payload (start + key.1.2) key.2.length := fun h => hnot ⟨hin, h⟩
        obtain ⟨value, hvalue⟩ := hread.stands hbound.1 _ key.2 hnot
        refine .bind hvalue (.lift_bind (add_zero_ok (by omega)) ?_)
        rw [if_neg (by omega)]
        refine .lift_bind (index_byteAt hin) ?_
        rw [if_neg (ne_end_of_not_advances hnot')]
        exact .tell_bind (mapLoop_stuck hread hL hbound.1 hin hnot' fuel _)
    · obtain ⟨hs, hnot⟩ := standing_of_not_advancing hbad
      have hstuck := mapLoop_stuck hread hL hbound.1 hs (fun h => hnot ⟨hs, h⟩) (fuel + 1) entries
      unfold mapLoop at hstuck
      exact hstuck.of_tell trivial

theorem fieldsLoop_ends (hs : start < 2 ^ 64) (hfuel : Fuelled payload start fuel)
    (names : List Bytes) (entries : Entries) :
    EndsIn payload (fuel * (2 * k + 3)) (fieldsLoop read fuel names start entries classes)
      (fun after => start ≤ after.2.1) := by
  induction names generalizing fuel start entries classes with
  | nil =>
    rw [fieldsLoop]
    exact .pure (le_refl start)
  | cons name names ih =>
    cases fuel with
    | zero => exact absurd hfuel.1 (lt_irrefl 0)
    | succ fuel =>
      rw [fieldsLoop, ← turns_succ]
      refine Ends.le (k := 1 + (k + (1 + fuel * (2 * k + 3)))) ?_ (by omega)
      refine .tell_bind (fun _ => trivial) (fun helement => ?_) fun hbad => ?_
      · refine (hread.ends start classes hbound).bind fun got hgot => .add_bind fun hfit => ?_
        have hle : start ≤ start + got.1.2 := le_add_right _ _
        cases names with
        | nil =>
          refine .note_bind trivial (.inr rfl) ?_
          rw [fieldsLoop]
          exact .pure hle
        | cons second names =>
          have hpos : 0 < got.1.2 := hgot helement.1 helement.2
          have hlt : start < start + got.1.2 := Nat.lt_add_of_pos_right hpos
          refine .note_bind trivial (.inl hpos) ?_
          exact (ih (hbound.mono hle) hfit (hfuel.turn helement.1 hlt) _).mono
            fun after hafter => le_trans hle hafter
      · cases names with
        | nil => exact absurd trivial hbad
        | cons second names =>
          obtain ⟨value, hvalue⟩ := hread.stands hbound.1 start classes hbad
          refine .bind hvalue (.lift_bind (add_zero_ok hs) (.not_nice ?_))
          simp [Event.Progresses]

end Loops

variable (hL : payload.length < 2 ^ 63) (hread : ReaderEnds payload read fuel k)
  (hfuel : Fuelled payload (i + 1) fuel)

include hL hread hfuel

theorem decodeList_ends (h : i < payload.length) :
    EndsIn payload (fuel * (2 * k + 3)) (decodeList payload read fuel i classes)
      (fun got => AdvancesList payload i → 0 < got.1) := by
  have hsettles := listHeader_settles hL h
  refine .lift_bind hsettles.ne_outOfFuel fun header hheader => ?_
  have hinside := hsettles.post hheader
  cases header with
  | done len =>
    refine .pure fun hadvances => Nat.pos_of_ne_zero (n := len) fun hzero => ?_
    rw [hzero] at hheader
    exact (listHeader_done hL h).mp hheader hadvances
  | elements start count =>
    have hstart := hfuel.mono (show i + 1 ≤ start from hinside.1)
    refine (listLoop_ends hread hstart hL hstart count).bind_quiet fun after hle => ?_
    refine .sub_bind (.pure fun _ => ?_)
    exact Nat.sub_pos_of_lt (lt_of_lt_of_le hinside.1 hle)

theorem decodeMap_ends (h : i < payload.length) :
    EndsIn payload (fuel * (2 * k + 3)) (decodeMap payload read fuel i classes)
      (fun got => i + 1 < payload.length → 0 < got.1.2) := by
  obtain ⟨header, hheader, hinside⟩ := mapHeader_ok hL h
  refine .ok_bind hheader ?_
  cases header with
  | none =>
    refine .pure fun hnext => ?_
    exact absurd ((mapHeader_none hL h).mp hheader) (not_le_of_gt hnext)
  | some start =>
    have hstart := hfuel.mono (show i + 1 ≤ start from (hinside start rfl).1)
    refine (mapLoop_ends hread hstart hL hstart []).bind_quiet fun after _ => ?_
    refine .sub_bind (.add_bind fun _ => .pure fun _ => ?_)
    exact succ_pos _

theorem decodeClass_ends :
    EndsIn payload k (decodeClass payload read i classes)
      (fun got => (∀ name, decodeString payload (i + 1) = .ok name →
        i + 1 + name.2 < payload.length) → 0 < got.1.2) := by
  have hsettles := classHeader_settles (i := i) hL
  refine .lift_bind hsettles.ne_outOfFuel fun header hheader => ?_
  cases header with
  | none =>
    obtain ⟨name, hname, hend⟩ := (classHeader_none hL).mp hheader
    exact .pure fun hnames => absurd (hnames name hname) (not_lt_of_ge hend)
  | some header =>
    obtain ⟨names, start⟩ := header
    obtain ⟨hlt, -⟩ := hsettles.post hheader names start rfl
    refine (hread.ends start _ (hfuel.mono hlt)).bind_quiet fun got _ => .add_bind fun _ => ?_
    refine .sub_bind (.pure fun _ => ?_)
    exact Nat.sub_pos_of_lt (by omega)

theorem decodeInstance_ends (h : i < payload.length) {tag : BitVec 8} :
    EndsIn payload (fuel * (2 * k + 3)) (decodeInstance payload read fuel i tag classes)
      (fun got => (∀ header, objectHeader payload i tag = .ok header →
        header.2 < classes.length) → 0 < got.1.2) := by
  have hsettles := objectHeader_settles hL h tag
  refine .lift_bind hsettles.ne_outOfFuel fun header hheader => ?_
  obtain ⟨hlt, hle⟩ := hsettles.post hheader
  cases hclass : classes[header.2]? with
  | none =>
    refine .pure fun hknown => ?_
    exact absurd (hknown header hheader) (not_lt_of_ge (List.getElem?_eq_none_iff.mp hclass))
  | some names =>
    have hstart := hfuel.mono (show i + 1 ≤ header.1 from hlt)
    refine (fieldsLoop_ends hread hstart (by omega) hstart names []).bind_quiet
      fun after hafter => ?_
    refine .sub_bind (.pure fun _ => ?_)
    exact Nat.sub_pos_of_lt (lt_of_lt_of_le hlt hafter)

theorem decodeObj_ends (h : i < payload.length) (hkind : kindOf (byteAt payload i) = .object) :
    EndsIn payload (fuel * (2 * k + 3) + k) (decodeObj payload read fuel i classes)
      (fun got => AdvancesObject payload i classes.length → 0 < got.1.2) := by
  refine .ok_bind (index_byteAt h) ?_
  unfold AdvancesObject
  by_cases hdef : byteAt payload i = bcObjectDef
  · simp only [if_pos hdef]
    exact (decodeClass_ends hL hread hfuel).le (le_add_left _ _)
  · simp only [if_neg hdef, if_pos (object_tag hkind hdef)]
    exact (decodeInstance_ends hL hread hfuel h).le (le_add_right _ _)

end Loops

/-! ## One value -/

/-- The events of a run: a call notes its place, and reads the chunks of one
binary value or turns one loop, each turn with at most two calls. -/
def eventBound (length : Nat) : Nat → Nat
  | 0 => 0
  | fuel + 1 => 1 + ((length + 1) + fuel * (2 * eventBound length fuel + 3) +
      eventBound length fuel)

theorem fieldBody_ends {read : Reader} {fuel k : Nat} (hL : payload.length < 2 ^ 63)
    (hread : ReaderEnds payload read fuel k) (classes : Classes) (h : start < payload.length)
    (hfuel : Fuelled payload (start + 1) fuel) :
    EndsIn payload ((payload.length + 1) + fuel * (2 * k + 3) + k)
      (fieldBody payload read fuel start classes (kindOf (byteAt payload start)))
      (fun got => Advances payload start classes.length → 0 < got.1.2) := by
  unfold Advances
  generalize hkind : kindOf (byteAt payload start) = kind
  cases kind with
  | ref => exact .ok_bind (decodeI32_ref h hkind) (.pure nofun)
  | int =>
    refine .lift_bind (decodeI32_reads h).ne_fuel fun got hgot => .pure fun hplace => ?_
    exact (decodeI32_measures h hkind).pos hplace got hgot
  | long =>
    refine .lift_bind (decodeI64_reads h).ne_fuel fun got hgot => .pure fun hplace => ?_
    exact (decodeI64_measures h hkind).pos hplace got hgot
  | date =>
    refine .lift_bind (decodeDatetime_settles h).ne_outOfFuel fun got hgot => ?_
    exact .pure fun hplace => (decodeDatetime_measures h hkind).pos hplace got hgot
  | double =>
    refine .lift_bind (decodeF64_reads h).ne_fuel fun got hgot => .pure fun hplace => ?_
    exact (decodeF64_measures h hkind).pos hplace got hgot
  | binary =>
    refine Ends.le (k := payload.length + 1) ?_ (by omega)
    exact (decodeBinary_chunks h).endsIn.bind_quiet fun got hpos => .pure hpos
  | string =>
    obtain ⟨⟨text, len⟩, hstring, -, hpos⟩ := decodeString_reads hL h
    refine .ok_bind hstring ?_
    cases text with
    | none => exact .pure fun _ => zero_lt_of_lt h
    | some text => exact .pure fun _ => hpos rfl
  | list =>
    refine Ends.le (k := fuel * (2 * k + 3)) ?_ (by omega)
    exact (decodeList_ends hL hread hfuel h).bind_quiet fun got hpos => .pure hpos
  | map =>
    refine Ends.le (k := fuel * (2 * k + 3)) ?_ (by omega)
    exact (decodeMap_ends hL hread hfuel h).bind_quiet fun got hpos => .pure hpos
  | object =>
    refine Ends.le (k := fuel * (2 * k + 3) + k) ?_ (by omega)
    exact (decodeObj_ends hL hread hfuel h hkind).bind_quiet fun got hpos => .pure hpos
  | unknown => exact .pure fun _ => zero_lt_of_lt h
  | _ => exact .pure fun _ => one_pos

/-- Where a value does not advance, it is read without another one, and nothing is taken. -/
theorem fieldBody_stands {read : Reader} {fuel : Nat} (hL : payload.length < 2 ^ 63)
    (classes : Classes) (h : start < payload.length)
    (hnot : ¬ Advances payload start classes.length) :
    ∃ value, (fieldBody payload read fuel start classes
      (kindOf (byteAt payload start))).result = .ok ((value, 0), classes) := by
  unfold Advances at hnot
  generalize hkind : kindOf (byteAt payload start) = kind at hnot
  have hnumber : ∀ {α : Type} {x : Exec (α × Nat)} (f : α → Option HessianValue),
      (∃ n, x = .ok (n, 0)) → ∃ value,
        (Traced.lift x >>= fun got => .pure ((f got.1, got.2), classes) :
          Traced Event (Decoded × Classes)).result = .ok ((value, 0), classes) := by
    rintro _ _ f ⟨n, rfl⟩
    exact ⟨f n, rfl⟩
  cases kind with
  | ref => exact hnumber (fun _ => none) ⟨0, decodeI32_ref h hkind⟩
  | int => exact hnumber (some ∘ .int) ((decodeI32_measures h hkind).zero hnot)
  | long => exact hnumber (some ∘ .long) ((decodeI64_measures h hkind).zero hnot)
  | date => exact hnumber (some ∘ .dateTime) ((decodeDatetime_measures h hkind).zero hnot)
  | double => exact hnumber (some ∘ .double) ((decodeF64_measures h hkind).zero hnot)
  | binary =>
    obtain ⟨data, hdata⟩ := (decodeBinary_chunks h).measures.zero hnot
    rw [fieldBody, bind_of_ok hdata]
    exact ⟨_, rfl⟩
  | list =>
    rw [fieldBody, decodeList, lift_bind_of_ok ((listHeader_done hL h).mpr hnot)]
    exact ⟨_, rfl⟩
  | map =>
    rw [fieldBody, decodeMap, lift_bind_of_ok ((mapHeader_none hL h).mpr (not_lt.mp hnot))]
    exact ⟨_, rfl⟩
  | object =>
    unfold AdvancesObject at hnot
    rw [fieldBody, decodeObj, lift_bind_of_ok (index_byteAt h)]
    by_cases hdef : byteAt payload start = bcObjectDef
    · rw [if_pos hdef] at hnot ⊢
      push Not at hnot
      rw [decodeClass, lift_bind_of_ok ((classHeader_none hL).mpr hnot)]
      exact ⟨_, rfl⟩
    · rw [if_neg hdef] at hnot ⊢
      push Not at hnot
      obtain ⟨header, hheader, hknown⟩ := hnot
      rw [if_pos (object_tag hkind hdef), decodeInstance, lift_bind_of_ok hheader,
        List.getElem?_eq_none hknown]
      exact ⟨_, rfl⟩
  | _ => exact absurd trivial hnot

/-- Induction on the fuel, which a call at a larger index has one less of. -/
theorem decodeField_ends (hL : payload.length < 2 ^ 63) {fuel : Nat} :
    ReaderEnds payload (decodeField payload fuel) fuel (eventBound payload.length fuel) := by
  induction fuel with
  | zero => exact ⟨fun _ _ hfuel => absurd hfuel.1 (lt_irrefl 0), fun h => absurd h (lt_irrefl 0)⟩
  | succ fuel ih =>
    refine ⟨fun start classes hfuel => ?_, fun _ start classes hnot => ?_⟩
    · unfold decodeField
      split
      next hout => exact .pure fun hin => absurd hin (not_lt.mpr hout)
      rename_i hin
      have hs : start < payload.length := Nat.lt_of_not_le hin
      refine .note_bind trivial trivial (.ok_bind (index_byteAt hs) ?_)
      have hless : Fuelled payload (start + 1) fuel := hfuel.turn hs (lt_succ_self start)
      exact (fieldBody_ends hL ih classes hs hless).mono fun _ hpos _ => hpos
    · unfold decodeField
      split
      next => exact ⟨none, rfl⟩
      rename_i hin
      have hs : start < payload.length := Nat.lt_of_not_le hin
      rw [tell_bind_eq, lift_bind_of_ok (index_byteAt hs)]
      exact fieldBody_stands hL classes hs fun hplace => hnot ⟨hs, hplace⟩

/-! ## Termination -/

/-- The loop of a map over a number that is cut off comes back to where it was. -/
theorem truncated_mapLoop (n fuel : Nat) :
    (mapLoop [0x48#8, 0xc0#8] (decodeField [0x48#8, 0xc0#8] (n + 1)) fuel 1 [] []).result =
      .error .outOfFuel := by
  induction fuel with
  | zero => rfl
  | succ fuel ih =>
    calc (mapLoop [0x48#8, 0xc0#8] (decodeField [0x48#8, 0xc0#8] (n + 1)) (fuel + 1) 1 []
          []).result
        = (mapLoop [0x48#8, 0xc0#8] (decodeField [0x48#8, 0xc0#8] (n + 1)) fuel 1 []
          []).result := rfl
      _ = .error .outOfFuel := ih

end ZeroTrace.Hessian2
