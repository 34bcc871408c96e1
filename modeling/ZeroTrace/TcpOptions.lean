import ZeroTrace.SliceReads

/-!
# The options of a TCP header

`update_tcp_opt` walks through the options of a TCP header.  Each option has a kind, and most
have a length, which says where the next one begins; values of known kinds are recorded.  The
options end where the data offset of the header says, or with the captured bytes.

`reads` is a ghost: the places of all bytes that were looked at.
-/

namespace ZeroTrace.Headers

open RustExec Slices List

structure MetaPacketTcpHeader where
  seq : BitVec 32 := 0
  ack : BitVec 32 := 0
  winSize : BitVec 16 := 0
  mss : BitVec 16 := 0
  flags : BitVec 8 := 0
  dataOffset : BitVec 8 := 0
  winScale : BitVec 8 := 0
  sackPermitted : Bool := false
  sack : Option Bytes := none
  deriving DecidableEq

/-- What the options are recorded in.  `toa` is the address of the client that a proxy has put
into an option: the port and the address of `src_nat`. -/
structure OptionState where
  tcpOptionsFlag : BitVec 8 := 0
  header : MetaPacketTcpHeader := {}
  toa : Option (BitVec 16 × BitVec 32) := none
  reads : List Nat := []
  deriving DecidableEq

namespace OptionState

/-- Bytes are looked at. -/
def saw (s : OptionState) (i n : Nat) : OptionState :=
  { s with reads := s.reads ++ List.range' i n }

end OptionState

/-- The kinds of options that `update_tcp_opt` tells apart. -/
inductive OptionKind where
  | eol
  | nop
  | mss
  | wscale
  | sackPermitted
  | sack
  | address
  | unknown
  deriving DecidableEq

/-- `TcpOptionNumber::new`; `TCP_OPT_ADDRESS_HUAWEI` is 254 and `TCP_OPT_ADDRESS_IPVS` 200. -/
def OptionKind.new (kind : BitVec 8) : OptionKind :=
  if kind = 0 then .eol
  else if kind = 1 then .nop
  else if kind = 2 then .mss
  else if kind = 3 then .wscale
  else if kind = 4 then .sackPermitted
  else if kind = 5 then .sack
  else if kind = 254 ∨ kind = 200 then .address
  else .unknown

/-- The branches of the loop of `update_tcp_opt`, by the kind of an option: where the next one
begins, unless the options end here. -/
def recordOption (packet : Bytes) (payloadOffset offset : Nat) (kind : OptionKind)
    (assumeLength : Nat) (s : OptionState) : Exec (Option Nat × OptionState) :=
  match kind with
  | .eol => .ok (none, s)
  | .nop => .ok (some (offset + 1), s)
  | .mss =>
    if offset + 4 > payloadOffset then .ok (none, s)
    else
      u16At packet (offset + 2) >>= fun mss =>
        .ok (some (offset + 4), { s.saw (offset + 2) 2 with
          tcpOptionsFlag := s.tcpOptionsFlag ||| 2
          header := { s.header with mss := mss } })
  | .wscale =>
    if offset + 3 > payloadOffset then .ok (none, s)
    else
      index packet (offset + 2) >>= fun winScale =>
        .ok (some (offset + 3), { s.saw (offset + 2) 1 with
          tcpOptionsFlag := s.tcpOptionsFlag ||| 1
          header := { s.header with winScale := winScale } })
  | .sackPermitted =>
    .ok (some (offset + 2), { s with
      tcpOptionsFlag := s.tcpOptionsFlag ||| 4
      header := { s.header with sackPermitted := true } })
  | .sack =>
    if offset + assumeLength > payloadOffset then .ok (none, s)
    else if assumeLength - 2 > 32 then .ok (none, s)
    else
      slice packet (offset + 2) (offset + 2 + (assumeLength - 2)) >>= fun sack =>
        .ok (some (offset + assumeLength), { s.saw (offset + 2) (assumeLength - 2) with
          tcpOptionsFlag := s.tcpOptionsFlag ||| BitVec.ofNat 8 (assumeLength - 2)
          header := { s.header with sack := some sack } })
  | .address =>
    if assumeLength = 8 then
      u16At packet (offset + 2) >>= fun port =>
        u32At packet (offset + 4) >>= fun ip =>
          .ok (some (offset + assumeLength), { s.saw (offset + 2) 6 with toa := some (port, ip) })
    else .ok (some (offset + assumeLength), s)
  | .unknown => .ok (some (offset + assumeLength), s)

/-- One turn of the loop of `update_tcp_opt`. -/
def updateOption (packet : Bytes) (payloadOffset offset : Nat) (s : OptionState) :
    Exec (Option Nat × OptionState) :=
  index packet (offset + 1) >>= fun length =>
    index packet offset >>= fun kind =>
      recordOption packet payloadOffset offset (.new kind) (max length.toNat 2) (s.saw offset 2)

/-- The loop of `update_tcp_opt`. -/
def updateOptions (packet : Bytes) (payloadOffset : Nat) :
    Nat → Nat → OptionState → Exec OptionState
  | fuel, offset, s =>
    if offset + 1 < payloadOffset then
      match fuel with
      | 0 => .error .outOfFuel
      | fuel + 1 =>
        updateOption packet payloadOffset offset s >>= fun r =>
          match r.1 with
          | none => .ok r.2
          | some next => updateOptions packet payloadOffset fuel next r.2
    else .ok s

/-- `update_tcp_opt`, of options that begin at `offset`. -/
def updateTcpOpt (packet : Bytes) (offset l4OptSize : Nat) (s : OptionState) : Exec OptionState :=
  updateOptions packet (min (offset + l4OptSize) packet.length) l4OptSize offset s

/-! ### The walk -/

section Walk

variable {packet : Bytes} {stop offset o next fuel : Nat} {s : OptionState}

/-- The length that an option at a place says it has. -/
def lengthAt (packet : Bytes) (o : Nat) : Nat := max (byteAt packet (o + 1)).toNat 2

def OptionKind.following (stop o : Nat) (kind : OptionKind) (length : Nat) : Option Nat :=
  match kind with
  | .eol => none
  | .nop => some (o + 1)
  | .mss => if o + 4 > stop then none else some (o + 4)
  | .wscale => if o + 3 > stop then none else some (o + 3)
  | .sackPermitted => some (o + 2)
  | .sack => if o + length > stop ∨ length - 2 > 32 then none else some (o + length)
  | .address | .unknown => some (o + length)

/-- How many bytes of its value are read of an option of a kind and a length. -/
def OptionKind.valueSize (stop o : Nat) (kind : OptionKind) (length : Nat) : Nat :=
  match kind with
  | .mss => if o + 4 > stop then 0 else 2
  | .wscale => if o + 3 > stop then 0 else 1
  | .sack => if o + length > stop ∨ length - 2 > 32 then 0 else length - 2
  | .address => if length = 8 then 6 else 0
  | _ => 0

/-- Where the option after the one at `o` begins. -/
def nextOption (packet : Bytes) (stop o : Nat) : Option Nat :=
  OptionKind.following stop o (.new (byteAt packet o)) (lengthAt packet o)

/-- The places of the bytes that are read of the option at `o`. -/
def readsAt (packet : Bytes) (stop o : Nat) : List Nat :=
  List.range' o (2 + OptionKind.valueSize stop o (.new (byteAt packet o)) (lengthAt packet o))

/-- An option begins at a place of the options from `offset` to `stop`. -/
inductive BeginsAt (packet : Bytes) (stop offset : Nat) : Nat → Prop
  | first (h : offset + 1 < stop) : BeginsAt packet stop offset offset
  | next {o next : Nat} (h : BeginsAt packet stop offset o)
      (hnext : nextOption packet stop o = some next) (hlt : next + 1 < stop) :
      BeginsAt packet stop offset next

/-- The option at a place holds an address. -/
def IsAddress (packet : Bytes) (o : Nat) : Prop :=
  OptionKind.new (byteAt packet o) = .address ∧ lengthAt packet o = 8

theorem two_le_lengthAt (packet : Bytes) (o : Nat) : 2 ≤ lengthAt packet o := le_max_right _ _

theorem lt_nextOption (h : nextOption packet stop o = some next) : o < next := by
  have hlength := two_le_lengthAt packet o
  unfold nextOption at h
  generalize lengthAt packet o = length at h hlength
  cases hkind : OptionKind.new (byteAt packet o) <;> grind [OptionKind.following]

theorem recordOption_ok {kind : OptionKind} {length : Nat} (hlength : 2 ≤ length)
    (hstop : stop ≤ packet.length)
    (haddress : kind = .address → length = 8 → o + 8 ≤ packet.length) (s : OptionState) :
    ∃ s', recordOption packet stop o kind length s = .ok (kind.following stop o length, s') ∧
      s'.reads = s.reads ++ List.range' (o + 2) (kind.valueSize stop o length) := by
  have hnone : s.reads = s.reads ++ range' (o + 2) 0 := (append_nil _).symm
  unfold recordOption OptionKind.following OptionKind.valueSize
  cases kind with
  | mss =>
    dsimp only
    split
    · exact ⟨s, rfl, hnone⟩
    · rw [u16At_ok (by omega)]
      exact ⟨_, rfl, rfl⟩
  | wscale =>
    dsimp only
    split
    · exact ⟨s, rfl, hnone⟩
    · rw [index_byteAt (by omega)]
      exact ⟨_, rfl, rfl⟩
  | sackPermitted => exact ⟨_, rfl, hnone⟩
  | sack =>
    by_cases hfit : o + length > stop
    · rw [if_pos hfit, if_pos (Or.inl hfit), if_pos (Or.inl hfit)]
      exact ⟨s, rfl, hnone⟩
    by_cases hlarge : length - 2 > 32
    · rw [if_neg hfit, if_pos hlarge, if_pos (Or.inr hlarge), if_pos (Or.inr hlarge)]
      exact ⟨s, rfl, hnone⟩
    · have hboth := not_or.mpr ⟨hfit, hlarge⟩
      rw [if_neg hfit, if_neg hlarge, if_neg hboth, if_neg hboth, slice_ok (by omega) (by omega)]
      exact ⟨_, rfl, rfl⟩
  | address =>
    dsimp only
    split
    next height =>
      have hinside := haddress rfl height
      rw [u16At_bind (by omega), u32At_ok (by omega)]
      exact ⟨_, rfl, rfl⟩
    · exact ⟨s, rfl, hnone⟩
  | _ => exact ⟨s, rfl, hnone⟩

/-- **One option.** -/
theorem updateOption_ok (hlt : o + 1 < stop) (hstop : stop ≤ packet.length)
    (haddress : IsAddress packet o → o + 8 ≤ packet.length) (s : OptionState) :
    ∃ s', updateOption packet stop o s = .ok (nextOption packet stop o, s') ∧
      s'.reads = s.reads ++ readsAt packet stop o := by
  obtain ⟨s', hok, hreads⟩ := recordOption_ok (two_le_lengthAt packet o) hstop
    (fun hkind height => haddress ⟨hkind, height⟩) (s.saw o 2)
  refine ⟨s', ?_, ?_⟩
  · rw [updateOption, index_bind (by omega), index_bind (by omega)]
    exact hok
  · rw [hreads, readsAt, OptionState.saw, append_assoc, range'_append_1]

theorem updateOption_fails (hlt : o + 1 < packet.length) (haddress : IsAddress packet o)
    (hbeyond : packet.length < o + 8) (s : OptionState) :
    ∃ e, updateOption packet stop o s = .error e := by
  have height : max (byteAt packet (o + 1)).toNat 2 = 8 := haddress.2
  obtain ⟨e, he⟩ := (u32At_exactly packet (o + 4)).exists_error (Nat.not_le.mpr hbeyond)
  rw [updateOption, index_bind hlt, index_bind (by omega), haddress.1,
    recordOption, if_pos height]
  by_cases hport : o + 2 + 2 ≤ packet.length
  · rw [u16At_bind hport, he]
    exact ⟨e, rfl⟩
  · obtain ⟨e', he'⟩ := (u16At_exactly packet (o + 2)).exists_error hport
    rw [he']
    exact ⟨e', rfl⟩

theorem readsAt_lt_iff (hlt : o + 1 < stop) :
    (∀ i ∈ readsAt packet stop o, i < stop) ↔ (IsAddress packet o → o + 8 ≤ stop) := by
  have hmem : (∀ i ∈ readsAt packet stop o, i < stop) ↔
      o + 2 + OptionKind.valueSize stop o (.new (byteAt packet o)) (lengthAt packet o) ≤ stop := by
    unfold readsAt
    constructor
    · intro h
      have hlast := h (o + 1 + OptionKind.valueSize stop o (.new (byteAt packet o))
        (lengthAt packet o)) (by rw [mem_range'_1]; omega)
      omega
    · intro h i hi
      rw [mem_range'_1] at hi
      omega
  rw [hmem, IsAddress]
  cases hkind : OptionKind.new (byteAt packet o) <;> grind [OptionKind.valueSize]

theorem beginsAt_iff : BeginsAt packet stop offset o ↔
    offset + 1 < stop ∧ (o = offset ∨
      ∃ next, nextOption packet stop offset = some next ∧ BeginsAt packet stop next o) := by
  constructor
  · intro h
    induction h with
    | first h => exact ⟨h, .inl rfl⟩
    | @next o next h hnext hlt ih =>
      refine ⟨ih.1, .inr ?_⟩
      rcases ih.2 with rfl | ⟨second, hsecond, hbegins⟩
      · exact ⟨next, hnext, .first hlt⟩
      · exact ⟨second, hsecond, hbegins.next hnext hlt⟩
  · rintro ⟨hlt, rfl | ⟨next, hnext, hbegins⟩⟩
    · exact .first hlt
    · induction hbegins with
      | first h => exact .next (.first hlt) hnext h
      | next h hnext' hlt' ih => exact .next ih hnext' hlt'

theorem BeginsAt.lt (h : BeginsAt packet stop offset o) : o + 1 < stop := by
  cases h with
  | first h => exact h
  | next _ _ h => exact h

/-- The addresses among the options end before `limit`. -/
def AddressesFit (packet : Bytes) (stop offset limit : Nat) : Prop :=
  ∀ o, BeginsAt packet stop offset o → IsAddress packet o → o + 8 ≤ limit

theorem addressesFit_step (hlt : offset + 1 < stop) {limit : Nat} :
    AddressesFit packet stop offset limit ↔
      (IsAddress packet offset → offset + 8 ≤ limit) ∧
        ∀ next, nextOption packet stop offset = some next →
          AddressesFit packet stop next limit := by
  constructor
  · intro h
    refine ⟨fun haddress => h offset (.first hlt) haddress, fun next hnext o ho => ?_⟩
    exact h o (beginsAt_iff.mpr ⟨hlt, .inr ⟨next, hnext, ho⟩⟩)
  · rintro ⟨hfirst, hrest⟩ o ho
    rcases (beginsAt_iff.mp ho).2 with rfl | ⟨next, hnext, ho'⟩
    · exact hfirst
    · exact hrest next hnext o ho'

/-- **The walk**: it ends, and reads the bytes of the options it meets. -/
theorem updateOptions_ok (hstop : stop ≤ packet.length)
    (hfit : AddressesFit packet stop offset packet.length) (hfuel : stop - offset ≤ fuel)
    (s : OptionState) :
    ∃ s', updateOptions packet stop fuel offset s = .ok s' ∧
      ∀ i, i ∈ s'.reads ↔
        i ∈ s.reads ∨ ∃ o, BeginsAt packet stop offset o ∧ i ∈ readsAt packet stop o := by
  induction fuel generalizing offset s with
  | zero =>
    have hend : ¬ offset + 1 < stop := by omega
    rw [updateOptions, if_neg hend]
    refine ⟨s, rfl, fun i => ?_⟩
    simp only [@beginsAt_iff packet stop offset, hend, false_and, exists_false, or_false]
  | succ fuel ih =>
    rw [updateOptions]
    by_cases hlt : offset + 1 < stop
    · obtain ⟨hfirst, hrest⟩ := (addressesFit_step hlt).mp hfit
      obtain ⟨s', hok, hreads⟩ := updateOption_ok hlt hstop hfirst s
      rw [if_pos hlt, hok, ok_bind]
      simp only [@beginsAt_iff packet stop offset, hlt, true_and]
      cases hnext : nextOption packet stop offset with
      | none =>
        refine ⟨s', rfl, fun i => ?_⟩
        rw [hreads, mem_append]
        simp
      | some next =>
        have hadvance := lt_nextOption hnext
        obtain ⟨s'', hok', hreads'⟩ := ih (hrest next hnext) (by omega) s'
        refine ⟨s'', hok', fun i => ?_⟩
        rw [hreads' i, hreads, mem_append, or_assoc]
        simp [or_and_right, exists_or]
    · rw [if_neg hlt]
      refine ⟨s, rfl, fun i => ?_⟩
      simp only [@beginsAt_iff packet stop offset, hlt, false_and, exists_false, or_false]

theorem updateOptions_fails (hstop : stop ≤ packet.length)
    (hfit : ¬ AddressesFit packet stop offset packet.length) (fuel : Nat) (s : OptionState) :
    ∃ e, updateOptions packet stop fuel offset s = .error e := by
  have hlt : offset + 1 < stop := by
    by_contra hend
    exact hfit fun o ho => absurd (beginsAt_iff.mp ho).1 hend
  induction fuel generalizing offset s with
  | zero =>
    rw [updateOptions, if_pos hlt]
    exact ⟨.outOfFuel, rfl⟩
  | succ fuel ih =>
    rw [updateOptions, if_pos hlt]
    by_cases hfirst : IsAddress packet offset → offset + 8 ≤ packet.length
    · obtain ⟨s', hok, -⟩ := updateOption_ok hlt hstop hfirst s
      rw [addressesFit_step hlt, not_and] at hfit
      obtain ⟨next, hnext⟩ := not_forall.mp (hfit hfirst)
      obtain ⟨hnext, hrest⟩ := Classical.not_imp.mp hnext
      have hlt' : next + 1 < stop := by
        by_contra hend
        exact hrest fun o ho => absurd (beginsAt_iff.mp ho).1 hend
      rw [hok, ok_bind, hnext]
      exact ih hrest s' hlt'
    · obtain ⟨haddress, hbeyond⟩ := Classical.not_imp.mp hfirst
      obtain ⟨e, he⟩ := updateOption_fails (by omega) haddress (Nat.not_le.mp hbeyond) s
      rw [he]
      exact ⟨e, rfl⟩

variable {l4OptSize : Nat}

theorem updateTcpOpt_ok_iff (h : offset + l4OptSize ≤ packet.length) :
    (∃ s', updateTcpOpt packet offset l4OptSize s = .ok s') ↔
      AddressesFit packet (offset + l4OptSize) offset packet.length := by
  have hfuel : offset + l4OptSize - offset ≤ l4OptSize := by omega
  unfold updateTcpOpt
  rw [Nat.min_eq_left h]
  constructor
  · rintro ⟨s', hok⟩
    by_contra hfit
    obtain ⟨e, he⟩ := updateOptions_fails h hfit l4OptSize s
    rw [he] at hok
    cases hok
  · intro hfit
    obtain ⟨s', hok, -⟩ := updateOptions_ok h hfit hfuel s
    exact ⟨s', hok⟩

/-- **The walk stays inside the options** if and only if the addresses among them do. -/
theorem updateTcpOpt_inside_iff (h : offset + l4OptSize ≤ packet.length) (hs : s.reads = []) :
    (∃ s', updateTcpOpt packet offset l4OptSize s = .ok s' ∧
        ∀ i ∈ s'.reads, i < offset + l4OptSize) ↔
      AddressesFit packet (offset + l4OptSize) offset (offset + l4OptSize) := by
  have hcaptured : AddressesFit packet (offset + l4OptSize) offset (offset + l4OptSize) →
      AddressesFit packet (offset + l4OptSize) offset packet.length :=
    fun hfit o ho haddress => (hfit o ho haddress).trans h
  have hfuel : offset + l4OptSize - offset ≤ l4OptSize := by omega
  have hreads : ∀ s' : OptionState, (∀ i, i ∈ s'.reads ↔ i ∈ s.reads ∨
      ∃ o, BeginsAt packet (offset + l4OptSize) offset o ∧
        i ∈ readsAt packet (offset + l4OptSize) o) →
      ((∀ i ∈ s'.reads, i < offset + l4OptSize) ↔
        AddressesFit packet (offset + l4OptSize) offset (offset + l4OptSize)) := by
    intro s' hmem
    simp only [hmem, hs, not_mem_nil, false_or]
    constructor
    · intro hinside o ho
      exact (readsAt_lt_iff ho.lt).mp fun i hi => hinside i ⟨o, ho, hi⟩
    · rintro hfit i ⟨o, ho, hi⟩
      exact (readsAt_lt_iff ho.lt).mpr (hfit o ho) i hi
  unfold updateTcpOpt
  rw [Nat.min_eq_left h]
  constructor
  · rintro ⟨s', hok, hinside⟩
    have hfit := (updateTcpOpt_ok_iff h).mp ⟨s', by rw [updateTcpOpt, Nat.min_eq_left h]; exact hok⟩
    obtain ⟨s'', hok', hmem⟩ := updateOptions_ok h hfit hfuel s
    rw [hok] at hok'
    cases hok'
    exact (hreads s' hmem).mp hinside
  · intro hfit
    obtain ⟨s', hok, hmem⟩ := updateOptions_ok h (hcaptured hfit) hfuel s
    exact ⟨s', hok, (hreads s' hmem).mpr hfit⟩

end Walk

end ZeroTrace.Headers
