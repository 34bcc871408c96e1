import Mathlib.Data.List.Sort
import Mathlib.Data.List.TakeWhile
import ZeroTrace.MatchedField

/-!
# The first path of the policy

The rules of a policy are expanded into match fields, one for each combination of address
and port segments.  `FirstPath` finds the match fields of a packet through a table: it
chooses some bits that split the match fields well, files each match field under all values
that these bits can have in its packets, and looks a packet up under the value of its bits.

The code for IPv4 and for IPv6 is the same up to the size of the addresses.  Whether there
is memory for a table is an answer from outside.
-/

namespace ZeroTrace.Policy

open RustExec FlowGenerator

structure PortRange where
  min : BitVec 16
  max : BitVec 16

/-- `PortSegment`: the ports with some upper bits. -/
structure PortSegment where
  port : BitVec 16
  mask : BitVec 16

namespace PortSegment

/-- `PortSegment::ALL`. -/
def all : PortSegment := ⟨0, 0⟩

def calcRightZero (port : BitVec 16) : Nat :=
  ((List.range 16).takeWhile fun i => (port >>> i) &&& 1 == 0).length

/-- The loop of `calc_mask`. -/
def calcMaskLoop (port maxPort : BitVec 16) (count : Nat) : List Nat → Exec (BitVec 16 × Nat)
  | [] => .ok (0xffff, 0)
  | i :: is =>
    checkedAdd 16 port.toNat (((1#32 <<< (count - i)) - 1).setWidth 16 : BitVec 16).toNat >>=
      fun last =>
        if last ≤ maxPort.toNat then .ok ((0xffff#32 <<< (count - i)).setWidth 16, count - i)
        else calcMaskLoop port maxPort count is

def calcMask (port maxPort : BitVec 16) (count : Nat) : Exec (BitVec 16 × Nat) :=
  calcMaskLoop port maxPort count (List.range count)

/-- The loop of `new`, from the port `i` on. -/
def newLoop (maxPort : BitVec 16) : Nat → Nat → Exec (List PortSegment)
  | 0, _ => .error .outOfFuel
  | fuel + 1, i =>
    if i < maxPort.toNat + 1 then
      let port := BitVec.ofNat 16 i
      calcMask port maxPort (calcRightZero port) >>= fun (mask, n) =>
        newLoop maxPort fuel (i + 1 <<< n) >>= fun rest => .ok (⟨port, mask⟩ :: rest)
    else .ok []

def new (port : PortRange) : Exec (List PortSegment) :=
  newLoop port.max (port.max.toNat + 2 - port.min.toNat) port.min.toNat

section Exact

open BitVec Nat List

/-- The ports of a segment. -/
def Covers (segment : PortSegment) (q : BitVec 16) : Prop := q &&& segment.mask = segment.port

variable {port maxPort q : BitVec 16} {k : Nat}

theorem covers_iff (h : port.toNat % 2 ^ k = 0) :
    Covers ⟨port, (0xffff#32 <<< k).setWidth 16⟩ q ↔
      port.toNat ≤ q.toNat ∧ q.toNat < port.toNat + 2 ^ k := by
  have hmask : (0xffff#32 <<< k).setWidth 16 = allOnes 16 <<< k :=
    setWidth_shiftLeft_of_le (by decide)
  have hpos := Nat.two_pow_pos k
  have hlt := (Nat.div_mul_le_self q.toNat (2 ^ k)).trans_lt q.isLt
  have hport := Nat.div_mul_cancel (Nat.dvd_of_mod_eq_zero h)
  rw [Covers, hmask, ← shiftLeft_ushiftRight, ← toNat_inj, toNat_shiftLeft, toNat_ushiftRight,
    Nat.shiftLeft_eq, Nat.shiftRight_eq_div_pow, mod_eq_of_lt hlt, ← hport,
    Nat.mul_left_inj hpos.ne', Nat.div_eq_iff hpos]
  omega

theorem calcRightZero_spec (port : BitVec 16) :
    calcRightZero port ≤ 16 ∧ port.toNat % 2 ^ calcRightZero port = 0 := by
  refine ⟨(takeWhile_sublist _).length_le, ?_⟩
  apply Nat.eq_of_testBit_eq
  intro i
  rw [testBit_mod_two_pow, zero_testBit, testBit_toNat]
  by_cases hi : i < calcRightZero port
  · have hmem : i ∈ (range 16).takeWhile fun i => (port >>> i) &&& 1 == 0 := by
      refine mem_iff_getElem.mpr ⟨i, hi, ?_⟩
      rw [( takeWhile_prefix _).getElem hi, getElem_range]
    have hzero := mem_takeWhile_imp hmem
    have hbit := congrArg (getLsbD · 0) (eq_of_beq hzero)
    simpa [hi] using hbit
  · simp [hi]

theorem calcMaskLoop_ok (hle : port ≤ maxPort) {count : Nat} (hcount : count ≤ 16)
    (haligned : port.toNat % 2 ^ count = 0) {is : List Nat} :
    ∃ k ≤ count, calcMaskLoop port maxPort count is = .ok ((0xffff#32 <<< k).setWidth 16, k) ∧
      port.toNat + 2 ^ k ≤ maxPort.toNat + 1 := by
  induction is with
  | nil => exact ⟨0, zero_le _, rfl, by rw [le_def] at hle; omega⟩
  | cons i is ih =>
    have hones : ∀ m < 17, (((1#32 <<< m) - 1).setWidth 16 : BitVec 16).toNat = 2 ^ m - 1 := by
      decide
    have hpos := Nat.two_pow_pos (count - i)
    -- the port and the next power of two are multiples of the segment's size
    have hroom : port.toNat + 2 ^ (count - i) ≤ 2 ^ 16 := by
      have hdvd := pow_dvd_pow 2 (Nat.sub_le count i)
      have hport := hdvd.trans (Nat.dvd_of_mod_eq_zero haligned)
      have hall := pow_dvd_pow 2 ((Nat.sub_le count i).trans hcount)
      have hrest := Nat.le_of_dvd (Nat.sub_pos_of_lt port.isLt) (Nat.dvd_sub hall hport)
      omega
    rw [calcMaskLoop, hones _ (by omega), checkedAdd_ok (by omega), ok_bind]
    split_ifs with hlast
    · exact ⟨_, Nat.sub_le count i, rfl, by omega⟩
    · exact ih

/-- **The rest of a range.**  What the loop returns from a port on are the ports from there. -/
theorem newLoop_ok {fuel i : Nat} (hfuel : maxPort.toNat + 1 - i < fuel) :
    ∃ segments, newLoop maxPort fuel i = .ok segments ∧
      segments.Pairwise (fun a b => ∀ q, ¬ (a.Covers q ∧ b.Covers q)) ∧
      ∀ q, (∃ s ∈ segments, s.Covers q) ↔ i ≤ q.toNat ∧ q ≤ maxPort := by
  induction fuel generalizing i with
  | zero => omega
  | succ fuel ih =>
    rw [newLoop]
    split_ifs with hi
    · have hport : (BitVec.ofNat 16 i).toNat = i := by
        rw [toNat_ofNat, mod_eq_of_lt (by omega)]
      obtain ⟨hzeros, haligned⟩ := calcRightZero_spec (BitVec.ofNat 16 i)
      have hle : BitVec.ofNat 16 i ≤ maxPort := by
        rw [le_def]
        omega
      obtain ⟨k, hk, hmask, hfits⟩ := calcMaskLoop_ok hle hzeros haligned
      have hcovers := fun q => covers_iff (q := q)
        (Nat.mod_eq_zero_of_dvd ((pow_dvd_pow 2 hk).trans (Nat.dvd_of_mod_eq_zero haligned)))
      have hpos := Nat.two_pow_pos k
      obtain ⟨segments, hrest, hdisjoint, hunion⟩ := @ih (i + 1 <<< k)
        (by rw [one_shiftLeft]; omega)
      rw [one_shiftLeft] at hunion
      rw [hport] at hcovers hfits
      dsimp only
      rw [calcMask, hmask, ok_bind, hrest, ok_bind]
      refine ⟨_, rfl, pairwise_cons.mpr ⟨fun s hs q hboth => ?_, hdisjoint⟩, fun q => ?_⟩
      · have hfirst := (hcovers q).mp hboth.1
        have hlater := (hunion q).mp ⟨s, hs, hboth.2⟩
        omega
      · simp only [mem_cons, exists_eq_or_imp]
        rw [hcovers, hunion, le_def]
        omega
    · refine ⟨[], rfl, .nil, fun q => ?_⟩
      simp only [le_def, not_mem_nil, false_and, exists_false, false_iff]
      omega

/-- **Segments are the range.**  `PortSegment::new` ends without an overflow, and what it
returns are disjoint segments of exactly the ports of the range. -/
theorem new_exact (range : PortRange) (h : range.min ≤ range.max) :
    ∃ segments, new range = .ok segments ∧
      segments.Pairwise (fun a b => ∀ q, ¬ (a.Covers q ∧ b.Covers q)) ∧
      ∀ q, (∃ s ∈ segments, s.Covers q) ↔ range.min ≤ q ∧ q ≤ range.max := by
  rw [le_def] at h
  exact newLoop_ok (by omega)

/-- All ports. -/
theorem new_exact_all :
    ∃ segments, new ⟨0, 0xffff⟩ = .ok segments ∧
      segments.Pairwise (fun a b => ∀ q, ¬ (a.Covers q ∧ b.Covers q)) ∧
      ∀ q, (∃ s ∈ segments, s.Covers q) ↔ 0 ≤ q ∧ q ≤ 0xffff :=
  new_exact ⟨0, 0xffff⟩ (by decide)

end Exact

end PortSegment

/-- `EPC_ANY`, cut to a `u16`. -/
def epcAny : BitVec 16 := 0xffff

structure IpSegment where
  ip : IpAddr
  mask : IpAddr
  epcId : BitVec 16 := epcAny

def IpSegment.isIpv6 (segment : IpSegment) : Bool :=
  match segment.ip with
  | .v4 _ => false
  | .v6 _ => true

structure NpbAction where
  aclGids : List (BitVec 16) := []
  tunnelIpIds : List (BitVec 16) := []
  deriving DecidableEq

inductive DirectionType where
  | forward
  | backward
  | all

/-- `PolicyData`, without its flags. -/
structure PolicyData where
  npbActions : List NpbAction := []
  aclId : BitVec 32 := 0
  deriving DecidableEq

/-- `merge_npb_actions`.  Setting the side of an action does nothing. -/
def PolicyData.mergeNpbActions (policy : PolicyData) (actions : List NpbAction)
    (aclId : BitVec 32) (_direction : DirectionType) : PolicyData where
  npbActions := policy.npbActions ++ actions
  aclId := aclId

structure Acl where
  tapType : CaptureNetworkType := .cloud
  srcPortRanges : List PortRange := []
  dstPortRanges : List PortRange := []
  proto : BitVec 16 := 256
  matchField : List (Field 4) := []
  matchField6 : List (Field 16) := []
  policy : PolicyData := {}

namespace Acl

def protocolAny : BitVec 16 := 256

def portSegments (ranges : List PortRange) : Exec (List PortSegment) :=
  ranges.mapM PortSegment.new >>= fun segments =>
    .ok (if segments.flatten.isEmpty then [PortSegment.all] else segments.flatten)

def generatePortSegment (acl : Acl) : Exec (List PortSegment × List PortSegment) :=
  portSegments acl.srcPortRanges >>= fun srcSegments =>
    portSegments acl.dstPortRanges >>= fun dstSegments => .ok (srcSegments, dstSegments)

/-- The match field of two addresses with their masks and two ports. -/
def matchItem {n : Nat} (acl : Acl) (srcIp srcMask dstIp dstMask : Vector (BitVec 8) n)
    (srcEpc dstEpc : BitVec 16) (srcPort dstPort : PortSegment) : Field n :=
  let field : MatchedFieldN n := { srcIp := srcIp, dstIp := dstIp }
  let field := field.set .captureNetworkType acl.tapType.toU16
  let field := field.set .srcEpc (if srcEpc = epcAny then 0 else srcEpc)
  let field := field.set .dstEpc (if dstEpc = epcAny then 0 else dstEpc)
  let field := (field.set .srcPort srcPort.port).set .dstPort dstPort.port
  let mask : MatchedFieldN n := { srcIp := srcMask, dstIp := dstMask }
  let mask := mask.setMask .captureNetworkType (acl.tapType ≠ .any)
  let mask := (mask.setMask .srcEpc (srcEpc ≠ epcAny)).setMask .dstEpc (dstEpc ≠ epcAny)
  let mask := (mask.set .srcPort srcPort.mask).set .dstPort dstPort.mask
  if acl.proto = protocolAny then
    { field := field.set .proto 0, mask := mask.set .proto 0 }
  else { field := field.set .proto acl.proto, mask := mask.setMask .proto true }

/-- The match fields of two addresses, for all ports. -/
def matchItems {n : Nat} (acl : Acl) (srcIp srcMask dstIp dstMask : Vector (BitVec 8) n)
    (srcEpc dstEpc : BitVec 16) (srcPorts dstPorts : List PortSegment) : List (Field n) :=
  srcPorts.flatMap fun srcPort => dstPorts.map fun dstPort =>
    acl.matchItem srcIp srcMask dstIp dstMask srcEpc dstEpc srcPort dstPort

def generateMatchField (acl : Acl) (srcIp dstIp : IpSegment)
    (srcPorts dstPorts : List PortSegment) : Acl :=
  match srcIp.ip, dstIp.ip, srcIp.mask, dstIp.mask with
  | .v4 src, .v4 dst, .v4 srcMask, .v4 dstMask =>
    { acl with matchField := acl.matchField ++
        acl.matchItems src srcMask dst dstMask srcIp.epcId dstIp.epcId srcPorts dstPorts }
  | _, _, _, _ => acl

def generateMatchField6 (acl : Acl) (srcIp dstIp : IpSegment)
    (srcPorts dstPorts : List PortSegment) : Acl :=
  match srcIp.ip, dstIp.ip, srcIp.mask, dstIp.mask with
  | .v6 src, .v6 dst, .v6 srcMask, .v6 dstMask =>
    { acl with matchField6 := acl.matchField6 ++
        acl.matchItems src srcMask dst dstMask srcIp.epcId dstIp.epcId srcPorts dstPorts }
  | _, _, _, _ => acl

def generateMatch (acl : Acl) (srcIps dstIps : List IpSegment) : Exec Acl :=
  acl.generatePortSegment >>= fun (srcPorts, dstPorts) =>
    .ok (srcIps.foldl (fun acl srcIp => dstIps.foldl (fun acl dstIp =>
      match srcIp.isIpv6, dstIp.isIpv6 with
      | true, true => acl.generateMatchField6 srcIp dstIp srcPorts dstPorts
      | false, false => acl.generateMatchField srcIp dstIp srcPorts dstPorts
      | _, _ => acl) acl) acl)

end Acl

/-- `Table4Item` and `Table6Item`. -/
structure TableItem (n : Nat) where
  field : Field n
  policy : PolicyData
  deriving DecidableEq

/-- The match fields of all rules, each with the policy of its rule. -/
def items {n : Nat} (matchField : Acl → List (Field n)) (acls : List Acl) : List (TableItem n) :=
  acls.flatMap fun acl => (matchField acl).map fun field => ⟨field, acl.policy⟩

structure VectorN (n : Nat) where
  minBit : Nat := 0
  maxBit : Nat := 0
  count : Nat := 0
  mask : MatchedFieldN n := {}
  vectorBits : List Nat := []

namespace VectorN

variable {n : Nat}

/-- The indices of a rule. -/
def allTableIndex (v : VectorN n) (field : Field n) : Exec (List (BitVec 16)) :=
  field.field.getAllTableIndex v.mask field.mask v.minBit v.maxBit v.vectorBits

def countIndices (v : VectorN n) : List (Field n) → Exec Nat
  | [] => .ok 0
  | field :: fields =>
    v.allTableIndex field >>= fun indices =>
      v.countIndices fields >>= fun num => .ok (indices.length + num)

def calcVectorTableMemory (v : VectorN n) (fields : List (Field n)) : Exec (VectorN n) :=
  v.countIndices fields >>= fun num => .ok { v with count := num }

def calcIndex (matched0 matched1 base : Nat) : Exec Nat :=
  if matched0 = 0 ∧ matched1 = 0 then .ok base
  else
    checkedSub base (matched0 + matched1) >>= fun rest =>
      .ok ((if matched0 > matched1 then matched0 - matched1 else matched1 - matched0) + rest)

def i16Max : Nat := 32767

def u16Max : Nat := 65535

def sortTableIndex (matched0 matched1 base : Nat) : Exec Nat :=
  calcIndex matched0 matched1 base >>= fun index =>
    .ok (if i16Max < index then index / ((base >>> 15) + 1) + i16Max else index)

/-- How many rules have a bit as 0, and as 1. -/
def matchedBits (i : Nat) : List (Field n) → Exec (Nat × Nat)
  | [] => .ok (0, 0)
  | field :: fields =>
    matchedBits i fields >>= fun (matched0, matched1) =>
      field.mask.isBitZero i >>= fun open' =>
        if open' then .ok (matched0, matched1)
        else
          field.field.isBitZero i >>= fun zero =>
            .ok (if zero then (matched0 + 1, matched1) else (matched0, matched1 + 1))

/-- `table[index].push(item)`. -/
def pushAt {α : Type} (table : List (List α)) (i : Nat) (item : α) : Exec (List (List α)) :=
  index table i >>= fun row => store table i (row ++ [item])

/-- The loop of `generate_sort_table4` and `generate_sort_table6`. -/
def sortTableLoop (fields : List (Field n)) : List Nat → List (List Nat) → Exec (List (List Nat))
  | [], table => .ok table
  | i :: is, table =>
    matchedBits i fields >>= fun (matched0, matched1) =>
      sortTableIndex matched0 matched1 fields.length >>= fun index =>
        pushAt table index i >>= sortTableLoop fields is

def generateSortTable (fields : List (Field n)) : Exec (List (List Nat)) :=
  sortTableLoop fields (List.range (MatchedFieldN.bitSize n)) (List.replicate u16Max [])

/-- The bits of one row, until there are enough of them. -/
def pickRow (vectorSize : Nat) : List Nat → List Nat → List Nat
  | [], picked => picked
  | bit :: row, picked =>
    if vectorSize ≤ picked.length + 1 then picked ++ [bit]
    else pickRow vectorSize row (picked ++ [bit])

/-- The bits of all rows, until there are enough of them. -/
def pickRows (vectorSize : Nat) : List (List Nat) → List Nat → List Nat
  | [], picked => picked
  | row :: table, picked =>
    let picked := pickRow vectorSize row picked
    if vectorSize ≤ picked.length then picked else pickRows vectorSize table picked

def init (v : VectorN n) (fields : List (Field n)) (vectorSize : Nat) : Exec (VectorN n) :=
  generateSortTable fields >>= fun table =>
    let vectorBits := (pickRows vectorSize table []).insertionSort (· ≤ ·)
    index vectorBits 0 >>= fun minBit =>
      checkedSub vectorSize 1 >>= fun last =>
        index vectorBits last >>= fun maxBit =>
          MatchedFieldN.setBits vectorBits >>= fun mask =>
            .ok { v with
              minBit := minBit, maxBit := maxBit, mask := mask, vectorBits := vectorBits }

def tableSize : Nat := 1 <<< 16

/-- A match field is filed under its indices. -/
def fileItem (item : TableItem n) :
    List (BitVec 16) → List (List (TableItem n)) → Exec (List (List (TableItem n)))
  | [], table => .ok table
  | index :: indices, table => pushAt table index.toNat item >>= fileItem item indices

/-- The loops of `generate_table4` and `generate_table6`. -/
def fileItems (v : VectorN n) :
    List (TableItem n) → List (List (TableItem n)) → Exec (List (List (TableItem n)))
  | [], table => .ok table
  | item :: items, table =>
    v.allTableIndex item.field >>= fun indices =>
      fileItem item indices table >>= v.fileItems items

def generateTable (v : VectorN n) (items : List (TableItem n)) :
    Exec (List (List (TableItem n))) :=
  v.fileItems items (List.replicate tableSize [])

/-- Whether a packet has the bits that a match field looks at. -/
def Matches (packet : MatchedFieldN n) (field : Field n) : Prop :=
  packet.bitAnd field.mask = field.field

instance (packet : MatchedFieldN n) (field : Field n) : Decidable (Matches packet field) :=
  inferInstanceAs (Decidable (_ = _))

/-- `get_policy_from_table4` and `get_policy_from_table6`, with what is done with an item. -/
def getPolicyFromTable {P : Type} (merge : P → TableItem n → P) (v : VectorN n)
    (table : List (List (TableItem n))) (packet : MatchedFieldN n) (policy : P) : Exec P :=
  packet.getTableIndex v.mask v.minBit v.maxBit >>= fun i =>
    index table i.toNat >>= fun row =>
      .ok (row.foldl (fun policy item =>
        if Matches packet item.field then merge policy item else policy) policy)

end VectorN

/-- `FirstPath`, as far as a lookup depends on it. -/
structure FirstPath where
  vector4 : VectorN 4 := {}
  table4 : List (List (TableItem 4)) := []
  vector6 : VectorN 16 := {}
  table6 : List (List (TableItem 16)) := []
  level : Nat
  currentLevel : Nat
  memoryLimit : Nat := 0

namespace FirstPath

def vectorMaskSizeMax : Nat := 16

def vectorMaskSizeMin : Nat := 4

def levelMax : Nat := 16

def policyLimit : Nat := 500000

def fullMemoryLimit : Nat := 1 <<< 20

/-- The number of match fields. -/
def policyCount (acls : List Acl) : Nat :=
  (acls.map fun acl => acl.matchField.length + acl.matchField6.length).sum

variable (fp : FirstPath)

/-- The level at which `vector_size` works. -/
def levelFor (sum : Nat) (memoryExceeded : Bool) : Nat :=
  let limit :=
    if fp.memoryLimit ≠ 0 ∧ fp.memoryLimit < fullMemoryLimit then
      policyLimit * fp.memoryLimit / fullMemoryLimit
    else policyLimit
  if sum ≤ limit ∧ memoryExceeded = false ∧ fp.currentLevel ≠ fp.level then fp.level
  else fp.currentLevel

/-- The loop of `vector_size`. -/
def sizeLoop (sum level : Nat) : List Nat → Nat
  | [] => vectorMaskSizeMin
  | vectorSize :: sizes =>
    if 1 <<< vectorSize ≤ sum >>> level then vectorSize else sizeLoop sum level sizes

def vectorSize (sum level : Nat) : Nat :=
  sizeLoop sum level
    (List.range' vectorMaskSizeMin (vectorMaskSizeMax - vectorMaskSizeMin)).reverse

/-- One pass of the loop of `generate_first_table`: both vectors, anew. -/
def chooseVectors (acls : List Acl) (memoryExceeded : Bool) : Exec FirstPath :=
  let level := fp.levelFor (policyCount acls) memoryExceeded
  let size := vectorSize (policyCount acls) level
  let fields4 := acls.flatMap Acl.matchField
  let fields6 := acls.flatMap Acl.matchField6
  fp.vector4.init fields4 size >>= fun vector4 =>
    fp.vector6.init fields6 size >>= fun vector6 =>
      vector4.calcVectorTableMemory fields4 >>= fun vector4 =>
        vector6.calcVectorTableMemory fields6 >>= fun vector6 =>
          .ok { fp with vector4 := vector4, vector6 := vector6, currentLevel := level }

/-- The loop of `generate_first_table`.  It delivers nothing where there is no memory for a
table. -/
def vectorLoop (acls : List Acl) (memoryCheck : Nat → Bool) :
    Nat → Bool → FirstPath → Exec (Option FirstPath)
  | 0, _, _ => .error .outOfFuel
  | fuel + 1, memoryExceeded, fp =>
    if fp.currentLevel < levelMax then
      fp.chooseVectors acls memoryExceeded >>= fun fp =>
        if memoryCheck fp.currentLevel then .ok (some fp)
        else if fp.currentLevel < levelMax ∧
            policyCount acls < fp.vector4.count + fp.vector6.count then
          vectorLoop acls memoryCheck fuel true { fp with currentLevel := fp.currentLevel + 1 }
        else .ok none
    else .ok (some fp)

/-- `generate_first_table`, once the match fields are there. -/
def generateFirstTable (acls : List Acl) (memoryCheck : Nat → Bool) : Exec (Option FirstPath) :=
  vectorLoop acls memoryCheck (levelMax + 2) false { fp with vector4 := {}, vector6 := {} } >>=
    fun chosen =>
      match chosen with
      | none => .ok none
      | some fp =>
        fp.vector4.generateTable (items Acl.matchField acls) >>= fun table4 =>
          fp.vector6.generateTable (items Acl.matchField6 acls) >>= fun table6 =>
            .ok (some { fp with table4 := table4, table6 := table6 })

/-- An item's actions are merged into a policy. -/
def mergeItem {n : Nat} (direction : DirectionType) (policy : PolicyData) (item : TableItem n) :
    PolicyData :=
  policy.mergeNpbActions item.policy.npbActions item.policy.aclId direction

def getPolicyFromTable4 (field : MatchedFieldN 4) (direction : DirectionType)
    (policy : PolicyData) : Exec PolicyData :=
  fp.vector4.getPolicyFromTable (mergeItem direction) fp.table4 field policy

def getPolicyFromTable6 (field : MatchedFieldN 16) (direction : DirectionType)
    (policy : PolicyData) : Exec PolicyData :=
  fp.vector6.getPolicyFromTable (mergeItem direction) fp.table6 field policy

end FirstPath

end ZeroTrace.Policy
