import ZeroTrace.RustExec
import ZeroTrace.Outcomes

/-!
# Reading from a slice of bytes

A slice is a list of bytes.  Reading a byte, a range or an integer of it panics when it goes
beyond the end; the lemmas say what is read otherwise, in terms of `byteAt`, which reads
anywhere.

Nothing here mentions a particular program.
-/

namespace Slices

open RustExec ZeroTrace.Outcomes List

abbrev Bytes := List (BitVec 8)

variable (bytes : Bytes) (i : Nat)

/-- The byte at a place, 0 beyond the end. -/
def byteAt : BitVec 8 := bytes.getD i 0

/-- `&bytes[i..]`. -/
def sliceFrom : Exec Bytes :=
  if i ≤ bytes.length then .ok (bytes.drop i) else .error .outOfBounds

/-- `&bytes[i..j]`. -/
def slice (j : Nat) : Exec Bytes :=
  if i ≤ j ∧ j ≤ bytes.length then .ok ((bytes.take j).drop i) else .error .outOfBounds

def readU16Be : Exec (BitVec 16) :=
  if 2 ≤ bytes.length then .ok (byteAt bytes 0 ++ byteAt bytes 1) else .error .assertFailed

def readU16Le : Exec (BitVec 16) :=
  if 2 ≤ bytes.length then .ok (byteAt bytes 1 ++ byteAt bytes 0) else .error .assertFailed

def readU32Be : Exec (BitVec 32) :=
  if 4 ≤ bytes.length then
    .ok (byteAt bytes 0 ++ byteAt bytes 1 ++ byteAt bytes 2 ++ byteAt bytes 3)
  else .error .assertFailed

/-- `read_u16_be(&bytes[i..])`. -/
def u16At : Exec (BitVec 16) := sliceFrom bytes i >>= readU16Be

/-- `read_u16_le(&bytes[i..])`. -/
def u16LeAt : Exec (BitVec 16) := sliceFrom bytes i >>= readU16Le

/-- `read_u32_be(&bytes[i..])`. -/
def u32At : Exec (BitVec 32) := sliceFrom bytes i >>= readU32Be

/-- The two bytes at a place, most significant first. -/
def wordAt : BitVec 16 := byteAt bytes i ++ byteAt bytes (i + 1)

/-- The two bytes at a place, least significant first. -/
def leWordAt : BitVec 16 := byteAt bytes (i + 1) ++ byteAt bytes i

/-- The four bytes at a place, most significant first. -/
def doubleAt : BitVec 32 :=
  byteAt bytes i ++ byteAt bytes (i + 1) ++ byteAt bytes (i + 2) ++ byteAt bytes (i + 3)

def rangeOf (j : Nat) : Bytes := (bytes.take j).drop i

variable {bytes i} {j : Nat} {α : Type}

theorem byteAt_drop (bytes : Bytes) (i j : Nat) :
    byteAt (bytes.drop i) j = byteAt bytes (i + j) := by
  unfold byteAt
  rw [getD_eq_getElem?_getD, getD_eq_getElem?_getD, getElem?_drop]

theorem byteAt_append_left {front back : Bytes} (h : i < front.length) :
    byteAt (front ++ back) i = byteAt front i :=
  getD_append _ _ _ _ h

theorem byteAt_append_right (front back : Bytes) (i : Nat) :
    byteAt (front ++ back) (front.length + i) = byteAt back i := by
  unfold byteAt
  rw [getD_append_right _ _ _ _ (Nat.le_add_right _ _), Nat.add_sub_cancel_left]

theorem leWordAt_eq (bytes : Bytes) (i : Nat) :
    leWordAt bytes i = (wordAt bytes i).extractLsb' 0 8 ++ (wordAt bytes i).extractLsb' 8 8 := by
  unfold leWordAt wordAt
  rw [BitVec.extractLsb'_append_eq_right, BitVec.extractLsb'_append_eq_left]

theorem index_byteAt (h : i < bytes.length) : index bytes i = .ok (byteAt bytes i) := by
  unfold index byteAt
  rw [getD_eq_getElem _ _ h, getElem?_eq_getElem h]

theorem index_bind (h : i < bytes.length) (f : BitVec 8 → Exec α) :
    index bytes i >>= f = f (byteAt bytes i) := by
  rw [index_byteAt h, ok_bind]

theorem sliceFrom_ok (h : i ≤ bytes.length) : sliceFrom bytes i = .ok (bytes.drop i) := if_pos h

theorem slice_ok (h : i ≤ j) (hj : j ≤ bytes.length) :
    slice bytes i j = .ok (rangeOf bytes i j) := if_pos ⟨h, hj⟩

theorem u16At_ok (h : i + 2 ≤ bytes.length) : u16At bytes i = .ok (wordAt bytes i) := by
  rw [u16At, sliceFrom_ok (by omega), ok_bind, readU16Be, if_pos (by rw [length_drop]; omega),
    byteAt_drop, byteAt_drop]
  rfl

theorem u16At_bind (h : i + 2 ≤ bytes.length) (f : BitVec 16 → Exec α) :
    u16At bytes i >>= f = f (wordAt bytes i) := by
  rw [u16At_ok h, ok_bind]

theorem u16LeAt_ok (h : i + 2 ≤ bytes.length) : u16LeAt bytes i = .ok (leWordAt bytes i) := by
  rw [u16LeAt, sliceFrom_ok (by omega), ok_bind, readU16Le,
    if_pos (by rw [length_drop]; omega), byteAt_drop, byteAt_drop]
  rfl

theorem u32At_ok (h : i + 4 ≤ bytes.length) : u32At bytes i = .ok (doubleAt bytes i) := by
  rw [u32At, sliceFrom_ok (by omega), ok_bind, readU32Be, if_pos (by rw [length_drop]; omega),
    byteAt_drop, byteAt_drop, byteAt_drop, byteAt_drop]
  rfl

theorem index_exactly (bytes : Bytes) (i : Nat) :
    Exactly (i < bytes.length) (index bytes i) (· = byteAt bytes i) := by
  by_cases h : i < bytes.length
  · rw [index_byteAt h]
    exact .pure h rfl
  · unfold index
    rw [getElem?_eq_none (Nat.not_lt.mp h)]
    exact h

theorem readAt_exactly {α : Type} {read : Bytes → Exec α} {n : Nat} {value : α}
    (hok : i + n ≤ bytes.length → sliceFrom bytes i >>= read = .ok value)
    (hshort : ∀ rest, rest.length < n → ∃ e, read rest = .error e) :
    Exactly (i + n ≤ bytes.length) (sliceFrom bytes i >>= read) (· = value) := by
  by_cases h : i + n ≤ bytes.length
  · rw [hok h]
    exact .pure h rfl
  unfold sliceFrom
  split
  · obtain ⟨e, he⟩ := hshort (bytes.drop i) (by rw [length_drop]; omega)
    rw [ok_bind, he]
    exact h
  · exact h

theorem u16At_exactly (bytes : Bytes) (i : Nat) :
    Exactly (i + 2 ≤ bytes.length) (u16At bytes i) (· = wordAt bytes i) :=
  readAt_exactly u16At_ok fun _ h => ⟨_, if_neg (Nat.not_le.mpr h)⟩

theorem u16LeAt_exactly (bytes : Bytes) (i : Nat) :
    Exactly (i + 2 ≤ bytes.length) (u16LeAt bytes i) (· = leWordAt bytes i) :=
  readAt_exactly u16LeAt_ok fun _ h => ⟨_, if_neg (Nat.not_le.mpr h)⟩

theorem u32At_exactly (bytes : Bytes) (i : Nat) :
    Exactly (i + 4 ≤ bytes.length) (u32At bytes i) (· = doubleAt bytes i) :=
  readAt_exactly u32At_ok fun _ h => ⟨_, if_neg (Nat.not_le.mpr h)⟩

end Slices
