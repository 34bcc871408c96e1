import ZeroTrace.RustExec
import Mathlib.Data.List.Basic

/-!
# A heap of boxes of one type

Raw pointers into boxes that are allocated and freed by hand.  A pointer is
null or an address; an address is never given out twice, so that a pointer to
a freed box stays invalid and its use is seen.  Reading, writing or freeing
through a null pointer or a pointer to a freed box is a panic here: code that
runs to its end has made only valid accesses.
-/

namespace TypedHeap

open RustExec

variable {α : Type}

/-- A raw pointer, `none` for null. -/
abbrev Ptr := Option Nat

/-- The boxes ever allocated; a freed one is `none`. -/
structure Heap (α : Type) where
  boxes : List (Option α)
  deriving DecidableEq

def Heap.empty : Heap α := ⟨[]⟩

section

variable (h : Heap α)

include h

/-- The content of the box at an address, if it is alive. -/
def Heap.cell (a : Nat) : Option α :=
  match h.boxes[a]? with
  | some o => o
  | none => none

/-- Overwrite the box at an address. -/
def Heap.put (a : Nat) (o : Option α) : Heap α :=
  ⟨h.boxes.set a o⟩

/-- `Box::into_raw(Box::new(v))`. -/
def Heap.alloc (v : α) : Ptr × Heap α :=
  (some h.boxes.length, ⟨h.boxes ++ [some v]⟩)

/-- `&*p`. -/
def Heap.read : Ptr → Exec α
  | none => .error .nullPointer
  | some a =>
    match h.cell a with
    | some v => .ok v
    | none => .error .dangling

/-- An assignment through `&mut *p`. -/
def Heap.modify (p : Ptr) (f : α → α) : Exec (Heap α) :=
  match p with
  | none => .error .nullPointer
  | some a =>
    match h.cell a with
    | some v => .ok (h.put a (some (f v)))
    | none => .error .dangling

/-- `Box::from_raw(p)`, dropped or moved out of. -/
def Heap.free (p : Ptr) : Exec (α × Heap α) :=
  match p with
  | none => .error .nullPointer
  | some a =>
    match h.cell a with
    | some v => .ok (v, h.put a none)
    | none => .error .dangling

end

variable {h : Heap α} {a : Nat} {v : α}

theorem Heap.cell_lt (hv : h.cell a = some v) : a < h.boxes.length := by
  by_contra hge
  have hnone : h.boxes[a]? = none := List.getElem?_eq_none (by omega)
  simp [Heap.cell, hnone] at hv

theorem Heap.cell_fresh (h : Heap α) : h.cell h.boxes.length = none := by
  simp [Heap.cell]

theorem Heap.cell_put_self (hv : h.cell a = some v) (o : Option α) : (h.put a o).cell a = o := by
  have hlt := Heap.cell_lt hv
  simp [Heap.cell, Heap.put, hlt]

theorem Heap.cell_put_ne (h : Heap α) {a b : Nat} (hne : b ≠ a) (o : Option α) :
    (h.put a o).cell b = h.cell b := by
  simp [Heap.cell, Heap.put, List.getElem?_set_ne (Ne.symm hne)]

theorem Heap.cell_put_of_notMem (h : Heap α) {a : Nat} {l : List Nat} (ha : a ∉ l) (o : Option α) :
    ∀ b ∈ l, (h.put a o).cell b = h.cell b := fun _ hb =>
  h.cell_put_ne (ne_of_mem_of_not_mem hb ha) o

theorem Heap.cell_alloc_self (h : Heap α) (v : α) : (h.alloc v).2.cell h.boxes.length = some v := by
  simp [Heap.cell, Heap.alloc]

theorem Heap.cell_alloc_ne (h : Heap α) (v : α) {b : Nat} (hne : b ≠ h.boxes.length) :
    (h.alloc v).2.cell b = h.cell b := by
  by_cases hlt : b < h.boxes.length
  · simp [Heap.cell, Heap.alloc, List.getElem?_append_left hlt]
  have hgt : h.boxes.length + 1 ≤ b := by omega
  have h1 : (h.boxes ++ [some v])[b]? = none := List.getElem?_eq_none (by simpa using hgt)
  have h2 : h.boxes[b]? = none := List.getElem?_eq_none (by omega)
  simp [Heap.cell, Heap.alloc, h1, h2]

theorem Heap.read_ok (hv : h.cell a = some v) : h.read (some a) = .ok v := by
  simp [Heap.read, hv]

theorem Heap.modify_ok (hv : h.cell a = some v) (f : α → α) :
    h.modify (some a) f = .ok (h.put a (some (f v))) := by
  simp [Heap.modify, hv]

theorem Heap.free_ok (hv : h.cell a = some v) : h.free (some a) = .ok (v, h.put a none) := by
  simp [Heap.free, hv]

end TypedHeap
