import Mathlib.Algebra.Order.Ring.Nat
import Mathlib.Data.List.GetD

/-!
# Executions that may panic

Straight-line Rust code is read as a computation in `Except Panic`: it either
delivers a value or stops at the first panic or invalid memory access.  The
checked operators of the language (`+`, `-` on unsigned integers, slice
indexing, `unwrap`, `assert!`) become the functions below; that some code never
panics is then the statement that the computation is `ok`.

Nothing here mentions a particular program.
-/

namespace RustExec

universe u

/-- The ways a computation can stop without delivering a value.  `outOfFuel`
stands for a loop that has used up the bound its model gives it. -/
inductive Panic where
  | overflow
  | outOfBounds
  | assertFailed
  | unreachable
  | unwrapNone
  | nullPointer
  | dangling
  | outOfFuel
  deriving DecidableEq

/-- A computation that may panic. -/
abbrev Exec (α : Type u) := Except Panic α

variable {α β : Type u} (w a b : Nat)

/-- `a + b` on `w`-bit unsigned integers, with overflow checks on. -/
def checkedAdd : Exec Nat :=
  if a + b < 2 ^ w then .ok (a + b) else .error .overflow

/-- `a - b` on unsigned integers, with overflow checks on. -/
def checkedSub : Exec Nat :=
  if b ≤ a then .ok (a - b) else .error .overflow

/-- `a * b` on `w`-bit unsigned integers, with overflow checks on. -/
def checkedMul : Exec Nat :=
  if a * b < 2 ^ w then .ok (a * b) else .error .overflow

/-- `a << s` on `w`-bit unsigned integers, with overflow checks on: the
distance is checked, bits that leave at the top are lost. -/
def checkedShl (s : Nat) : Exec Nat :=
  if s < w then .ok (a * 2 ^ s % 2 ^ w) else .error .overflow

/-- `a.wrapping_add(b)` on `w`-bit unsigned integers. -/
def wrappingAdd : Nat := (a + b) % 2 ^ w

/-- `a.wrapping_sub(b)` on `w`-bit unsigned integers. -/
def wrappingSub : Nat := (a + (2 ^ w - b)) % 2 ^ w

/-- `assert!(c)`. -/
def assert (c : Bool) : Exec Unit :=
  if c then .ok () else .error .assertFailed

/-- `xs[i]`, read. -/
def index (xs : List α) (i : Nat) : Exec α :=
  match xs[i]? with
  | some x => .ok x
  | none => .error .outOfBounds

/-- `xs[i] = x`. -/
def store (xs : List α) (i : Nat) (x : α) : Exec (List α) :=
  if i < xs.length then .ok (xs.set i x) else .error .outOfBounds

/-- `o.unwrap()`. -/
def unwrap (o : Option α) : Exec α :=
  match o with
  | some x => .ok x
  | none => .error .unwrapNone

variable {w a b} {xs : List α} {x : Exec α} {i : Nat}

theorem checkedAdd_ok (h : a + b < 2 ^ w) : checkedAdd w a b = .ok (a + b) := by
  simp [checkedAdd, h]

theorem checkedSub_ok {a b : Nat} (h : b ≤ a) : checkedSub a b = .ok (a - b) := by
  simp [checkedSub, h]

theorem checkedMul_ok (h : a * b < 2 ^ w) : checkedMul w a b = .ok (a * b) := by
  simp [checkedMul, h]

theorem checkedShl_ok {w a s : Nat} (h : s < w) : checkedShl w a s = .ok (a * 2 ^ s % 2 ^ w) := by
  simp [checkedShl, h]

theorem wrappingAdd_of_lt (h : a + b < 2 ^ w) : wrappingAdd w a b = a + b :=
  Nat.mod_eq_of_lt h

/-- A difference that does not go below zero is not changed by wrapping. -/
theorem wrappingSub_of_le (hb : b ≤ a) (ha : a < 2 ^ w) : wrappingSub w a b = a - b := by
  unfold wrappingSub
  have hsplit : a + (2 ^ w - b) = (a - b) + 2 ^ w := by omega
  rw [hsplit, Nat.add_mod_right]
  exact Nat.mod_eq_of_lt (by omega)

@[simp] theorem assert_true : assert true = .ok () := rfl

theorem index_ok {x : α} (h : xs[i]? = some x) : index xs i = .ok x := by
  simp [index, h]

theorem store_ok (x : α) (h : i < xs.length) : store xs i x = .ok (xs.set i x) := by
  simp [store, h]

@[simp] theorem unwrap_some (x : α) : unwrap (some x) = .ok x := rfl

@[simp] theorem ok_bind (a : α) (f : α → Exec β) : ((.ok a : Exec α) >>= f) = f a := rfl

@[simp] theorem error_bind (e : Panic) (f : α → Exec β) :
    ((.error e : Exec α) >>= f) = .error e := rfl

@[simp] theorem pure_eq_ok (a : α) : (pure a : Exec α) = .ok a := rfl

/-- A sequence that delivers a value delivers one at its first stage. -/
theorem bind_eq_ok {f : α → Exec β} {b : β} (h : x >>= f = .ok b) :
    ∃ a, x = .ok a ∧ f a = .ok b := by
  cases x with
  | error e => simp at h
  | ok a => exact ⟨a, rfl, h⟩

/-- The computation delivers a value that passes the test. -/
def delivers (x : Exec α) (test : α → Bool) : Bool :=
  match x with
  | .ok a => test a
  | .error _ => false

theorem eq_ok_of_delivers {test : α → Bool} (h : delivers x test = true) :
    ∃ a, x = .ok a ∧ test a = true := by
  cases x with
  | error e => cases h
  | ok a => exact ⟨a, rfl, h⟩

def panics (x : Exec α) : Bool :=
  match x with
  | .ok _ => false
  | .error _ => true

theorem eq_error_of_panics (h : panics x = true) : ∃ e, x = .error e := by
  cases x with
  | error e => exact ⟨e, rfl⟩
  | ok a => cases h

theorem checkedAdd_eq_ok {w a b c : Nat} (h : checkedAdd w a b = .ok c) :
    a + b < 2 ^ w ∧ c = a + b := by
  unfold checkedAdd at h
  split at h
  next hlt =>
    cases h
    exact ⟨hlt, rfl⟩
  · cases h

theorem checkedSub_eq_ok {a b c : Nat} (h : checkedSub a b = .ok c) : b ≤ a ∧ c = a - b := by
  unfold checkedSub at h
  split at h
  next hle =>
    cases h
    exact ⟨hle, rfl⟩
  · cases h

theorem index_eq_ok {x : α} (h : index xs i = .ok x) : xs[i]? = some x := by
  unfold index at h
  split at h
  next y hy =>
    cases h
    exact hy
  · cases h

end RustExec
