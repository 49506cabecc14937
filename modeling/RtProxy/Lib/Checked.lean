/-
Operations that can panic.

A build with overflow checks stops at an addition or a subtraction that leaves the
range of its type, at a remainder by zero and at an index or a range outside a vector.
Each operation here returns the panic instead.
-/
import Mathlib.Tactic.Ring

/-- Why a program stopped. -/
inductive Panic
  | overflow
  | divisionByZero
  | outOfRange
deriving Repr, DecidableEq

namespace Checked

variable {α β : Type}

@[simp] theorem ok_bind (a : α) (f : α → Except Panic β) : (Except.ok a >>= f) = f a := rfl

@[simp] theorem error_bind (p : Panic) (f : α → Except Panic β) :
    ((Except.error p : Except Panic α) >>= f) = .error p := rfl

/-- What a composition that succeeds went through. -/
theorem exists_bind_ok {x : Except Panic α} {f : α → Except Panic β} {b : β}
    (h : x >>= f = .ok b) : ∃ a, x = .ok a ∧ f a = .ok b := by
  cases x with
  | ok a => exact ⟨a, rfl, h⟩
  | error p => cases h

/-! ## Words -/

def add32 (a b : UInt32) : Except Panic UInt32 :=
  if a.toNat + b.toNat < 2 ^ 32 then .ok (a + b) else .error .overflow

def sub32 (a b : UInt32) : Except Panic UInt32 :=
  if b.toNat ≤ a.toNat then .ok (a - b) else .error .overflow

def rem32 (a b : UInt32) : Except Panic UInt32 :=
  if b = 0 then .error .divisionByZero else .ok (a % b)

theorem add32_ok {a b : UInt32} (h : a.toNat + b.toNat < 2 ^ 32) : add32 a b = .ok (a + b) :=
  if_pos h

theorem add32_overflow {a b : UInt32} (h : 2 ^ 32 ≤ a.toNat + b.toNat) :
    add32 a b = .error .overflow :=
  if_neg (Nat.not_lt.mpr h)

theorem sub32_ok {a b : UInt32} (h : b.toNat ≤ a.toNat) : sub32 a b = .ok (a - b) := if_pos h

theorem rem32_ok {a b : UInt32} (h : b ≠ 0) : rem32 a b = .ok (a % b) := if_neg h

/-- The number that the bits of a word are as a signed word. -/
def asI32 (x : UInt32) : Int := x.toBitVec.toInt

theorem asI32_nonneg {x : UInt32} : 0 ≤ asI32 x ↔ x.toNat < 2 ^ 31 := by
  have hlt : x.toNat < 2 ^ 32 := x.toNat_lt
  rw [asI32, BitVec.toInt_eq_toNat_cond]
  show 0 ≤ (if 2 * x.toNat < 2 ^ 32 then (x.toNat : Int) else (x.toNat : Int) - (2 ^ 32 : Nat)) ↔ _
  split <;> omega

theorem asI32_pos {x : UInt32} : 0 < asI32 x ↔ 0 < x.toNat ∧ x.toNat < 2 ^ 31 := by
  have hlt : x.toNat < 2 ^ 32 := x.toNat_lt
  rw [asI32, BitVec.toInt_eq_toNat_cond]
  show 0 < (if 2 * x.toNat < 2 ^ 32 then (x.toNat : Int) else (x.toNat : Int) - (2 ^ 32 : Nat)) ↔ _
  split <;> omega

/-- A number a little ahead of another is not behind it. -/
theorem asI32_sub_nonneg {a b : UInt32} (h : b.toNat ≤ a.toNat)
    (hnear : a.toNat - b.toNat < 2 ^ 31) : 0 ≤ asI32 (a - b) := by
  rw [asI32_nonneg, UInt32.toNat_sub_of_le _ _ h]
  exact hnear

theorem not_asI32_sub_pos {a b : UInt32} (h : a.toNat ≤ b.toNat)
    (hnear : b.toNat - a.toNat ≤ 2 ^ 31) : ¬ 0 < asI32 (a - b) := by
  have ha : a.toNat < 2 ^ 32 := a.toNat_lt
  have hb : b.toNat < 2 ^ 32 := b.toNat_lt
  rw [asI32_pos, UInt32.toNat_sub]
  show ¬ (0 < (2 ^ 32 - b.toNat + a.toNat) % 2 ^ 32 ∧ (2 ^ 32 - b.toNat + a.toNat) % 2 ^ 32 < 2 ^ 31)
  omega

/-! ## Signed words

A signed word of 64 bits is a number in its range. -/

def range64 (x : Int) : Except Panic Int :=
  if -2 ^ 63 ≤ x ∧ x < 2 ^ 63 then .ok x else .error .overflow

def add64 (a b : Int) : Except Panic Int := range64 (a + b)

def sub64 (a b : Int) : Except Panic Int := range64 (a - b)

def mul64 (a b : Int) : Except Panic Int := range64 (a * b)

/-- `/`, which rounds towards zero. -/
def div64 (a b : Int) : Except Panic Int :=
  if b = 0 then .error .divisionByZero else range64 (a.tdiv b)

def divEuclid64 (a b : Int) : Except Panic Int :=
  if b = 0 then .error .divisionByZero else range64 (a / b)

def remEuclid64 (a b : Int) : Except Panic Int :=
  if b = 0 then .error .divisionByZero
  else if a = -2 ^ 63 ∧ b = -1 then .error .overflow
  else .ok (a % b)

/-- `as i64`. -/
def asI64 (x : UInt64) : Int := x.toBitVec.toInt

section

variable {a b : Int}

theorem range64_ok (h : 0 ≤ a) (h' : a < 2 ^ 63) : range64 a = .ok a := if_pos ⟨by omega, h'⟩

theorem add64_ok (h : 0 ≤ a + b) (h' : a + b < 2 ^ 63) : add64 a b = .ok (a + b) := range64_ok h h'

theorem sub64_ok (h : 0 ≤ a - b) (h' : a - b < 2 ^ 63) : sub64 a b = .ok (a - b) := range64_ok h h'

theorem mul64_ok (h : 0 ≤ a * b) (h' : a * b < 2 ^ 63) : mul64 a b = .ok (a * b) := range64_ok h h'

theorem divEuclid64_ok (h : 0 ≤ a) (h' : a < 2 ^ 63) (hb : 0 < b) :
    divEuclid64 a b = .ok (a / b) := by
  have hle : a / b ≤ a := Int.ediv_le_self b h
  rw [divEuclid64, if_neg (Int.ne_of_gt hb), range64_ok (Int.ediv_nonneg h (Int.le_of_lt hb)) (by omega)]

/-- Of numbers that are not negative both divisions are the same. -/
theorem div64_ok (h : 0 ≤ a) (h' : a < 2 ^ 63) (hb : 0 < b) : div64 a b = .ok (a / b) := by
  rw [← divEuclid64_ok h h' hb, div64, divEuclid64, Int.tdiv_eq_ediv_of_nonneg h]

theorem remEuclid64_ok (h : 0 ≤ a) (hb : 0 < b) : remEuclid64 a b = .ok (a % b) := by
  rw [remEuclid64, if_neg (Int.ne_of_gt hb), if_neg (by omega)]

end

theorem asI64_eq {x : UInt64} (h : x.toNat < 2 ^ 63) : asI64 x = x.toNat :=
  BitVec.toInt_eq_toNat_of_lt (by show 2 * x.toNat < 2 ^ 64; omega)

/-! ## Vectors -/

def index (xs : List α) (i : Nat) : Except Panic α :=
  match xs[i]? with
  | some x => .ok x
  | none => .error .outOfRange

def setAt (xs : List α) (i : Nat) (x : α) : Except Panic (List α) :=
  if i < xs.length then .ok (xs.set i x) else .error .outOfRange

def insert (xs : List α) (i : Nat) (x : α) : Except Panic (List α) :=
  if i ≤ xs.length then .ok (xs.take i ++ x :: xs.drop i) else .error .outOfRange

/-- Removes the elements from `first` up to `last`. -/
def drain (xs : List α) (first last : Nat) : Except Panic (List α) :=
  if first ≤ last ∧ last ≤ xs.length then .ok (xs.take first ++ xs.drop last)
  else .error .outOfRange

/-- The elements from `first` up to `last`. -/
def slice (xs : List α) (first last : Nat) : Except Panic (List α) :=
  if first ≤ last ∧ last ≤ xs.length then .ok ((xs.drop first).take (last - first))
  else .error .outOfRange

theorem index_ok {xs : List α} {i : Nat} (h : i < xs.length) : index xs i = .ok xs[i] := by
  rw [index, List.getElem?_eq_getElem h]

theorem index_eq {xs : List α} {i : Nat} {x : α} (h : xs[i]? = some x) : index xs i = .ok x := by
  rw [index, h]

theorem setAt_ok {xs : List α} {i : Nat} (x : α) (h : i < xs.length) :
    setAt xs i x = .ok (xs.set i x) :=
  if_pos h

theorem insert_ok {xs : List α} {i : Nat} (x : α) (h : i ≤ xs.length) :
    insert xs i x = .ok (xs.take i ++ x :: xs.drop i) :=
  if_pos h

theorem drain_ok {xs : List α} {first last : Nat} (h : first ≤ last) (h' : last ≤ xs.length) :
    drain xs first last = .ok (xs.take first ++ xs.drop last) :=
  if_pos ⟨h, h'⟩

theorem slice_ok {xs : List α} {first n : Nat} (h : first + n ≤ xs.length) :
    slice xs first (first + n) = .ok ((xs.drop first).take n) := by
  rw [slice, if_pos ⟨Nat.le_add_right _ _, h⟩, Nat.add_sub_cancel_left]

end Checked
