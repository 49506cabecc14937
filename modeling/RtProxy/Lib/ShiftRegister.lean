/-
Division by a polynomial in a shift register.

A step moves the register one place down and adds the polynomial if a one fell out.  Steps
are linear, so `n` of them can be looked up in a table: what the low `n` bits come to is
added to the rest of the register, moved down `n` places.
-/
import Mathlib.Logic.Function.Iterate

namespace ShiftRegister

variable {w : Nat} (poly : BitVec w)

def step (x : BitVec w) : BitVec w := (x >>> 1) ^^^ if x.getLsbD 0 then poly else 0#w

/-- Steps are linear. -/
theorem step_xor (x y : BitVec w) : step poly (x ^^^ y) = step poly x ^^^ step poly y := by
  have hbit (s : Bool) (i : Nat) :
      (if s then poly else 0#w).getLsbD i = (s && poly.getLsbD i) := by
    cases s <;> simp
  apply BitVec.eq_of_getLsbD_eq
  intro i _
  simp only [step, BitVec.getLsbD_xor, BitVec.getLsbD_ushiftRight, hbit]
  rw [Bool.and_xor_distrib_right, Bool.xor_assoc, Bool.xor_assoc,
    Bool.xor_left_comm (y.getLsbD (1 + i))]

theorem iterate_step_xor (n : Nat) (x y : BitVec w) :
    (step poly)^[n] (x ^^^ y) = (step poly)^[n] x ^^^ (step poly)^[n] y := by
  induction n generalizing x y with
  | zero => rfl
  | succ n ih => simp only [Function.iterate_succ_apply, step_xor, ih]

/-- Zeros fall out and leave nothing behind. -/
theorem iterate_step_of_zeros {n : Nat} {x : BitVec w} (h : ∀ i, i < n → x.getLsbD i = false) :
    (step poly)^[n] x = x >>> n := by
  induction n generalizing x with
  | zero => simp
  | succ n ih =>
    have hstep : step poly x = x >>> 1 := by
      simp [step, h 0 (Nat.succ_pos n)]
    have hzeros : ∀ i, i < n → (x >>> 1).getLsbD i = false := by
      intro i hi
      rw [BitVec.getLsbD_ushiftRight]
      exact h (1 + i) (by omega)
    rw [Function.iterate_succ_apply, hstep, ih hzeros, ← BitVec.shiftRight_add, Nat.add_comm 1 n]

/-- `n` steps of a register are those of its low `n` bits, and the rest moved down. -/
theorem iterate_step_eq {n : Nat} {x low : BitVec w}
    (h : ∀ i, low.getLsbD i = (decide (i < n) && x.getLsbD i)) :
    (step poly)^[n] x = (step poly)^[n] low ^^^ (x >>> n) := by
  have hsplit : x = low ^^^ (low ^^^ x) := by
    rw [← BitVec.xor_assoc, BitVec.xor_self, BitVec.zero_xor]
  have hzeros : ∀ i, i < n → (low ^^^ x).getLsbD i = false := by
    intro i hi
    simp [h, hi]
  have hrest : (low ^^^ x) >>> n = x >>> n := by
    apply BitVec.eq_of_getLsbD_eq
    intro i _
    have hhigh : ¬ n + i < n := by omega
    simp [h, hhigh]
  conv => lhs; rw [hsplit]
  rw [iterate_step_xor, iterate_step_of_zeros poly hzeros, hrest]

end ShiftRegister
