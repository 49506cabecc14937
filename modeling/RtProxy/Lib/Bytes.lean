/-
Little- and big-endian fields of a byte string.

A field of `k` bytes holds a number below `256 ^ k`.  Writing takes the number
modulo `256 ^ k`, as a truncating cast does, so reading back what was written is
exact below that bound, and writing back what was read is always exact.
-/
import Mathlib.Tactic.Ring
import Mathlib.Data.List.Basic

abbrev Bytes := List UInt8

namespace Bytes

/-- The `k` low-order bytes of `n`, least significant first. -/
def le : Nat → Nat → Bytes
  | 0, _ => []
  | k + 1, n => UInt8.ofNat (n % 256) :: le k (n / 256)

/-- The number whose bytes, least significant first, are the list. -/
def leNat : Bytes → Nat
  | [] => 0
  | b :: bs => b.toNat + 256 * leNat bs

/-- The `k` low-order bytes of `n`, most significant first. -/
def be (k n : Nat) : Bytes := (le k n).reverse

def beNat (bs : Bytes) : Nat := leNat bs.reverse

@[simp] theorem length_le (k n : Nat) : (le k n).length = k := by
  induction k generalizing n with
  | zero => rfl
  | succ k ih => simp [le, ih]

@[simp] theorem length_be (k n : Nat) : (be k n).length = k := by
  simp [be]

theorem leNat_lt (bs : Bytes) : leNat bs < 256 ^ bs.length := by
  induction bs with
  | nil => simp [leNat]
  | cons b bs ih =>
    have hb : b.toNat < 256 := b.toNat_lt
    rw [leNat, List.length_cons, Nat.pow_succ]
    omega

theorem leNat_le {k n : Nat} (h : n < 256 ^ k) : leNat (le k n) = n := by
  induction k generalizing n with
  | zero =>
    have : n = 0 := by simpa using h
    simp [le, leNat, this]
  | succ k ih =>
    have hdiv : n / 256 < 256 ^ k := by
      rw [Nat.pow_succ] at h
      omega
    rw [le, leNat, ih hdiv, UInt8.toNat_ofNat_of_lt' (by simp [UInt8.size]; omega)]
    omega

theorem le_leNat (bs : Bytes) : le bs.length (leNat bs) = bs := by
  induction bs with
  | nil => rfl
  | cons b bs ih =>
    have hb : b.toNat < 256 := b.toNat_lt
    have hmod : (b.toNat + 256 * leNat bs) % 256 = b.toNat := by omega
    have hdiv : (b.toNat + 256 * leNat bs) / 256 = leNat bs := by omega
    rw [List.length_cons, leNat, le, hmod, hdiv, ih, UInt8.ofNat_toNat]

theorem beNat_be {k n : Nat} (h : n < 256 ^ k) : beNat (be k n) = n := by
  rw [beNat, be, List.reverse_reverse, leNat_le h]

theorem be_beNat (bs : Bytes) : be bs.length (beNat bs) = bs := by
  have h := le_leNat bs.reverse
  rw [List.length_reverse] at h
  rw [be, beNat, h, List.reverse_reverse]

/-- Two bytes are a port. -/
theorem be_of_length {bs : Bytes} {k : Nat} (h : bs.length = k) : be k (beNat bs) = bs := by
  rw [← h, be_beNat]

theorem beNat_lt (bs : Bytes) : beNat bs < 256 ^ bs.length := by
  rw [← List.length_reverse]
  exact leNat_lt bs.reverse

theorem be_port {bs : Bytes} (h : bs.length = 2) : be 2 (UInt16.ofNat (beNat bs)).toNat = bs := by
  have hlt := leNat_lt bs.reverse
  rw [List.length_reverse, h] at hlt
  have hnat : (UInt16.ofNat (beNat bs)).toNat = beNat bs := UInt16.toNat_ofNat_of_lt' hlt
  have hbe := be_beNat bs
  rw [h] at hbe
  rw [hnat, hbe]

/-- A port is read back. -/
theorem ofNat_beNat_port (port : UInt16) : UInt16.ofNat (beNat (be 2 port.toNat)) = port := by
  rw [beNat_be port.toNat_lt, UInt16.ofNat_toNat]

end Bytes

/-- A source of random bytes. -/
structure Rng where
  byte : Nat → UInt8

namespace Rng

/-- `fill_bytes` on a buffer of `n` bytes. -/
def fillBytes (rng : Rng) (n : Nat) : Bytes × Rng :=
  ((List.range n).map rng.byte, ⟨fun i => rng.byte (n + i)⟩)

@[simp] theorem length_fillBytes (rng : Rng) (n : Nat) : (rng.fillBytes n).1.length = n := by
  simp [fillBytes]

end Rng
