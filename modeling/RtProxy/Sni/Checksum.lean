import RtProxy.Kcp.Crc
import RtProxy.Lib.ShiftRegister
import RtProxy.Sni.ClientHello

/-!
The two CRC-32 implementations.

`kcp.rs` takes a byte at a time through a table, `sni.rs` a bit at a time with a mask.
Both divide by the same polynomial.
-/

namespace RtProxy

open ShiftRegister

/-! ## One bit -/

theorem and_one_eq (crc : UInt32) : crc &&& 1 = if crc.toBitVec.getLsbD 0 then 1 else 0 := by
  have hbit : crc.toBitVec &&& 1#32 = BitVec.setWidth 32 (BitVec.ofBool (crc.toBitVec.getLsbD 0)) :=
    BitVec.and_one_eq_setWidth_ofBool_getLsbD
  apply UInt32.toBitVec_inj.mp
  rw [UInt32.toBitVec_and]
  refine hbit.trans ?_
  cases crc.toBitVec.getLsbD 0 <;> rfl

/-- One step of the table is one of the register. -/
theorem toBitVec_crcBit (poly crc : UInt32) :
    (Kcp.crcBit poly crc).toBitVec = step poly.toBitVec crc.toBitVec := by
  unfold Kcp.crcBit step
  rw [and_one_eq]
  cases crc.toBitVec.getLsbD 0 <;> simp

/-- The mask adds the polynomial if the low bit is one. -/
theorem toBitVec_crc32Bit (crc : UInt32) :
    (Sni.crc32Bit crc).toBitVec = step 0xEDB88320#32 crc.toBitVec := by
  unfold Sni.crc32Bit step
  rw [and_one_eq]
  cases crc.toBitVec.getLsbD 0
  · simp
  · have hmask : (0 : UInt32) - 1 = 0xFFFFFFFF := by decide
    simp [hmask]

/-! ## One byte -/

/-- Eight rounds of either loop. -/
theorem toBitVec_foldl {f : UInt32 → UInt32} {poly : BitVec 32}
    (hf : ∀ crc, (f crc).toBitVec = step poly crc.toBitVec) (crc : UInt32) :
    ((List.range 8).foldl (fun crc _ => f crc) crc).toBitVec = (step poly)^[8] crc.toBitVec := by
  have hrounds (n : Nat) (crc : UInt32) : (f^[n] crc).toBitVec = (step poly)^[n] crc.toBitVec := by
    induction n generalizing crc with
    | zero => rfl
    | succ n ih => rw [Function.iterate_succ_apply, Function.iterate_succ_apply, ih, hf]
  exact hrounds 8 crc

/-- The low byte of a register is the place in the table. -/
theorem getLsbD_low (x : UInt32) (i : Nat) :
    (UInt32.ofNat (Fin.ofNat 256 (x &&& 0xFF).toNat).val).toBitVec.getLsbD i =
      (decide (i < 8) && x.toBitVec.getLsbD i) := by
  have hlt : (x &&& 0xFF).toNat < 256 := by
    rw [UInt32.toNat_and]
    exact Nat.lt_of_le_of_lt Nat.and_le_right (by decide)
  have hval : (Fin.ofNat 256 (x &&& 0xFF).toNat).val = (x &&& 0xFF).toNat := Nat.mod_eq_of_lt hlt
  have hmask : (0xFF : UInt32).toBitVec.getLsbD i = decide (i < 8) := by
    show (BitVec.ofNat 32 (2 ^ 8 - 1)).getLsbD i = _
    rw [BitVec.getLsbD_ofNat, Nat.testBit_two_pow_sub_one]
    by_cases hi : i < 8
    · have hi' : i < 32 := by omega
      simp [hi, hi']
    · simp [hi]
  rw [hval, UInt32.ofNat_toNat, UInt32.toBitVec_and, BitVec.getLsbD_and, hmask, Bool.and_comm]

/-- A byte through the table is eight bits through the register. -/
theorem table_byte (crc : UInt32) (b : UInt8) :
    Kcp.crcTable 0xEDB88320 (Fin.ofNat 256 ((crc ^^^ b.toUInt32) &&& 0xFF).toNat) ^^^ (crc >>> 8) =
      (List.range 8).foldl (fun crc _ => Sni.crc32Bit crc) (crc ^^^ b.toUInt32) := by
  have hbyte : (crc ^^^ b.toUInt32).toBitVec >>> 8 = crc.toBitVec >>> 8 := by
    apply BitVec.eq_of_getLsbD_eq
    intro i _
    simp
  apply UInt32.toBitVec_inj.mp
  have hsplit := iterate_step_eq 0xEDB88320#32 (getLsbD_low (crc ^^^ b.toUInt32))
  rw [toBitVec_foldl toBitVec_crc32Bit, hsplit, hbyte, UInt32.toBitVec_xor, Kcp.crcTable,
    toBitVec_foldl (toBitVec_crcBit 0xEDB88320)]
  rfl

/-- The checksum of a packet and that of a server name are one function. -/
theorem crc32_agrees (data : Bytes) :
    Kcp.crc32 (Kcp.crcTable 0xEDB88320) data = Sni.crc32Ieee data := by
  unfold Kcp.crc32 Sni.crc32Ieee
  simp only [table_byte]
  rfl

end RtProxy
