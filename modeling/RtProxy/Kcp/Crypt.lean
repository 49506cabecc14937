import RtProxy.Lib.Bytes

/-!
The packet ciphers of `kcp.rs`.

Each of them keeps the length of a packet.  The block ciphers and the Salsa20 key
stream come from other crates and are parameters.
-/

namespace RtProxy
namespace Kcp

/-- XORs a table over the front of a buffer, as `xor_in_place` does. -/
def xorInPlace : Bytes → Bytes → Bytes
  | b :: buf, t :: table => (b ^^^ t) :: xorInPlace buf table
  | buf, _ => buf

@[simp] theorem xorInPlace_nil (buf : Bytes) : xorInPlace buf [] = buf := by
  cases buf <;> rfl

@[simp] theorem nil_xorInPlace (table : Bytes) : xorInPlace [] table = [] := by
  cases table <;> rfl

@[simp] theorem length_xorInPlace (buf table : Bytes) :
    (xorInPlace buf table).length = buf.length := by
  induction buf generalizing table with
  | nil => simp
  | cons b buf ih =>
    cases table with
    | nil => rfl
    | cons t table => simp [xorInPlace, ih]

@[simp] theorem xorInPlace_xorInPlace (buf table : Bytes) :
    xorInPlace (xorInPlace buf table) table = buf := by
  induction buf generalizing table with
  | nil => simp
  | cons b buf ih =>
    cases table with
    | nil => rfl
    | cons t table => simp [xorInPlace, ih, UInt8.xor_assoc]

/-! ## Cipher feedback -/

/-- The forward direction of a block cipher, under some key. -/
structure BlockEnc where
  blockSize : Nat
  encryptBlock : Bytes → Bytes
  size : blockSize = 8 ∨ blockSize = 16
  length_encryptBlock : ∀ {block}, block.length = blockSize →
    (encryptBlock block).length = blockSize

def INITIAL_VECTOR : Bytes :=
  [167, 115, 79, 156, 18, 172, 27, 1, 164, 21, 242, 193, 252, 120, 230, 107]

namespace BlockEnc

variable (block : BlockEnc)

/-- The key stream block that every packet begins with. -/
def firstBlock : Bytes := block.encryptBlock (INITIAL_VECTOR.take block.blockSize)

/-- `full` whole blocks and what is left behind them; `tbl` is the key stream block. -/
def cfbEncryptFrom : Nat → Bytes → Bytes → Bytes
  | 0, tbl, buf => xorInPlace buf tbl
  | full + 1, tbl, buf =>
    xorInPlace (buf.take block.blockSize) tbl
      ++ cfbEncryptFrom full (block.encryptBlock (xorInPlace (buf.take block.blockSize) tbl))
        (buf.drop block.blockSize)

/-- The key stream is the encryption of the ciphertext before it. -/
def cfbEncrypt (buf : Bytes) : Bytes :=
  block.cfbEncryptFrom (buf.length / block.blockSize) block.firstBlock buf

def cfbDecryptFrom : Nat → Bytes → Bytes → Bytes
  | 0, tbl, buf => xorInPlace buf tbl
  | full + 1, tbl, buf =>
    xorInPlace (buf.take block.blockSize) tbl
      ++ cfbDecryptFrom full (block.encryptBlock (buf.take block.blockSize))
        (buf.drop block.blockSize)

def cfbDecrypt (buf : Bytes) : Bytes :=
  block.cfbDecryptFrom (buf.length / block.blockSize) block.firstBlock buf

variable {block}

@[simp] theorem length_cfbEncryptFrom (full : Nat) (tbl buf : Bytes) :
    (block.cfbEncryptFrom full tbl buf).length = buf.length := by
  induction full generalizing tbl buf with
  | zero => simp [cfbEncryptFrom]
  | succ full ih =>
    simp only [cfbEncryptFrom, List.length_append, length_xorInPlace, ih, List.length_take,
      List.length_drop]
    omega

@[simp] theorem length_cfbEncrypt (buf : Bytes) : (block.cfbEncrypt buf).length = buf.length :=
  length_cfbEncryptFrom _ _ _

/-- The induction is on the number of whole blocks; both directions move to the same key
stream block, because both encrypt the ciphertext. -/
theorem cfbDecryptFrom_cfbEncryptFrom {full : Nat} {tbl buf : Bytes}
    (h : full * block.blockSize ≤ buf.length) :
    block.cfbDecryptFrom full tbl (block.cfbEncryptFrom full tbl buf) = buf := by
  induction full generalizing tbl buf with
  | zero => simp [cfbEncryptFrom, cfbDecryptFrom]
  | succ full ih =>
    rw [Nat.add_mul, Nat.one_mul] at h
    have hlen : (xorInPlace (buf.take block.blockSize) tbl).length = block.blockSize := by
      rw [length_xorInPlace, List.length_take]
      omega
    have hrest : full * block.blockSize ≤ (buf.drop block.blockSize).length := by
      rw [List.length_drop]
      omega
    rw [cfbEncryptFrom, cfbDecryptFrom, List.take_left' hlen, List.drop_left' hlen,
      xorInPlace_xorInPlace, ih hrest, List.take_append_drop]

theorem cfbDecrypt_cfbEncrypt (buf : Bytes) : block.cfbDecrypt (block.cfbEncrypt buf) = buf := by
  rw [cfbDecrypt, length_cfbEncrypt]
  exact cfbDecryptFrom_cfbEncryptFrom (Nat.div_mul_le_self _ _)

end BlockEnc

/-! ## Salsa20 -/

/-- The first 8 bytes are the nonce and stay as they are. -/
def salsa20Apply (keystream : Bytes → Nat → UInt8) (buf : Bytes) : Bytes :=
  if buf.length ≤ 8 then buf
  else
    buf.take 8
      ++ xorInPlace (buf.drop 8) ((List.range (buf.length - 8)).map (keystream (buf.take 8)))

@[simp] theorem length_salsa20Apply (keystream : Bytes → Nat → UInt8) (buf : Bytes) :
    (salsa20Apply keystream buf).length = buf.length := by
  unfold salsa20Apply
  split
  · rfl
  · simp only [List.length_append, List.length_take, length_xorInPlace, List.length_drop]
    omega

theorem salsa20Apply_salsa20Apply (keystream : Bytes → Nat → UInt8) (buf : Bytes) :
    salsa20Apply keystream (salsa20Apply keystream buf) = buf := by
  by_cases h : buf.length ≤ 8
  · simp [salsa20Apply, h]
  · have hlen : (buf.take 8).length = 8 := by
      rw [List.length_take]
      omega
    rw [salsa20Apply, length_salsa20Apply, if_neg h, salsa20Apply, if_neg h, List.take_left' hlen,
      List.drop_left' hlen, xorInPlace_xorInPlace, List.take_append_drop]

/-! ## The packet cipher -/

inductive CryptKind
  | none
  | xor (table : Bytes)
  | salsa20 (keystream : Bytes → Nat → UInt8)
  | cfb (block : BlockEnc)

structure Crypt where
  kind : CryptKind

namespace Crypt

variable (crypt : Crypt)

def encrypt (buf : Bytes) : Bytes :=
  match crypt.kind with
  | .none => buf
  | .xor table => xorInPlace buf table
  | .salsa20 keystream => salsa20Apply keystream buf
  | .cfb block => block.cfbEncrypt buf

def decrypt (buf : Bytes) : Bytes :=
  match crypt.kind with
  | .none => buf
  | .xor table => xorInPlace buf table
  | .salsa20 keystream => salsa20Apply keystream buf
  | .cfb block => block.cfbDecrypt buf

@[simp] theorem length_encrypt (buf : Bytes) : (crypt.encrypt buf).length = buf.length := by
  unfold encrypt
  split <;> simp

@[simp] theorem decrypt_encrypt (buf : Bytes) : crypt.decrypt (crypt.encrypt buf) = buf := by
  rcases crypt with ⟨_ | table | keystream | block⟩
  · rfl
  · exact xorInPlace_xorInPlace buf table
  · exact salsa20Apply_salsa20Apply keystream buf
  · exact BlockEnc.cfbDecrypt_cfbEncrypt buf

end Crypt

end Kcp
end RtProxy
