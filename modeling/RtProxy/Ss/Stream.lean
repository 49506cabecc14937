import RtProxy.Lib.Text
import RtProxy.Transport

/-!
The Shadowsocks AEAD stream (`SsStream` in `ss.rs`).

Each direction is a salt in the clear and then chunks, each of a sealed length and a
sealed payload.  The nonce of a direction counts its sealed blocks.  The AEAD and the
key derivation come from other crates and are a parameter.
-/

namespace RtProxy
namespace Ss

open ByteStream

inductive SsCipher
  | aes128Gcm
  | aes256Gcm
  | chaCha20Poly1305
  | plain
deriving Repr, DecidableEq

/-- `from_name`. -/
def SsCipher.fromName (name : String) : Option SsCipher :=
  let name := Text.toLowercase name
  if name ∈ ["aes-128-gcm", "aead_aes_128_gcm"] then some .aes128Gcm
  else if name ∈ ["aes-256-gcm", "aead_aes_256_gcm"] then some .aes256Gcm
  else if name ∈ ["chacha20-ietf-poly1305", "aead_chacha20_poly1305"] then some .chaCha20Poly1305
  else if name ∈ ["plain", "none", ""] then some .plain
  else none

def SsCipher.keySize : SsCipher → Nat
  | .aes128Gcm => 16
  | .aes256Gcm => 32
  | .chaCha20Poly1305 => 32
  | .plain => 0

theorem SsCipher.keySize_pos {cipher : SsCipher} (h : cipher ≠ .plain) : 0 < cipher.keySize := by
  cases cipher <;> simp_all [keySize]

def TAG_LEN : Nat := 16
def MAX_PAYLOAD : Nat := 0x3FFF
def LEN_BLOCK : Nat := 2 + TAG_LEN

def bumpBytes : Bytes → Bytes
  | [] => []
  | b :: bs => if b + 1 ≠ 0 then (b + 1) :: bs else (b + 1) :: bumpBytes bs

@[simp] theorem length_bumpBytes (bs : Bytes) : (bumpBytes bs).length = bs.length := by
  induction bs with
  | nil => rfl
  | cons b bs ih =>
    rw [bumpBytes]
    split <;> simp [ih]

/-- The 96-bit counter, least significant byte first. -/
structure Nonce where
  bytes : Bytes
  length_eq : bytes.length = 12
deriving DecidableEq

def Nonce.zero : Nonce := ⟨List.replicate 12 0, rfl⟩

def bumpNonce (nonce : Nonce) : Nonce :=
  ⟨bumpBytes nonce.bytes, by rw [length_bumpBytes, nonce.length_eq]⟩

/-- The AEAD ciphers, each with the subkey it was made with. -/
structure Aead (K : Type) where
  fromSalt : SsCipher → Bytes → Bytes → Except IoError K
  «seal» : K → Nonce → Bytes → Except IoError Bytes
  «open» : K → Nonce → Bytes → Except IoError Bytes

variable {K : Type}

/-! ## Reading -/

inductive ReadState
  | salt
  | length
  | payload (len : Nat)
  | eof
deriving Repr, DecidableEq

/-- `read_state`, `read_cipher` and `read_nonce`. -/
structure ReadSide (K : Type) where
  state : ReadState
  cipher : Option K
  nonce : Nonce

namespace ReadSide

def new : ReadSide K := ⟨.salt, none, .zero⟩

/-- The bytes of the next block: a salt, a sealed length or a sealed payload. -/
def mode {cipher : SsCipher} (pos : 0 < cipher.keySize) (r : ReadSide K) : Mode :=
  match r.state with
  | .salt => .block cipher.keySize pos
  | .length => .block LEN_BLOCK (by decide)
  | .payload len => .block (len + TAG_LEN) (Nat.lt_add_left len (by decide))
  | .eof => .eof

end ReadSide

def missingCipherErr : IoError := ⟨.other, "missing shadowsocks read cipher"⟩

def invalidLengthErr (len : Nat) : IoError :=
  ⟨.other, s!"invalid shadowsocks payload length: {len}"⟩

/-- The match of `poll_read` on a complete block. -/
def onBlock (aead : Aead K) (cipher : SsCipher) (key : Bytes) (r : ReadSide K) (block : Bytes) :
    ReadSide K × Except IoError Bytes :=
  match r.state with
  | .salt =>
    match aead.fromSalt cipher key block with
    | .error e => (r, .error e)
    | .ok k => ({ r with cipher := some k, state := .length }, .ok [])
  | .length =>
    match r.cipher with
    | none => (r, .error missingCipherErr)
    | some k =>
      match aead.open k r.nonce block with
      | .error e => (r, .error e)
      | .ok block =>
        let len := Bytes.beNat (block.take 2)
        let r := { r with nonce := bumpNonce r.nonce }
        if len = 0 ∨ len > MAX_PAYLOAD then (r, .error (invalidLengthErr len))
        else ({ r with state := .payload len }, .ok [])
  | .payload _ =>
    match r.cipher with
    | none => (r, .error missingCipherErr)
    | some k =>
      match aead.open k r.nonce block with
      | .error e => (r, .error e)
      | .ok block => ({ r with nonce := bumpNonce r.nonce, state := .length }, .ok block)
  | .eof => (r, .ok [])

/-- A stream that ends is in order if nothing of the next block has arrived. -/
def onEnded (r : ReadSide K) (buf : Bytes) : Except IoError (ReadSide K) :=
  if buf = [] then .ok { r with state := .eof } else .error unexpectedEofErr

def machine (aead : Aead K) {cipher : SsCipher} (key : Bytes) (pos : 0 < cipher.keySize) :
    Machine (ReadSide K) IoError :=
  { mode := ReadSide.mode pos, block := onBlock aead cipher key, ended := onEnded }

/-! ## The stream -/

structure SsStream (K : Type) where
  inner : Transport
  cipher : SsCipher
  key : Bytes
  /-- `read_state`, `read_cipher`, `read_nonce`, `read_buf` and `plain`. -/
  reader : Reader (ReadSide K)
  writeCipher : Option K
  writeNonce : Nonce
  out : Cursor
  rng : Rng

namespace SsStream

def new (inner : Transport) (cipher : SsCipher) (key : Bytes) (rng : Rng) : SsStream K :=
  { inner := inner, cipher := cipher, key := key, reader := .new .new, writeCipher := none
    writeNonce := .zero, out := .empty, rng := rng }

def pollRead (aead : Aead K) (cap : Nat) (c : SsStream K) :
    Poll (Except IoError Bytes) × SsStream K :=
  if h : c.cipher = .plain then
    match c.inner.inbound.read cap with
    | (a, inbound) => (a, { c with inner := { c.inner with inbound := inbound } })
  else
    match (machine aead c.key (SsCipher.keySize_pos h)).poll cap c.reader c.inner.inbound with
    | (a, reader, inbound) =>
      (a, { c with reader := reader, inner := { c.inner with inbound := inbound } })

def pollFlushOut (c : SsStream K) : Poll (Except IoError Unit) × SsStream K :=
  match drainOut writeZeroErr c.out c.inner.outbound with
  | (a, out, outbound) => (a, { c with out := out, inner := { c.inner with outbound := outbound } })

/-- The cipher that seals, which the first chunk makes from a new salt. -/
def ensureCipher (aead : Aead K) (c : SsStream K) : Except IoError K × SsStream K :=
  match c.writeCipher with
  | some k => (.ok k, c)
  | none =>
    let salt := (c.rng.fillBytes c.cipher.keySize).1
    let c := { c with rng := (c.rng.fillBytes c.cipher.keySize).2 }
    match aead.fromSalt c.cipher c.key salt with
    | .error e => (.error e, c)
    | .ok k => (.ok k, { c with writeCipher := some k, out := c.out.append salt })

/-- Seals one block behind what is queued. -/
def sealBlock (aead : Aead K) (k : K) (block : Bytes) (c : SsStream K) :
    Except IoError Unit × SsStream K :=
  match aead.seal k c.writeNonce block with
  | .error e => (.error e, c)
  | .ok sealed =>
    (.ok (), { c with writeNonce := bumpNonce c.writeNonce, out := c.out.append sealed })

def sealChunk (aead : Aead K) (data : Bytes) (c : SsStream K) : Except IoError Unit × SsStream K :=
  match c.ensureCipher aead with
  | (.error e, c) => (.error e, c)
  | (.ok k, c) =>
    match c.sealBlock aead k (Bytes.be 2 data.length) with
    | (.error e, c) => (.error e, c)
    | (.ok (), c) => c.sealBlock aead k data

def pollWrite (aead : Aead K) (buf : Bytes) (c : SsStream K) :
    Poll (Except IoError Nat) × SsStream K :=
  if c.cipher = .plain then
    match c.inner.outbound.write buf with
    | (a, outbound) => (a, { c with inner := { c.inner with outbound := outbound } })
  else if buf = [] then (.ready (.ok 0), c)
  else
    match c.pollFlushOut with
    | (.pending, c) => (.pending, c)
    -- an error of the transport comes back on the next call
    | (.ready _, c) =>
      match c.sealChunk aead (buf.take (min buf.length MAX_PAYLOAD)) with
      | (.error e, c) => (.ready (.error e), c)
      | (.ok (), c) => (.ready (.ok (min buf.length MAX_PAYLOAD)), c.pollFlushOut.2)

/-- `poll_flush` and `poll_shutdown`, which end in the same call of the transport. -/
def pollFinish (c : SsStream K) : Poll (Except IoError Unit) × SsStream K :=
  let finish (c : SsStream K) : Poll (Except IoError Unit) × SsStream K :=
    match c.inner.outbound.finish with
    | (a, outbound) => (a, { c with inner := { c.inner with outbound := outbound } })
  if c.cipher = .plain then finish c
  else
    match c.pollFlushOut with
    | (.pending, c) => (.pending, c)
    | (.ready (.error e), c) => (.ready (.error e), c)
    | (.ready (.ok ()), c) => finish c

def pollFlush (c : SsStream K) : Poll (Except IoError Unit) × SsStream K := c.pollFinish

def pollShutdown (c : SsStream K) : Poll (Except IoError Unit) × SsStream K := c.pollFinish

def writer (aead : Aead K) : ByteWriter (SsStream K) IoError :=
  { write := pollWrite aead, flush := pollFlush, shutdown := pollShutdown }

/-! ## What the calls do to the bytes on their way -/

/-- The bytes handed to the transport and those still queued for it. -/
def produced (c : SsStream K) : Bytes := c.inner.outbound.sent ++ c.out.rest

@[simp] theorem produced_pollFlushOut (c : SsStream K) : c.pollFlushOut.2.produced = c.produced :=
  drainOut_spec writeZeroErr c.out c.inner.outbound

@[simp] theorem writeCipher_pollFlushOut (c : SsStream K) :
    c.pollFlushOut.2.writeCipher = c.writeCipher := rfl

@[simp] theorem writeNonce_pollFlushOut (c : SsStream K) :
    c.pollFlushOut.2.writeNonce = c.writeNonce := rfl

@[simp] theorem cipher_pollFlushOut (c : SsStream K) : c.pollFlushOut.2.cipher = c.cipher := rfl

@[simp] theorem key_pollFlushOut (c : SsStream K) : c.pollFlushOut.2.key = c.key := rfl

/-- Finishing leaves everything but the transport and the queue alone. -/
theorem pollFinish_spec (c : SsStream K) :
    c.pollFinish.2.produced = c.produced ∧ c.pollFinish.2.cipher = c.cipher
      ∧ c.pollFinish.2.key = c.key ∧ c.pollFinish.2.writeCipher = c.writeCipher
      ∧ c.pollFinish.2.writeNonce = c.writeNonce := by
  have hp := c.produced_pollFlushOut
  unfold pollFinish
  by_cases hplain : c.cipher = .plain
  · simp [hplain, produced]
  · simp only [if_neg hplain]
    rcases hf : c.pollFlushOut with ⟨a, c'⟩
    obtain rfl : c.pollFlushOut.2 = c' := by rw [hf]
    match a with
    | .pending | .ready (.error e) => exact ⟨hp, rfl, rfl, rfl, rfl⟩
    | .ready (.ok ()) =>
      simp only [produced, Outbound.sent_finish] at hp ⊢
      exact ⟨hp, rfl, rfl, rfl, rfl⟩

end SsStream

end Ss
end RtProxy
