import RtProxy.Kcp.Crc
import RtProxy.Transport

/-!
The snappy framing between smux and KCP (`SnappyStream` in `kcp.rs`).

A stream is an identifier and then chunks, each a kind, a length, a masked checksum of
the plain bytes and a body.  The block format itself comes from another crate and is a
parameter.
-/

namespace RtProxy
namespace Kcp

open ByteStream

/-- The stream identifier, itself a chunk. -/
def SNAPPY_MAGIC : Bytes := [0xFF, 0x06, 0x00, 0x00, 0x73, 0x4E, 0x61, 0x50, 0x70, 0x59]

def SNAPPY_MAX_BLOCK : Nat := 65536

def SNAPPY_MAX_CHUNK : Nat := SNAPPY_MAX_BLOCK + 4

/-- The raw encoder and decoder of the `snap` crate. -/
structure Snap where
  compress : Bytes → Option Bytes
  decompress : Bytes → Except String Bytes

/-! ## Encoding -/

/-- The kind and body of a chunk: the compressed form only where it saves more than an
eighth. -/
def chunkBody (snap : Snap) (src : Bytes) : UInt8 × Bytes :=
  match snap.compress src with
  | some c => if c.length < src.length - src.length / 8 then (0x00, c) else (0x01, src)
  | none => (0x01, src)

def encodeChunk (snap : Snap) (src : Bytes) : Bytes :=
  (chunkBody snap src).1 :: Bytes.le 3 (4 + (chunkBody snap src).2.length)
    ++ Bytes.le 4 (crc32cMasked src).toNat ++ (chunkBody snap src).2

/-! ## Decoding -/

def invalidData (msg : String) : IoError := ⟨.invalidData, msg⟩

def oversizedErr (len : Nat) : IoError :=
  invalidData s!"snappy: {len}-byte chunk exceeds the format's limit"

/-- `{:#04x}`. -/
def hexByte (b : UInt8) : String :=
  "0x" ++ (if b < 0x10 then "0" else "") ++ String.ofList (Nat.toDigits 16 b.toNat)

/-- The checksum at the front of a body. -/
def storedChecksum (body : Bytes) : UInt32 := UInt32.ofNat (Bytes.leNat (body.take 4))

/-- What a data chunk holds: the bytes it adds to the output, and whether it is bad. -/
def onData (snap : Snap) (kind : UInt8) (body : Bytes) : Except IoError Bytes :=
  if body.length < 4 then
    .error (invalidData (if kind = 0x00 then "snappy: compressed chunk has no checksum"
      else "snappy: uncompressed chunk has no checksum"))
  else
    match if kind = 0x00 then snap.decompress (body.drop 4) else .ok (body.drop 4) with
    | .error e => .error (invalidData e)
    | .ok plain =>
      if kind = 0x00 ∧ plain.length > SNAPPY_MAX_BLOCK then
        .error (invalidData "snappy: block larger than the format allows")
      else if crc32cMasked plain ≠ storedChecksum body then
        .error (invalidData "snappy: chunk checksum mismatch")
      else .ok plain

/-- The match of `decode_chunks`: the error of a bad chunk, `saw_magic` and what is added
to the output. -/
def onKind (snap : Snap) (kind : UInt8) (body : Bytes) (sawMagic : Bool) :
    Option IoError × Bool × Bytes :=
  if kind ≤ 0x01 then
    match onData snap kind body with
    | .error e => (some e, sawMagic, [])
    | .ok plain => (none, sawMagic, plain)
  else if kind = 0xFF then
    if body ≠ SNAPPY_MAGIC.drop 4 then
      (some (invalidData "snappy: bad stream identifier"), sawMagic, [])
    else (none, true, [])
  else if kind ≤ 0x7F then
    (some (invalidData s!"snappy: reserved chunk type {hexByte kind}"), sawMagic, [])
  else (none, sawMagic, [])

/-- A whole chunk.  Data before the identifier is bad, but it is in the output by then. -/
def onChunk (snap : Snap) (kind : UInt8) (body : Bytes) (sawMagic : Bool) :
    Option IoError × Bool × Bytes :=
  match onKind snap kind body sawMagic with
  | (some e, sawMagic, plain) => (some e, sawMagic, plain)
  | (none, sawMagic, plain) =>
    if sawMagic = false ∧ kind ≠ 0xFF then
      (some (invalidData "snappy: data before the stream identifier"), sawMagic, plain)
    else (none, sawMagic, plain)

/-- `in_buf`, `dec`, `saw_magic` and `read_eof`. -/
structure SnappyReader where
  inBuf : Bytes
  dec : Cursor
  sawMagic : Bool
  readEof : Bool

namespace SnappyReader

def new : SnappyReader := { inBuf := [], dec := .empty, sawMagic := false, readEof := false }

/-- The kind and length of the chunk at the front of the buffer. -/
def head (buf : Bytes) : UInt8 × Nat := (buf.headD 0, Bytes.leNat ((buf.drop 1).take 3))

/-- `decode_chunks`; the flag tells whether a chunk was consumed. -/
def decodeChunks (snap : Snap) (progress : Bool) (r : SnappyReader) :
    Except IoError Bool × SnappyReader :=
  if r.inBuf.length < 4 then (.ok progress, r)
  else if (head r.inBuf).1 ≤ 0x01 ∧ (head r.inBuf).2 > SNAPPY_MAX_CHUNK then
    (.error (oversizedErr (head r.inBuf).2), r)
  else if r.inBuf.length < 4 + (head r.inBuf).2 then (.ok progress, r)
  else
    match onChunk snap (head r.inBuf).1 ((r.inBuf.drop 4).take (head r.inBuf).2) r.sawMagic with
    | (some e, sawMagic, plain) =>
      (.error e, { r with
        inBuf := r.inBuf.drop (4 + (head r.inBuf).2)
        dec := r.dec.append plain
        sawMagic := sawMagic })
    | (none, sawMagic, plain) =>
      decodeChunks snap true { r with
        inBuf := r.inBuf.drop (4 + (head r.inBuf).2)
        dec := r.dec.append plain
        sawMagic := sawMagic }
termination_by r.inBuf.length
decreasing_by
  simp only [List.length_drop]
  omega

def SCRATCH : Nat := 16 * 1024

/-- `poll_read` into a buffer with `cap` bytes remaining. -/
def poll (snap : Snap) (cap : Nat) (r : SnappyReader) (src : Inbound IoError) :
    Poll (Except IoError Bytes) × SnappyReader × Inbound IoError :=
  if r.dec.pos < r.dec.data.length then
    (.ready (.ok (r.dec.take cap).1), { r with dec := (r.dec.take cap).2 }, src)
  else if r.readEof then (.ready (.ok []), r, src)
  else
    match _h : src.read SCRATCH with
    | (.pending, src') => (.pending, r, src')
    | (.ready (.error e), src') => (.ready (.error e), r, src')
    | (.ready (.ok []), src') => (.ready (.ok []), { r with readEof := true }, src')
    | (.ready (.ok (b :: bs)), src') =>
      match decodeChunks snap false { r with inBuf := r.inBuf ++ b :: bs } with
      | (.error e, r) => (.ready (.error e), r, src')
      | (.ok _, r) => r.poll snap cap src'
termination_by src.content.length
decreasing_by
  have hread := src.reading SCRATCH (by decide)
  rw [_h] at hread
  cases hread with
  | bytes hg _ =>
    rw [hg.content, List.length_append, List.length_cons]
    simp only
    omega

end SnappyReader

/-! ## The stream -/

structure SnappyStream where
  inner : Transport
  reader : SnappyReader
  out : Cursor
  wroteMagic : Bool

namespace SnappyStream

def new (inner : Transport) : SnappyStream :=
  { inner := inner, reader := .new, out := .empty, wroteMagic := false }

def pollRead (snap : Snap) (cap : Nat) (c : SnappyStream) :
    Poll (Except IoError Bytes) × SnappyStream :=
  match c.reader.poll snap cap c.inner.inbound with
  | (a, reader, inbound) => (a, { c with reader := reader, inner := { c.inner with inbound := inbound } })

def stoppedErr : IoError := ⟨.writeZero, "snappy: the transport stopped accepting bytes"⟩

def pollDrain (c : SnappyStream) : Poll (Except IoError Unit) × SnappyStream :=
  match drainOut stoppedErr c.out c.inner.outbound with
  | (a, out, outbound) => (a, { c with out := out, inner := { c.inner with outbound := outbound } })

/-- Appends the identifier, once, and one chunk. -/
def queue (snap : Snap) (src : Bytes) (c : SnappyStream) : SnappyStream :=
  { c with
    wroteMagic := true
    out := (if c.wroteMagic then c.out else c.out.append SNAPPY_MAGIC).append (encodeChunk snap src) }

def pollWrite (snap : Snap) (buf : Bytes) (c : SnappyStream) :
    Poll (Except IoError Nat) × SnappyStream :=
  if buf = [] then (.ready (.ok 0), c)
  else
    match c.pollDrain with
    | (.ready (.error e), c) => (.ready (.error e), c)
    | (_, c) =>
      if c.out.data.length - c.out.pos > 4 * SNAPPY_MAX_BLOCK then (.pending, c)
      else
        -- whatever is left goes out on the next call
        (.ready (.ok (min buf.length SNAPPY_MAX_BLOCK)),
          (c.queue snap (buf.take (min buf.length SNAPPY_MAX_BLOCK))).pollDrain.2)

/-- `poll_flush` and `poll_shutdown`, which end in the same call of the transport. -/
def pollFinish (c : SnappyStream) : Poll (Except IoError Unit) × SnappyStream :=
  match c.pollDrain with
  | (.ready (.ok ()), c) =>
    match c.inner.outbound.finish with
    | (a, outbound) => (a, { c with inner := { c.inner with outbound := outbound } })
  | (a, c) => (a, c)

def pollFlush (c : SnappyStream) : Poll (Except IoError Unit) × SnappyStream := c.pollFinish

def pollShutdown (c : SnappyStream) : Poll (Except IoError Unit) × SnappyStream := c.pollFinish

def writer (snap : Snap) : ByteWriter SnappyStream IoError :=
  { write := pollWrite snap, flush := pollFlush, shutdown := pollShutdown }

/-! ## What the calls do to the bytes on their way -/

/-- The bytes handed to the transport and those still queued for it. -/
def produced (c : SnappyStream) : Bytes := c.inner.outbound.sent ++ c.out.rest

@[simp] theorem produced_pollDrain (c : SnappyStream) : c.pollDrain.2.produced = c.produced :=
  drainOut_spec stoppedErr c.out c.inner.outbound

@[simp] theorem wroteMagic_pollDrain (c : SnappyStream) :
    c.pollDrain.2.wroteMagic = c.wroteMagic := rfl

theorem produced_queue (snap : Snap) (src : Bytes) (c : SnappyStream) :
    (c.queue snap src).produced
      = c.produced ++ (if c.wroteMagic then [] else SNAPPY_MAGIC) ++ encodeChunk snap src := by
  simp only [produced, queue]
  split <;> simp

theorem pollFinish_spec (c : SnappyStream) :
    c.pollFinish.2.produced = c.produced ∧ c.pollFinish.2.wroteMagic = c.wroteMagic := by
  have hp := c.produced_pollDrain
  have hm := c.wroteMagic_pollDrain
  unfold pollFinish
  revert hp hm
  rcases c.pollDrain with ⟨a, c'⟩
  match a with
  | .pending | .ready (.error e) => exact fun hp hm => ⟨hp, hm⟩
  | .ready (.ok ()) =>
    intro hp hm
    simp only [produced, Outbound.sent_finish] at hp ⊢
    exact ⟨hp, hm⟩

/-- A flush that returns `Ok` has handed everything over. -/
theorem pollFinish_done {c : SnappyStream} (h : c.pollFinish.1 = .ready (.ok ())) :
    c.pollFinish.2.inner.outbound.sent = c.pollFinish.2.produced := by
  have hdone : c.pollDrain.1 = .ready (.ok ()) → c.pollDrain.2.out.rest = [] := drainOut_done
  unfold pollFinish at h ⊢
  revert h hdone
  rcases c.pollDrain with ⟨a, c'⟩
  match a with
  | .pending | .ready (.error e) => exact fun h _ => by cases h
  | .ready (.ok ()) =>
    intro _ hdone
    have hnil : c'.out.rest = [] := hdone rfl
    simp [produced, hnil]

end SnappyStream

end Kcp
end RtProxy
