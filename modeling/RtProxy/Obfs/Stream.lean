import RtProxy.Transport
import RtProxy.Lib.Framing

/-!
The stream of the `otls` transport (`ObfsTlsStream` in `obfs_transport.rs`).

Every write travels in a TLS record.  The server holds its opening reply back until it
writes, and the client steps over that reply by position, since the first record of payload
is typed as a handshake too.
-/

namespace RtProxy
namespace Obfs

open ByteStream

def MAX_TLS_DATA_LEN : Nat := 16384

def REC_CHANGE_CIPHER_SPEC : UInt8 := 0x14
def REC_HANDSHAKE : UInt8 := 0x16
def REC_APP_DATA : UInt8 := 0x17

def REC_HEADER_LEN : Nat := 5

/-- `record`; the length is cut to two bytes. -/
def record (kind : UInt8) (version payload : Bytes) : Bytes :=
  kind :: (version ++ Bytes.be 2 payload.length ++ payload)

structure ObfsTlsStream where
  inner : Transport
  /-- Bytes that do not yet form a whole record. -/
  raw : Bytes
  /-- Payload not yet handed to the reader. -/
  ready : Cursor
  out : Cursor
  expectServerReply : Bool
  nextRecordType : UInt8

namespace ObfsTlsStream

def new (inner : Transport) (ready out : Bytes) (expectServerReply : Bool) : ObfsTlsStream :=
  { inner := inner, raw := [], ready := .ofBytes ready, out := .ofBytes out
    expectServerReply := expectServerReply
    nextRecordType := if expectServerReply then REC_APP_DATA else REC_HANDSHAKE }

/-! ## Reading -/

def oversizedErr : IoError := ⟨.invalidData, "obfs-tls: oversized record"⟩

def truncatedErr : IoError := ⟨.unexpectedEof, "obfs-tls: truncated record"⟩

/-- The type and the payload of the first record, and the bytes behind it. -/
def takeRecord (raw : Bytes) : Except IoError (Option (UInt8 × Bytes × Bytes)) :=
  if raw.length < REC_HEADER_LEN then .ok none
  else if Bytes.beNat ((raw.drop 3).take 2) > MAX_TLS_DATA_LEN + 2048 then .error oversizedErr
  else if raw.length < REC_HEADER_LEN + Bytes.beNat ((raw.drop 3).take 2) then .ok none
  else
    .ok (some (raw.getD 0 0, (raw.drop REC_HEADER_LEN).take (Bytes.beNat ((raw.drop 3).take 2)),
      raw.drop (REC_HEADER_LEN + Bytes.beNat ((raw.drop 3).take 2))))

/-- What `poll_read` does with a record. -/
def onRecord (kind : UInt8) (payload raw : Bytes) (c : ObfsTlsStream) : ObfsTlsStream :=
  if c.expectServerReply ∧ kind = REC_CHANGE_CIPHER_SPEC then
    { c with raw := raw, expectServerReply := false }
  else if c.expectServerReply ∧ kind = REC_HANDSHAKE then { c with raw := raw }
  -- anything else means the reply is already over
  else if payload = [] then { c with raw := raw, expectServerReply := false }
  else { c with raw := raw, expectServerReply := false, ready := .ofBytes payload }

theorem raw_onRecord (kind : UInt8) (payload raw : Bytes) (c : ObfsTlsStream) :
    (c.onRecord kind payload raw).raw = raw ∧ (c.onRecord kind payload raw).inner = c.inner := by
  unfold onRecord
  split
  · exact ⟨rfl, rfl⟩
  split
  · exact ⟨rfl, rfl⟩
  split <;> exact ⟨rfl, rfl⟩

theorem length_takeRecord {raw payload rest : Bytes} {kind : UInt8}
    (h : takeRecord raw = .ok (some (kind, payload, rest))) : rest.length < raw.length := by
  unfold takeRecord at h
  split at h
  · cases h
  · rename_i hlen
    split at h
    · cases h
    split at h
    · cases h
    · cases h
      rw [List.length_drop]
      simp only [REC_HEADER_LEN] at hlen ⊢
      omega

/-- `poll_read` into a buffer with `cap` bytes remaining. -/
def pollRead (cap : Nat) (c : ObfsTlsStream) : Poll (Except IoError Bytes) × ObfsTlsStream :=
  if c.ready.pos < c.ready.data.length then
    (.ready (.ok (c.ready.take cap).1), { c with ready := (c.ready.take cap).2 })
  else
    match _h : takeRecord c.raw with
    | .error e => (.ready (.error e), c)
    | .ok (some (kind, payload, raw)) => pollRead cap (c.onRecord kind payload raw)
    | .ok none =>
      match _hr : c.inner.inbound.read 8192 with
      | (.pending, src) => (.pending, { c with inner := { c.inner with inbound := src } })
      | (.ready (.error e), src) =>
        (.ready (.error e), { c with inner := { c.inner with inbound := src } })
      | (.ready (.ok []), src) =>
        (if c.raw = [] then .ready (.ok []) else .ready (.error truncatedErr),
          { c with inner := { c.inner with inbound := src } })
      | (.ready (.ok (b :: bs)), src) =>
        pollRead cap { c with raw := c.raw ++ b :: bs, inner := { c.inner with inbound := src } }
termination_by c.raw.length + 2 * c.inner.inbound.content.length
decreasing_by
  · obtain ⟨hraw, hinner⟩ := raw_onRecord kind payload raw c
    have hlen := length_takeRecord _h
    rw [hraw, hinner]
    omega
  · have hread := c.inner.inbound.reading 8192 (by decide)
    rw [_hr] at hread
    cases hread with
    | bytes h hle =>
      have hcontent : c.inner.inbound.content = b :: bs ++ src.content := h.content
      have hlen := congrArg List.length hcontent
      rw [List.length_append, List.length_cons] at hlen
      simp only [List.length_append, List.length_cons]
      omega

/-! ## Writing -/

def zeroErr : IoError := ⟨.writeZero, "obfs-tls: write returned zero"⟩

def flushOut (c : ObfsTlsStream) : Poll (Except IoError Unit) × ObfsTlsStream :=
  match drainOut zeroErr c.out c.inner.outbound with
  | (a, out, outbound) => (a, { c with out := out, inner := { c.inner with outbound := outbound } })

/-- The record of a write that starts with an empty queue. -/
def queue (buf : Bytes) (c : ObfsTlsStream) : ObfsTlsStream :=
  { c with
    nextRecordType := REC_APP_DATA
    out := .ofBytes (record c.nextRecordType [0x03, 0x03]
      (buf.take (min buf.length MAX_TLS_DATA_LEN))) }

def pollWrite (buf : Bytes) (c : ObfsTlsStream) : Poll (Except IoError Nat) × ObfsTlsStream :=
  match c.flushOut with
  | (.pending, c) => (.pending, c)
  | (.ready _, c) =>
    if buf = [] then (.ready (.ok 0), c)
    else
      match (c.queue buf).flushOut with
      | (.ready (.error e), c) => (.ready (.error e), c)
      -- a partial flush finishes on the next poll
      | (_, c) => (.ready (.ok (min buf.length MAX_TLS_DATA_LEN)), c)

/-- `poll_flush` and `poll_shutdown`, which end in the same call of the transport. -/
def pollFinish (c : ObfsTlsStream) : Poll (Except IoError Unit) × ObfsTlsStream :=
  match c.flushOut with
  | (.pending, c) => (.pending, c)
  | (.ready (.error e), c) => (.ready (.error e), c)
  | (.ready (.ok ()), c) =>
    match c.inner.outbound.finish with
    | (a, outbound) => (a, { c with inner := { c.inner with outbound := outbound } })

def pollFlush (c : ObfsTlsStream) : Poll (Except IoError Unit) × ObfsTlsStream := c.pollFinish

def pollShutdown (c : ObfsTlsStream) : Poll (Except IoError Unit) × ObfsTlsStream := c.pollFinish

def writer : ByteWriter ObfsTlsStream IoError :=
  { write := pollWrite, flush := pollFlush, shutdown := pollShutdown }

/-- The bytes handed to the transport and those still queued for it. -/
def produced (c : ObfsTlsStream) : Bytes := c.inner.outbound.sent ++ c.out.rest

@[simp] theorem produced_flushOut (c : ObfsTlsStream) : c.flushOut.2.produced = c.produced :=
  drainOut_spec zeroErr c.out c.inner.outbound

theorem produced_pollFinish (c : ObfsTlsStream) : c.pollFinish.2.produced = c.produced := by
  have hp := c.produced_flushOut
  unfold pollFinish
  revert hp
  rcases c.flushOut with ⟨a, c'⟩
  match a with
  | .pending | .ready (.error e) => exact id
  | .ready (.ok ()) =>
    intro hp
    simp only [produced, Outbound.sent_finish] at hp ⊢
    exact hp

end ObfsTlsStream

end Obfs
end RtProxy
