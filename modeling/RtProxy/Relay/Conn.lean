import RtProxy.Transport

/-!
The data framing of the relay protocol (`RelayConn` in `relay.rs`).

In UDP mode every datagram is preceded by its length.  The server holds its response
header back until its first write, and the client reads that header on its first read.
-/

namespace RtProxy
namespace Relay

open ByteStream

def RELAY_VERSION1 : UInt8 := 0x01
def RELAY_STATUS_OK : UInt8 := 0x00
def RELAY_STATUS_BAD_REQUEST : UInt8 := 0x01
def RELAY_STATUS_UNAUTHORIZED : UInt8 := 0x02
def RELAY_STATUS_FORBIDDEN : UInt8 := 0x03
def RELAY_STATUS_TIMEOUT : UInt8 := 0x04
def RELAY_STATUS_SERVICE_UNAVAILABLE : UInt8 := 0x05
def RELAY_STATUS_HOST_UNREACHABLE : UInt8 := 0x06
def RELAY_STATUS_NETWORK_UNREACHABLE : UInt8 := 0x07

def RELAY_HEADER_LEN : Nat := 4
def RELAY_DGRAM_LEN_SIZE : Nat := 2
def RELAY_MAX_DATAGRAM : Nat := 0xFFFF

def relayStatusText (status : UInt8) : String :=
  if status = RELAY_STATUS_OK then "ok"
  else if status = RELAY_STATUS_BAD_REQUEST then "bad request"
  else if status = RELAY_STATUS_UNAUTHORIZED then "unauthorized"
  else if status = RELAY_STATUS_FORBIDDEN then "forbidden"
  else if status = RELAY_STATUS_TIMEOUT then "timeout"
  else if status = RELAY_STATUS_SERVICE_UNAVAILABLE then "service unavailable"
  else if status = RELAY_STATUS_HOST_UNREACHABLE then "host unreachable"
  else if status = RELAY_STATUS_NETWORK_UNREACHABLE then "network unreachable"
  else "unknown status"

/-! ## Reading -/

/-- `read_need` goes with the state, and a state that waits for bytes waits for some. -/
inductive ReadState
  | response
  | responseFeatures (len : Nat) (pos : 0 < len)
  | raw
  | length
  | payload (dlen : Nat) (pos : 0 < dlen)
  | eof
deriving Repr

def ReadState.mode : ReadState → Mode
  | .response => .block RELAY_HEADER_LEN (by decide)
  | .responseFeatures len pos => .block len pos
  | .raw => .raw
  | .length => .block RELAY_DGRAM_LEN_SIZE (by decide)
  | .payload dlen pos => .block dlen pos
  | .eof => .eof

/-- `enter_data_phase`. -/
def dataPhase (udp : Bool) : ReadState := if udp then .length else .raw

def closedErr : IoError :=
  ⟨.unexpectedEof, "relay: connection closed before the server response"⟩

def truncatedErr : IoError := ⟨.unexpectedEof, "relay: truncated datagram"⟩

/-- The match of `poll_read` on a complete block. -/
def onBlock (udp : Bool) : ReadState → Bytes → ReadState × Except IoError Bytes
  | .response, header =>
    if header.getD 0 0 ≠ RELAY_VERSION1 then (.response, .error ⟨.other, "relay: bad version"⟩)
    else if header.getD 1 0 ≠ RELAY_STATUS_OK then
      (.response, .error ⟨.other, s!"relay: {relayStatusText (header.getD 1 0)}"⟩)
    else if pos : 0 < Bytes.beNat ((header.drop 2).take 2) then
      (.responseFeatures (Bytes.beNat ((header.drop 2).take 2)) pos, .ok [])
    else (dataPhase udp, .ok [])
  | .responseFeatures _ _, _ => (dataPhase udp, .ok [])
  | .length, block =>
    -- an empty datagram carries nothing
    if pos : 0 < Bytes.beNat (block.take 2) then (.payload (Bytes.beNat (block.take 2)) pos, .ok [])
    else (.length, .ok [])
  | .payload _ _, block => (.length, .ok block)
  | .raw, _ => (.raw, .ok [])
  | .eof, _ => (.eof, .ok [])

/-- The match of `poll_read` on a stream that ends inside a block. -/
def onEnded : ReadState → Bytes → Except IoError ReadState
  | .response, _ | .responseFeatures _ _, _ => .error closedErr
  | _, buf => if buf = [] then .ok .eof else .error truncatedErr

def machine (udp : Bool) : Machine ReadState IoError :=
  { mode := ReadState.mode, block := onBlock udp, ended := onEnded }

/-! ## The connection -/

structure RelayConn where
  inner : Transport
  udp : Bool
  /-- `read_state`, `read_buf` and `plain`. -/
  reader : Reader ReadState
  pendingHeader : Bytes
  out : Cursor

namespace RelayConn

def client (inner : Transport) (udp : Bool) : RelayConn :=
  { inner := inner, udp := udp, reader := .new .response, pendingHeader := [], out := .empty }

def server (inner : Transport) (udp : Bool) (status : UInt8) : RelayConn :=
  { inner := inner, udp := udp, reader := .new (dataPhase udp)
    pendingHeader := [RELAY_VERSION1, status, 0x00, 0x00], out := .empty }

def pollRead (cap : Nat) (c : RelayConn) : Poll (Except IoError Bytes) × RelayConn :=
  match (machine c.udp).poll cap c.reader c.inner.inbound with
  | (a, reader, inbound) => (a, { c with reader := reader, inner := { c.inner with inbound := inbound } })

def queuePendingHeader (c : RelayConn) : RelayConn :=
  { c with out := c.out.append c.pendingHeader, pendingHeader := [] }

def pollFlushOut (c : RelayConn) : Poll (Except IoError Unit) × RelayConn :=
  match drainOut writeZeroErr c.out c.inner.outbound with
  | (a, out, outbound) => (a, { c with out := out, inner := { c.inner with outbound := outbound } })

def tooLongErr (buf : Bytes) : IoError :=
  ⟨.other, s!"relay: datagram of {buf.length} bytes exceeds the {RELAY_MAX_DATAGRAM}-byte maximum"⟩

/-- What `poll_write` does once the previous frame is out. -/
def queue (c : RelayConn) (buf : Bytes) : Poll (Except IoError Nat) × RelayConn :=
  if ¬ c.udp ∧ c.pendingHeader = [] then
    match c.inner.outbound.write buf with
    | (a, outbound) => (a, { c with inner := { c.inner with outbound := outbound } })
  else
    let c := c.queuePendingHeader
    let c := if c.udp then { c with out := c.out.append (Bytes.be 2 buf.length) } else c
    let c := { c with out := c.out.append buf }
    -- whatever remains goes out on the next call
    (.ready (.ok buf.length), c.pollFlushOut.2)

def pollWrite (buf : Bytes) (c : RelayConn) : Poll (Except IoError Nat) × RelayConn :=
  if buf = [] then (.ready (.ok 0), c)
  else if c.udp ∧ buf.length > RELAY_MAX_DATAGRAM then (.ready (.error (tooLongErr buf)), c)
  else
    match c.pollFlushOut with
    | (.pending, c) => (.pending, c)
    | (.ready (.error e), c) => (.ready (.error e), c)
    | (.ready (.ok ()), c) => c.queue buf

/-- `poll_flush` and `poll_shutdown`, which end in the same call of the transport. -/
def pollFinish (c : RelayConn) : Poll (Except IoError Unit) × RelayConn :=
  match c.queuePendingHeader.pollFlushOut with
  | (.pending, c) => (.pending, c)
  | (.ready (.error e), c) => (.ready (.error e), c)
  | (.ready (.ok ()), c) =>
    match c.inner.outbound.finish with
    | (a, outbound) => (a, { c with inner := { c.inner with outbound := outbound } })

def pollFlush (c : RelayConn) : Poll (Except IoError Unit) × RelayConn := c.pollFinish

def pollShutdown (c : RelayConn) : Poll (Except IoError Unit) × RelayConn := c.pollFinish

def writer : ByteWriter RelayConn IoError :=
  { write := pollWrite, flush := pollFlush, shutdown := pollShutdown }

/-! ## What the calls do to the bytes on their way -/

/-- The bytes handed to the transport and those still queued for it. -/
def produced (c : RelayConn) : Bytes := c.inner.outbound.sent ++ c.out.rest

@[simp] theorem produced_pollFlushOut (c : RelayConn) :
    c.pollFlushOut.2.produced = c.produced :=
  drainOut_spec writeZeroErr c.out c.inner.outbound

@[simp] theorem pendingHeader_pollFlushOut (c : RelayConn) :
    c.pollFlushOut.2.pendingHeader = c.pendingHeader := rfl

@[simp] theorem udp_pollFlushOut (c : RelayConn) : c.pollFlushOut.2.udp = c.udp := rfl

@[simp] theorem produced_queuePendingHeader (c : RelayConn) :
    c.queuePendingHeader.produced = c.produced ++ c.pendingHeader := by
  simp [produced, queuePendingHeader]

@[simp] theorem pendingHeader_queuePendingHeader (c : RelayConn) :
    c.queuePendingHeader.pendingHeader = [] := rfl

/-- In UDP mode a write queues the header, if it is still held back, and one frame. -/
theorem queue_udp {c : RelayConn} (hudp : c.udp = true) (buf : Bytes) :
    (c.queue buf).1 = .ready (.ok buf.length)
      ∧ (c.queue buf).2.produced = c.produced ++ c.pendingHeader ++ Bytes.be 2 buf.length ++ buf
      ∧ (c.queue buf).2.pendingHeader = [] ∧ (c.queue buf).2.udp = true := by
  unfold queue
  rw [if_neg (by simp [hudp])]
  have hq : c.queuePendingHeader.udp = true := hudp
  simp only [hq, if_true, produced_pollFlushOut, pendingHeader_pollFlushOut, udp_pollFlushOut]
  refine ⟨trivial, ?_, rfl, trivial⟩
  have hh := c.produced_queuePendingHeader
  unfold produced at hh ⊢
  rw [Cursor.rest_append, Cursor.rest_append, ← List.append_assoc, ← List.append_assoc, hh]

theorem pollFinish_spec (c : RelayConn) :
    c.pollFinish.2.produced = c.produced ++ c.pendingHeader
      ∧ c.pollFinish.2.pendingHeader = [] ∧ c.pollFinish.2.udp = c.udp := by
  have hp := c.queuePendingHeader.produced_pollFlushOut
  have hh := c.queuePendingHeader.pendingHeader_pollFlushOut
  have hu := c.queuePendingHeader.udp_pollFlushOut
  rw [produced_queuePendingHeader] at hp
  rw [pendingHeader_queuePendingHeader] at hh
  unfold pollFinish
  revert hp hh hu
  rcases c.queuePendingHeader.pollFlushOut with ⟨a, c'⟩
  match a with
  | .pending | .ready (.error e) => exact fun hp hh hu => ⟨hp, hh, hu⟩
  | .ready (.ok ()) =>
    refine fun hp hh hu => ⟨?_, hh, hu⟩
    have hsent : (c'.inner.outbound.finish).2.sent = c'.inner.outbound.sent := by simp
    simp only [produced] at hp ⊢
    rw [hsent, hp]

/-- A flush that ends has handed over all that was accepted. -/
theorem sent_of_finished {c : RelayConn} (h : c.pollFinish.1 = .ready (.ok ())) :
    c.pollFinish.2.inner.outbound.sent = c.produced ++ c.pendingHeader := by
  have hp := c.queuePendingHeader.produced_pollFlushOut
  have hrest : c.queuePendingHeader.pollFlushOut.1 = .ready (.ok ()) →
      c.queuePendingHeader.pollFlushOut.2.out.rest = [] := drainOut_done
  rw [produced_queuePendingHeader] at hp
  unfold pollFinish at h ⊢
  revert h hp hrest
  rcases c.queuePendingHeader.pollFlushOut with ⟨a, c'⟩
  match a with
  | .pending | .ready (.error e) => exact fun h => by cases h
  | .ready (.ok ()) =>
    intro h hp hrest
    show (c'.inner.outbound.finish).2.sent = _
    rw [Outbound.sent_finish, ← hp, produced, hrest rfl, List.append_nil]

/-- A transport that takes something at every poll lets a flush end. -/
theorem pollFinish_ready {c : RelayConn}
    (h : c.inner.outbound.Ready ((c.produced ++ c.pendingHeader).length + 1)) :
    c.pollFinish.1 = .ready (.ok ()) := by
  have hready : c.inner.outbound.Ready (c.queuePendingHeader.out.rest.length + 1) := by
    refine h.mono ?_
    simp only [queuePendingHeader, Cursor.rest_append, produced, List.length_append]
    omega
  obtain ⟨hdone, hmore⟩ := drainOut_ready writeZeroErr hready
  have hflush : c.queuePendingHeader.pollFlushOut.1 = .ready (.ok ()) := hdone
  have hfinish : (c.queuePendingHeader.pollFlushOut.2.inner.outbound).finish.1 = .ready (.ok ()) :=
    hmore.finish
  unfold pollFinish
  revert hflush hfinish
  rcases c.queuePendingHeader.pollFlushOut with ⟨a, c'⟩
  intro hflush hfinish
  dsimp only at hflush
  subst hflush
  exact hfinish

end RelayConn

end Relay
end RtProxy
