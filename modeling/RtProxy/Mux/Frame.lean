import RtProxy.Io
import RtProxy.Lib.Bytes

/-!
The smux v1 wire format and the session configuration (`mux.rs`).

A frame is an eight-byte header, `ver | cmd | length (LE u16) | sid (LE u32)`,
followed by its payload.
-/

namespace RtProxy
namespace Mux

/-! ## Wire constants -/

def VERSION_1 : UInt8 := 1
def VERSION_2 : UInt8 := 2

def CMD_SYN : UInt8 := 0
def CMD_FIN : UInt8 := 1
def CMD_PSH : UInt8 := 2
def CMD_NOP : UInt8 := 3
def CMD_UPD : UInt8 := 4

def HEADER_SIZE : Nat := 8
def UPD_SIZE : Nat := 8
def MAX_FRAME_SIZE : Nat := 32768
def MAX_FRAME_DATA : Nat := 65535
def DEFAULT_ACCEPT_BACKLOG : Nat := 1024

/-! ## Frame codec -/

structure MuxHeader where
  version : UInt8
  cmd : UInt8
  length : UInt16
  sid : UInt32
deriving Repr, DecidableEq

namespace MuxHeader

def encode (h : MuxHeader) : Bytes :=
  [h.version, h.cmd] ++ Bytes.le 2 h.length.toNat ++ Bytes.le 4 h.sid.toNat

/-- The inverse of `encode`; `buf` stands for the source's `[u8; HEADER_SIZE]`. -/
def decode (buf : Bytes) : MuxHeader :=
  { version := buf.getD 0 0
    cmd := buf.getD 1 0
    length := UInt16.ofNat (Bytes.leNat ((buf.drop 2).take 2))
    sid := UInt32.ofNat (Bytes.leNat ((buf.drop 4).take 4)) }

@[simp] theorem length_encode (h : MuxHeader) : h.encode.length = HEADER_SIZE := by
  simp [encode, HEADER_SIZE]

theorem decode_encode (h : MuxHeader) : decode h.encode = h := by
  have hlen : Bytes.leNat (Bytes.le 2 h.length.toNat) = h.length.toNat :=
    Bytes.leNat_le (by simpa using h.length.toNat_lt)
  have hsid : Bytes.leNat (Bytes.le 4 h.sid.toNat) = h.sid.toNat :=
    Bytes.leNat_le (by simpa using h.sid.toNat_lt)
  have htake : ((Bytes.le 2 h.length.toNat ++ Bytes.le 4 h.sid.toNat).take 2)
      = Bytes.le 2 h.length.toNat := List.take_left' (by simp)
  have hdrop : ((Bytes.le 2 h.length.toNat ++ Bytes.le 4 h.sid.toNat).drop 2)
      = Bytes.le 4 h.sid.toNat := List.drop_left' (by simp)
  have htake4 : (Bytes.le 4 h.sid.toNat).take 4 = Bytes.le 4 h.sid.toNat :=
    List.take_of_length_le (by simp)
  simp [decode, encode, htake, hdrop, htake4, hlen, hsid]

theorem encode_decode {buf : Bytes} (h : buf.length = HEADER_SIZE) :
    (decode buf).encode = buf := by
  obtain ⟨b0, b1, b2, b3, b4, b5, b6, b7, rfl⟩ : ∃ b0 b1 b2 b3 b4 b5 b6 b7,
      buf = [b0, b1, b2, b3, b4, b5, b6, b7] := by
    match buf, h with
    | [b0, b1, b2, b3, b4, b5, b6, b7], _ => exact ⟨b0, b1, b2, b3, b4, b5, b6, b7, rfl⟩
  have hlen : (UInt16.ofNat (Bytes.leNat [b2, b3])).toNat = Bytes.leNat [b2, b3] :=
    UInt16.toNat_ofNat_of_lt' (by simpa [UInt16.size] using Bytes.leNat_lt [b2, b3])
  have hsid : (UInt32.ofNat (Bytes.leNat [b4, b5, b6, b7])).toNat
      = Bytes.leNat [b4, b5, b6, b7] :=
    UInt32.toNat_ofNat_of_lt' (by simpa [UInt32.size] using Bytes.leNat_lt [b4, b5, b6, b7])
  have h2 : Bytes.le 2 (Bytes.leNat [b2, b3]) = [b2, b3] := Bytes.le_leNat [b2, b3]
  have h4 : Bytes.le 4 (Bytes.leNat [b4, b5, b6, b7]) = [b4, b5, b6, b7] :=
    Bytes.le_leNat [b4, b5, b6, b7]
  simp [decode, encode, hlen, hsid, h2, h4]

end MuxHeader

structure MuxFrame where
  version : UInt8
  cmd : UInt8
  sid : UInt32
  data : Bytes
deriving Repr, DecidableEq

namespace MuxFrame

/-- A frame with no payload: SYN, FIN and NOP are always empty. -/
def new (version cmd : UInt8) (sid : UInt32) : MuxFrame :=
  { version := version, cmd := cmd, sid := sid, data := [] }

def withData (version cmd : UInt8) (sid : UInt32) (data : Bytes) : MuxFrame :=
  { version := version, cmd := cmd, sid := sid, data := data }

def header (f : MuxFrame) : MuxHeader :=
  { version := f.version, cmd := f.cmd, length := UInt16.ofNat f.data.length, sid := f.sid }

/-- Appends the encoded frame to `out`. -/
def encodeInto (f : MuxFrame) (out : Bytes) : Except IoError Bytes :=
  if f.data.length > MAX_FRAME_DATA then
    .error ⟨.invalidInput,
      s!"smux: frame payload {f.data.length} exceeds the {MAX_FRAME_DATA}-byte protocol limit"⟩
  else .ok (out ++ f.header.encode ++ f.data)

def encode (f : MuxFrame) : Except IoError Bytes := f.encodeInto []

/-- Decodes one frame from the front of `buf`: `none` when `buf` does not hold a
whole frame yet. -/
def decode (buf : Bytes) : Except IoError (Option (MuxFrame × Nat)) :=
  if buf.length < HEADER_SIZE then .ok none
  else
    let header := MuxHeader.decode (buf.take HEADER_SIZE)
    let want : Except IoError Nat :=
      if header.cmd = CMD_PSH ∨ header.cmd = CMD_UPD then .ok header.length.toNat
      else if header.cmd = CMD_SYN ∨ header.cmd = CMD_FIN ∨ header.cmd = CMD_NOP then .ok 0
      else .error ⟨.invalidData, s!"smux: invalid protocol, unknown command {header.cmd}"⟩
    match want with
    | .error e => .error e
    | .ok want =>
      if buf.length < HEADER_SIZE + want then .ok none
      else
        .ok (some
          ({ version := header.version, cmd := header.cmd, sid := header.sid
             data := (buf.drop HEADER_SIZE).take want },
            HEADER_SIZE + want))

end MuxFrame

/-! ## Configuration -/

/-- Durations are in nanoseconds. -/
structure MuxConfig where
  version : UInt8
  keepAliveDisabled : Bool
  keepAliveInterval : Nat
  keepAliveTimeout : Nat
  maxFrameSize : Nat
  maxReceiveBuffer : Nat
  maxStreamBuffer : Nat
deriving Repr, DecidableEq

namespace MuxConfig

/-- `MuxConfig::default`, smux's `DefaultConfig()`. -/
def default : MuxConfig :=
  { version := VERSION_1
    keepAliveDisabled := false
    keepAliveInterval := 10 * 10 ^ 9
    keepAliveTimeout := 30 * 10 ^ 9
    maxFrameSize := MAX_FRAME_SIZE
    maxReceiveBuffer := 4 * 1024 * 1024
    maxStreamBuffer := 65536 }

/-- smux's `VerifyConfig`, plus a hard rejection of version 2. -/
def verify (c : MuxConfig) : Except IoError Unit :=
  if c.version ≠ VERSION_1 ∧ c.version ≠ VERSION_2 then
    .error ⟨.invalidInput, s!"smux: unsupported protocol version {c.version}"⟩
  else if c.version = VERSION_2 then
    .error ⟨.unsupported, "smux: protocol version 2 is not implemented, use version 1"⟩
  else if ¬ c.keepAliveDisabled ∧ c.keepAliveInterval = 0 then
    .error ⟨.invalidInput, "smux: keep-alive interval must be positive"⟩
  else if ¬ c.keepAliveDisabled ∧ c.keepAliveTimeout < c.keepAliveInterval then
    .error ⟨.invalidInput,
      "smux: keep-alive timeout must be larger than keep-alive interval"⟩
  else if c.maxFrameSize = 0 then
    .error ⟨.invalidInput, "smux: max frame size must be positive"⟩
  else if c.maxFrameSize > MAX_FRAME_DATA then
    .error ⟨.invalidInput, "smux: max frame size must not be larger than 65535"⟩
  else if c.maxReceiveBuffer = 0 then
    .error ⟨.invalidInput, "smux: max receive buffer must be positive"⟩
  else if c.maxStreamBuffer = 0 then
    .error ⟨.invalidInput, "smux: max stream buffer must be positive"⟩
  else if c.maxStreamBuffer > c.maxReceiveBuffer then
    .error ⟨.invalidInput,
      "smux: max stream buffer must not be larger than max receive buffer"⟩
  else .ok ()

/-- Bytes of payload the send queue holds before `pollWrite` parks. -/
def sendQueueLimit (c : MuxConfig) : Nat := max (c.maxFrameSize * 8) 65536

/-- What a verified configuration guarantees to the session. -/
structure Valid (c : MuxConfig) : Prop where
  version : c.version = VERSION_1
  maxFrameSize_pos : 0 < c.maxFrameSize
  maxFrameSize_le : c.maxFrameSize ≤ MAX_FRAME_DATA
  maxReceiveBuffer_pos : 0 < c.maxReceiveBuffer

theorem valid_of_verify {c : MuxConfig} (h : c.verify = .ok ()) : c.Valid := by
  unfold verify at h
  split_ifs at h with h1 h2 h3 h4 h5 h6 h7 h8 h9
  refine ⟨?_, by omega, by omega, by omega⟩
  by_contra hv
  exact h1 ⟨hv, h2⟩

end MuxConfig

end Mux
end RtProxy
