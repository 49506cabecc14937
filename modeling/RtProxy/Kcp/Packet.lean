import RtProxy.Kcp.Crc
import RtProxy.Kcp.Crypt
import RtProxy.Kcp.Fec

/-!
The datagrams of `kcp.rs`: `PacketFramer` and the two functions that undo it.
-/

namespace RtProxy
namespace Kcp

open Checked

def NONCE_SIZE : Nat := 16

def CRC_SIZE : Nat := 4

def CRYPT_HEADER_SIZE : Nat := NONCE_SIZE + CRC_SIZE

/-- `kcp::KCP_OVERHEAD`, the length of a segment's header. -/
def IKCP_OVERHEAD : Nat := 24

def MTU_LIMIT : Nat := 1500

/-! ## Framing -/

/-- A block as a data packet, not sealed yet, and the parity packets it completes. -/
def FecEncoder.frame (segments : Bytes) (enc : FecEncoder) : Bytes × List Bytes × FecEncoder :=
  let marked := enc.markData (2 + segments.length)
  let pkt := List.replicate CRYPT_HEADER_SIZE 0 ++ marked.1 ++ segments
  (pkt, marked.2.push pkt (CRYPT_HEADER_SIZE + FEC_HEADER_SIZE))

/-- `rng` stands for the thread's random generator. -/
structure PacketFramer where
  crypt : Crypt
  fec : Option FecEncoder
  queue : List Bytes
  rng : Rng

namespace PacketFramer

/-- The bytes before the segments of a data packet. -/
def headerLen (framer : PacketFramer) : Nat :=
  CRYPT_HEADER_SIZE + if framer.fec.isSome then FEC_HEADER_SIZE_PLUS2 else 0

/-- The nonce, the checksum and the cipher over an unsealed packet. -/
def sealWith (crypt : Crypt) (nonce pkt : Bytes) : Bytes :=
  crypt.encrypt (nonce ++ Bytes.le CRC_SIZE (crc32Ieee (pkt.drop CRYPT_HEADER_SIZE)).toNat
    ++ pkt.drop CRYPT_HEADER_SIZE)

/-- Seals a packet and puts it into the queue. -/
def enqueue (pkt : Bytes) (framer : PacketFramer) : PacketFramer :=
  { framer with
    queue := framer.queue ++ [sealWith framer.crypt (framer.rng.fillBytes NONCE_SIZE).1 pkt]
    rng := (framer.rng.fillBytes NONCE_SIZE).2 }

/-- One call is one datagram, and the parity it completes. -/
def write (segments : Bytes) (framer : PacketFramer) : PacketFramer :=
  match framer.fec with
  | none => framer.enqueue (List.replicate CRYPT_HEADER_SIZE 0 ++ segments)
  | some fec =>
    match fec.frame segments with
    | (pkt, parity, fec) =>
      parity.foldl (fun framer shard => framer.enqueue shard)
        ({ framer with fec := some fec }.enqueue pkt)

def writeAll (blocks : List Bytes) (framer : PacketFramer) : PacketFramer :=
  blocks.foldl (fun framer segments => framer.write segments) framer

end PacketFramer

/-- The framer of a session. -/
def PacketFramer.new (rs : NewCodec) (crypt : Crypt) (datashard parityshard : UInt32) (rng : Rng) :
    PacketFramer :=
  { crypt := crypt, fec := FecEncoder.new rs datashard parityshard, queue := [], rng := rng }

/-! ## Unframing -/

/-- The decrypted datagram, unless it is too short or its checksum is wrong. -/
def openPacket (crypt : Crypt) (buf : Bytes) : Option Bytes :=
  if buf.length < CRYPT_HEADER_SIZE then none
  else
    let buf := crypt.decrypt buf
    let expected := UInt32.ofNat (Bytes.leNat ((buf.drop NONCE_SIZE).take CRC_SIZE))
    if crc32Ieee (buf.drop CRYPT_HEADER_SIZE) ≠ expected then none else some buf

/-- The decrypted datagram and the range of its segments. -/
def packetUnframe (crypt : Crypt) (buf : Bytes) : Option (Bytes × Nat × Nat) :=
  match openPacket crypt buf with
  | none => none
  | some buf =>
    match fecStrip (buf.drop CRYPT_HEADER_SIZE) with
    | none => none
    | some segments =>
      if segments.length < IKCP_OVERHEAD then none
      else some (buf, buf.length - segments.length, buf.length)

/-- The segments of a payload, if they are long enough to be any. -/
def usableSegments (payload : Bytes) : Option Bytes :=
  match fecPayloadSegments payload with
  | some segments => if segments.length ≥ IKCP_OVERHEAD then some segments else none
  | none => none

/-- Every block of segments that a datagram yields, and the decoder after it. -/
def packetUnframeFec (crypt : Crypt) (buf : Bytes) (decoder : Option FecDecoder) (now : Nat) :
    Except Panic (List Bytes × Option FecDecoder) :=
  match decoder with
  | none =>
    match packetUnframe crypt buf with
    | some (buf, first, last) => .ok ([(buf.take last).drop first], none)
    | none => .ok ([], none)
  | some dec =>
    match openPacket crypt buf with
    | none => .ok ([], some dec)
    | some buf =>
      let body := buf.drop CRYPT_HEADER_SIZE
      match fecFlag body with
      | none => .ok (if body.length ≥ IKCP_OVERHEAD then [body] else [], some dec)
      | some flag =>
        if body.length < FEC_HEADER_SIZE then .ok ([], some dec)
        else do
          let seqid := UInt32.ofNat (Bytes.leNat (body.take 4))
          let payload := body.drop FEC_HEADER_SIZE
          let own := if flag = TYPE_DATA then (usableSegments payload).toList else []
          let (recovered, dec) ← dec.decode seqid flag payload now
          .ok (own ++ recovered.filterMap usableSegments, some dec)

/-! ## Sealing and opening -/

/-- A sealed packet opens to its nonce, its checksum and the bytes behind them. -/
theorem openPacket_sealWith (crypt : Crypt) {nonce : Bytes} (hnonce : nonce.length = NONCE_SIZE)
    (pkt : Bytes) : ∃ buf, openPacket crypt (PacketFramer.sealWith crypt nonce pkt) = some buf
      ∧ buf.drop CRYPT_HEADER_SIZE = pkt.drop CRYPT_HEADER_SIZE := by
  have hhead (crc : Nat) : (nonce ++ Bytes.le CRC_SIZE crc).length = CRYPT_HEADER_SIZE := by
    rw [List.length_append, hnonce, Bytes.length_le]
    rfl
  have hlen : ¬ (PacketFramer.sealWith crypt nonce pkt).length < CRYPT_HEADER_SIZE := by
    rw [PacketFramer.sealWith, Crypt.length_encrypt, List.length_append, hhead]
    omega
  have hcrc := (crc32Ieee (pkt.drop CRYPT_HEADER_SIZE)).toNat_lt
  refine ⟨nonce ++ Bytes.le CRC_SIZE (crc32Ieee (pkt.drop CRYPT_HEADER_SIZE)).toNat
    ++ pkt.drop CRYPT_HEADER_SIZE, ?_, List.drop_left' (hhead _)⟩
  have hstored : UInt32.ofNat (Bytes.leNat (((nonce
      ++ Bytes.le CRC_SIZE (crc32Ieee (pkt.drop CRYPT_HEADER_SIZE)).toNat
      ++ pkt.drop CRYPT_HEADER_SIZE).drop NONCE_SIZE).take CRC_SIZE))
      = crc32Ieee (pkt.drop CRYPT_HEADER_SIZE) := by
    rw [List.append_assoc, List.drop_left' hnonce, List.take_left' (Bytes.length_le _ _),
      Bytes.leNat_le hcrc, UInt32.ofNat_toNat]
  rw [openPacket, if_neg hlen, PacketFramer.sealWith, Crypt.decrypt_encrypt]
  simp only [hstored, List.drop_left' (hhead _), ne_eq, not_true_eq_false, if_false]

namespace PacketFramer

theorem write_none {framer : PacketFramer} (h : framer.fec = none) (segments : Bytes) :
    framer.write segments = framer.enqueue (List.replicate CRYPT_HEADER_SIZE 0 ++ segments) := by
  rw [write, h]

theorem write_some {framer : PacketFramer} {enc : FecEncoder} (h : framer.fec = some enc)
    (segments : Bytes) :
    framer.write segments = ((enc.frame segments).1 :: (enc.frame segments).2.1).foldl
      (fun framer pkt => framer.enqueue pkt) { framer with fec := some (enc.frame segments).2.2 } := by
  rw [write, h]
  rfl

theorem foldl_enqueue (pkts : List Bytes) (framer : PacketFramer) :
    ∃ sealed, (pkts.foldl (fun framer pkt => framer.enqueue pkt) framer).queue
        = framer.queue ++ sealed
      ∧ List.Forall₂ (fun pkt dgram => ∃ nonce, nonce.length = NONCE_SIZE
        ∧ dgram = sealWith framer.crypt nonce pkt) pkts sealed := by
  induction pkts generalizing framer with
  | nil => exact ⟨[], by simp, .nil⟩
  | cons pkt pkts ih =>
    obtain ⟨sealed, hqueue, hsealed⟩ := ih (framer.enqueue pkt)
    refine ⟨_ :: sealed, ?_,
      .cons ⟨(framer.rng.fillBytes NONCE_SIZE).1, Rng.length_fillBytes _ _, rfl⟩ hsealed⟩
    rw [List.foldl_cons, hqueue, enqueue, List.append_assoc]
    rfl

end PacketFramer

end Kcp
end RtProxy
