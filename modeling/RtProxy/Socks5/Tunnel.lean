import RtProxy.Io
import RtProxy.Lib.Net

/-!
SOCKS5 addresses and UDP datagrams over a byte stream (`socks5.rs`).

A tunnelled datagram is a SOCKS5 UDP datagram whose reserved field holds the
length of its payload.  `TunnelReader` is the reading half of
`Socks5UdpTunnelConn`.
-/

namespace RtProxy
namespace Socks5

def ATYP_IPV4 : UInt8 := 0x01
def ATYP_DOMAIN : UInt8 := 0x03
def ATYP_IPV6 : UInt8 := 0x04

def UDP_TUN_MAX_PAYLOAD : Nat := 65535
def UDP_TUN_HEAD_LEN : Nat := 5

/-- A payload with the host and port it comes from or goes to. -/
structure Datagram where
  data : Bytes
  host : String
  port : UInt16
deriving Repr, DecidableEq

open Net

def encodeAddress (host : String) (port : UInt16) : Bytes :=
  (match Ipv4Addr.parse host with
    | some ip => ATYP_IPV4 :: ip.octets
    | none =>
      match Ipv6Addr.parse host with
      | some ip => ATYP_IPV6 :: ip.octets
      | none =>
        ATYP_DOMAIN :: UInt8.ofNat (Text.utf8 host).length :: Text.utf8 host)
    ++ Bytes.be 2 port.toNat

/-- `RSV` is the payload length and `FRAG` is zero. -/
def encodeUdpTunnelDatagram (d : Datagram) : Bytes :=
  Bytes.be 2 d.data.length ++ [0x00] ++ encodeAddress d.host d.port ++ d.data

theorem encodeUdpTunnelDatagram_ne_nil (d : Datagram) : encodeUdpTunnelDatagram d ≠ [] := by
  unfold encodeUdpTunnelDatagram
  simp

/-- The host at the front of `b`, of the given address type, and its length. -/
def parseHost (atyp : UInt8) (b : Bytes) : Option (String × Nat) :=
  if atyp = ATYP_IPV4 then
    if b.length < 4 then none else some ((Ipv4Addr.ofOctets (b.take 4)).text, 4)
  else if atyp = ATYP_DOMAIN then
    match b with
    | [] => none
    | len :: name =>
      if len = 0 ∨ name.length < len.toNat then none
      else some (Text.fromUtf8Lossy (name.take len.toNat), 1 + len.toNat)
  else if atyp = ATYP_IPV6 then
    if b.length < 16 then none else some ((Ipv6Addr.ofOctets (b.take 16)).text, 16)
  else none

/-- `(frag, host, port, data_offset)`. -/
def parseUdpDatagram (b : Bytes) : Option (UInt8 × String × UInt16 × Nat) :=
  match b with
  | _ :: _ :: frag :: atyp :: rest =>
    if rest = [] then none
    else
      match parseHost atyp rest with
      | none => none
      | some (host, n) =>
        if rest.length < n + 2 then none
        else some (frag, host, UInt16.ofNat (Bytes.beNat ((rest.drop n).take 2)), 4 + n + 2)
  | _ => none

/-! ## Reading a tunnel -/

/-- `TunnelReadState`.  A header has at least one byte, so a frame is never
empty. -/
inductive ReadState
  | head
  | body (hlen dlen : Nat) (pos : 0 < hlen)
  | eof
deriving Repr, DecidableEq

/-- `read_need`, which the source sets together with the state. -/
def ReadState.need : ReadState → Nat
  | .body hlen dlen _ => hlen + dlen
  | _ => UDP_TUN_HEAD_LEN

/-- The reading half of `Socks5UdpTunnelConn` between two calls of `recv_from`,
which leave `plain` empty. -/
structure TunnelReader where
  state : ReadState
  buf : Bytes
deriving Repr, DecidableEq

def TunnelReader.new : TunnelReader := { state := .head, buf := [] }

/-- What the transport says when no byte is left to read. -/
inductive InEnd
  | pending
  | eof
  | error (e : IoError)
deriving Repr, DecidableEq

/-- What `recv_from` returns. -/
inductive Received
  | datagram (d : Datagram)
  | closed
  | failed (e : IoError)
deriving Repr, DecidableEq

/-- The header length that the first five bytes of a frame announce; it is never
zero. -/
def headerLength (b : Bytes) : Except UInt8 { n : Nat // 0 < n } :=
  let atyp := b.getD 3 0
  if atyp = ATYP_IPV4 then .ok ⟨10, by decide⟩
  else if atyp = ATYP_IPV6 then .ok ⟨22, by decide⟩
  else if atyp = ATYP_DOMAIN then .ok ⟨7 + (b.getD 4 0).toNat, by omega⟩
  else .error atyp

def truncatedErr : IoError := ⟨.unexpectedEof, "socks5: truncated UDP tunnel datagram"⟩

def badAtypErr (atyp : UInt8) : IoError :=
  ⟨.other, s!"socks5: bad address type in UDP tunnel frame: {atyp}"⟩

def malformedErr : IoError := ⟨.other, "socks5: malformed address in UDP tunnel frame"⟩

namespace TunnelReader

/-- `poll_fill` on `inbound`: what the buffer holds then and what is left. -/
def fill (r : TunnelReader) (inbound : Bytes) : Bytes × Bytes :=
  (r.buf ++ inbound.take (r.state.need - r.buf.length),
    inbound.drop (r.state.need - r.buf.length))

theorem length_fill (r : TunnelReader) (inbound : Bytes) :
    (r.fill inbound).1.length + (r.fill inbound).2.length = r.buf.length + inbound.length := by
  unfold fill
  rw [List.length_append, List.length_take, List.length_drop]
  omega

/-- One turn of the loop in `poll_datagram`: it returns, where `none` is
`Poll::Pending`, or goes round again. -/
inductive Turn
  | stop (out : Option Received) (r : TunnelReader) (rest : Bytes)
  | again (r : TunnelReader) (rest : Bytes)

/-- The frame does not get complete: the transport has nothing, or has ended. -/
def short (r : TunnelReader) (rest : Bytes) : InEnd → Turn
  | .pending => .stop none r rest
  | .error e => .stop (some (.failed e)) r rest
  | .eof =>
    if r.buf = [] ∧ r.state = .head then .stop (some .closed) { r with state := .eof } rest
    else .stop (some (.failed truncatedErr)) r rest

/-- The five bytes that tell how long the frame is. -/
def onHead (buf rest : Bytes) : Turn :=
  match headerLength buf with
  | .error atyp => .stop (some (.failed (badAtypErr atyp))) { state := .head, buf := buf } rest
  | .ok ⟨hlen, pos⟩ =>
    .again { state := .body hlen (Bytes.beNat (buf.take 2)) pos, buf := buf } rest

/-- A complete frame.  Fragments and empty datagrams are dropped. -/
def onBody (hlen dlen : Nat) (buf rest : Bytes) : Turn :=
  match parseUdpDatagram (buf.take hlen) with
  | none => .stop (some (.failed malformedErr)) .new rest
  | some (frag, host, port, _) =>
    if frag ≠ 0 ∨ dlen = 0 then .again .new rest
    else .stop (some (.datagram ⟨(buf.drop hlen).take dlen, host, port⟩)) .new rest

def turn (r : TunnelReader) (inbound : Bytes) (fin : InEnd) : Turn :=
  if r.state = .eof then .stop (some .closed) r inbound
  else if (r.fill inbound).1.length < r.state.need then
    short { r with buf := (r.fill inbound).1 } (r.fill inbound).2 fin
  else
    match r.state with
    | .body hlen dlen _ => onBody hlen dlen (r.fill inbound).1 (r.fill inbound).2
    | _ => onHead (r.fill inbound).1 (r.fill inbound).2

/-- How much work the loop has left. -/
def work (r : TunnelReader) (inbound : Bytes) : Nat :=
  2 * (r.buf.length + inbound.length) + if r.state = .head then 1 else 0

theorem work_turn {r r' : TunnelReader} {inbound rest : Bytes} {fin : InEnd}
    (h : r.turn inbound fin = .again r' rest) : r'.work rest < r.work inbound := by
  have hlen := r.length_fill inbound
  unfold turn at h
  split_ifs at h with heof hlt
  · unfold short at h
    split at h
    · cases h
    · cases h
    · split_ifs at h
  · cases hs : r.state with
    | body hlen dlen pos =>
      rw [hs] at h hlt
      change onBody hlen dlen _ _ = _ at h
      change ¬ _ < hlen + dlen at hlt
      unfold onBody at h
      split at h
      · cases h
      · split_ifs at h
        cases h
        simp only [work, new, List.length_nil, if_true, hs, reduceCtorEq, if_false]
        omega
    | head =>
      rw [hs] at h
      change onHead _ _ = _ at h
      unfold onHead at h
      split at h
      · cases h
      · cases h
        simp only [work, hs, reduceCtorEq, if_false, if_true]
        omega
    | eof => exact absurd hs heof

/-- `poll_recv_from`: `none` is `Poll::Pending`. -/
def pollRecvFrom (r : TunnelReader) (inbound : Bytes) (fin : InEnd) :
    Option Received × TunnelReader × Bytes :=
  match _h : r.turn inbound fin with
  | .stop out r rest => (out, r, rest)
  | .again r' rest => pollRecvFrom r' rest fin
termination_by r.work inbound
decreasing_by exact work_turn _h

theorem pollRecvFrom_stop {r r' : TunnelReader} {inbound rest : Bytes} {fin : InEnd}
    {out : Option Received} (h : r.turn inbound fin = .stop out r' rest) :
    r.pollRecvFrom inbound fin = (out, r', rest) := by
  rw [pollRecvFrom]
  split <;> rename_i heq <;> rw [h] at heq <;> cases heq
  rfl

theorem pollRecvFrom_again {r r' : TunnelReader} {inbound rest : Bytes} {fin : InEnd}
    (h : r.turn inbound fin = .again r' rest) :
    r.pollRecvFrom inbound fin = r'.pollRecvFrom rest fin := by
  rw [pollRecvFrom]
  split <;> rename_i heq <;> rw [h] at heq <;> cases heq
  rfl

/-- A call of `recv_from` that needs no further byte. -/
def Ready (r : TunnelReader) (inbound : Bytes) (fin : InEnd) : Prop :=
  (r.pollRecvFrom inbound fin).1 ≠ none

instance (r : TunnelReader) (inbound : Bytes) (fin : InEnd) : Decidable (r.Ready inbound fin) :=
  inferInstanceAs (Decidable ((r.pollRecvFrom inbound fin).1 ≠ none))

/-- A full buffer takes nothing from what arrives later. -/
theorem fill_append {r : TunnelReader} {inbound : Bytes}
    (h : r.state.need ≤ (r.fill inbound).1.length) (more : Bytes) :
    r.fill (inbound ++ more) = ((r.fill inbound).1, (r.fill inbound).2 ++ more) := by
  have hlen : r.state.need - r.buf.length ≤ inbound.length := by
    unfold fill at h
    rw [List.length_append, List.length_take] at h
    omega
  unfold fill
  rw [List.take_append_of_le_length hlen, List.drop_append_of_le_length hlen]

def Turn.append (more : Bytes) : Turn → Turn
  | .stop out r rest => .stop out r (rest ++ more)
  | .again r rest => .again r (rest ++ more)

/-- A turn that does not wait is the same however much more has arrived. -/
theorem turn_append {r : TunnelReader} {inbound : Bytes}
    (h : ∀ r' rest, r.turn inbound .pending ≠ .stop none r' rest) (more : Bytes) :
    r.turn (inbound ++ more) .pending = (r.turn inbound .pending).append more := by
  by_cases heof : r.state = .eof
  · simp only [turn, heof, if_true, Turn.append]
  by_cases hshort : (r.fill inbound).1.length < r.state.need
  · refine absurd ?_ (h { r with buf := (r.fill inbound).1 } (r.fill inbound).2)
    simp only [turn, heof, hshort, if_true, if_false, short]
  · have hfill := fill_append (Nat.le_of_not_lt hshort) more
    simp only [turn, heof, hfill, hshort, if_false]
    cases r.state with
    | body hlen dlen pos =>
      simp only [onBody]
      split
      · rfl
      · split_ifs <;> rfl
    | head | eof =>
      simp only [onHead]
      split <;> rfl

/-- More bytes do not make a call wait.  The induction is on the work the loop has
left. -/
theorem Ready.append {r : TunnelReader} {inbound : Bytes} (h : r.Ready inbound .pending)
    (more : Bytes) : r.Ready (inbound ++ more) .pending := by
  induction hw : r.work inbound using Nat.strong_induction_on generalizing r inbound with
  | _ n ih =>
    subst hw
    unfold Ready at h ⊢
    cases ht : r.turn inbound .pending with
    | stop out r' rest =>
      rw [pollRecvFrom_stop ht] at h
      have happ := turn_append (fun r'' rest' heq => h (by rw [ht] at heq; cases heq; rfl)) more
      rw [ht] at happ
      rw [pollRecvFrom_stop happ]
      exact h
    | again r' rest =>
      rw [pollRecvFrom_again ht] at h
      have happ := turn_append (fun r'' rest' heq => by rw [ht] at heq; cases heq) more
      rw [ht] at happ
      rw [pollRecvFrom_again happ]
      exact ih _ (work_turn ht) h rfl

/-- A transport that has ended makes no call wait. -/
theorem ready_of_ended (r : TunnelReader) (inbound : Bytes) {fin : InEnd} (hfin : fin ≠ .pending) :
    r.Ready inbound fin := by
  induction hw : r.work inbound using Nat.strong_induction_on generalizing r inbound with
  | _ n ih =>
    subst hw
    unfold Ready
    cases ht : r.turn inbound fin with
    | again r' rest =>
      rw [pollRecvFrom_again ht]
      exact ih _ (work_turn ht) r' rest rfl
    | stop out r' rest =>
      rw [pollRecvFrom_stop ht]
      rintro rfl
      unfold turn at ht
      split_ifs at ht
      · cases ht
      · unfold short at ht
        split at ht
        · exact hfin rfl
        · cases ht
        · split_ifs at ht <;> cases ht
      · cases hs : r.state with
        | body hlen dlen pos =>
          rw [hs] at ht
          change onBody hlen dlen _ _ = _ at ht
          unfold onBody at ht
          split at ht
          · cases ht
          · split_ifs at ht
            cases ht
        | head | eof =>
          rw [hs] at ht
          change onHead _ _ = _ at ht
          unfold onHead at ht
          split at ht <;> cases ht

end TunnelReader

end Socks5
end RtProxy
