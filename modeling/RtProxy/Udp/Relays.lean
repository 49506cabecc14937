import RtProxy.Handler.Socks5
import RtProxy.Socks5.TunnelConn
import RtProxy.Ss.Address
import RtProxy.Ss.Stream

/-!
The three loops that relay UDP datagrams for a client, with their payloads:
`transport_udp` and `tunnel_server_udp` of `socks5.rs`, and `relay` of the
`ShadowUdpHandler` of `ss.rs`.

A round of a loop is what the `select!` yields.  With an input come the answers that the
round may need: what the resolver finds for the destination, the salt of a sealed
datagram, and whether sending fails.
-/

namespace RtProxy
namespace UdpRelay

open ByteStream Net

/-- What the resolver finds, or that it fails. -/
abbrev Answer := Option (List IpAddr)

/-- A datagram as a socket holds it: the 16-bit length covers a header of 8 bytes. -/
structure Packet where
  bytes : Bytes
  le : bytes.length ≤ 65535 - 8

def UDP_BUFFER_SIZE : Nat := 64 * 1024

/-- `recv_from` into a buffer of that size. -/
def Packet.received (p : Packet) : Bytes := p.bytes.take UDP_BUFFER_SIZE

/-- A datagram from outside. -/
structure Outside where
  packet : Packet
  origin : SocketAddr
  result : Except IoError Unit

section

variable (o : HandlerOptions)

/-- `udp_dst_allowed` of `Socks5Handler`. -/
def udpDstAllowed (dst : String) : Bool :=
  if o.allows "udp" dst = false then false
  else if o.bypasses dst = true then false
  else true

/-- `resolve_udp_addr` of `socks5.rs`. -/
def resolveUdpAddr (answer : Answer) (host : String) (port : UInt16) : Option SocketAddr :=
  match IpAddr.parse host with
  | some ip => some ⟨ip, port⟩
  | none => (answer.bind List.head?).map fun ip => ⟨ip, port⟩

/-- Both checks of a destination, before and after it has been resolved. -/
def approve (dst : String) (resolved : Option SocketAddr) : Option SocketAddr :=
  if udpDstAllowed o dst = false then none
  else
    match resolved with
    | none => none
    | some raddr =>
      if raddr.text ≠ dst ∧ udpDstAllowed o raddr.text = false then none else some raddr

/-! ## `transport_udp` -/

structure FromClient where
  packet : Packet
  laddr : SocketAddr
  answer : Answer
  result : Except IoError Unit

structure Reply where
  origin : SocketAddr
  caddr : SocketAddr
  packet : Bytes

/-- The client the loop serves.  But for `ended` the rest is history: the client datagrams
received, what was sent on and where to, and the replies. -/
structure TransportUdp where
  clientAddr : Option SocketAddr
  received : List FromClient
  sent : List (Bytes × SocketAddr)
  replies : List Reply
  ended : Option IoError

inductive TransportEv
  | fromClient (d : FromClient)
  | fromPeer (d : Outside)
  | failed (e : IoError)

namespace TransportUdp

def init : TransportUdp :=
  { clientAddr := none, received := [], sent := [], replies := [], ended := none }

/-- The destination of a client's datagram that is sent on, and its payload. -/
def forward (bs : Bytes) (answer : Answer) : Option (Bytes × SocketAddr) :=
  match Socks5.parseUdpDatagram bs with
  | none => none
  | some (frag, host, port, off) =>
    if frag ≠ 0 then none
    else
      (approve o (Socks5.joinHostPort host port) (resolveUdpAddr answer host port)).map
        fun raddr => (bs.drop off, raddr)

def fail (s : TransportUdp) : Except IoError Unit → TransportUdp
  | .ok () => s
  | .error e => { s with ended := some e }

def onClient (s : TransportUdp) (d : FromClient) : TransportUdp :=
  let client := s.clientAddr.getD d.laddr
  let s := { s with clientAddr := some client, received := s.received ++ [d] }
  if client ≠ d.laddr then s
  else
    match forward o d.packet.received d.answer with
    | none => s
    | some out => fail { s with sent := s.sent ++ [out] } d.result

def onPeer (s : TransportUdp) (d : Outside) : TransportUdp :=
  match s.clientAddr with
  | none => s
  | some caddr =>
    if o.bypasses d.origin.text = true then s
    else
      let reply : Reply :=
        ⟨d.origin, caddr, Socks5.encodeUdpDatagram d.origin d.packet.received⟩
      fail { s with replies := s.replies ++ [reply] } d.result

def round (s : TransportUdp) (ev : TransportEv) : TransportUdp :=
  if s.ended.isSome then s
  else
    match ev with
    | .fromClient d => s.onClient o d
    | .fromPeer d => s.onPeer o d
    | .failed e => { s with ended := some e }

def run (evs : List TransportEv) : TransportUdp := evs.foldl (round o) init

end TransportUdp

/-! ## `tunnel_server_udp` -/

/-- A datagram that the tunnel has yielded, and what the resolver finds for it. -/
structure FromTunnel where
  datagram : Socks5.Datagram
  answer : Answer

/-- A datagram that goes back through the tunnel, and where it came from. -/
structure TunnelReply where
  origin : SocketAddr
  datagram : Socks5.Datagram

/-- The reading half of the tunnel and what is left of the client's stream, and history as
above. -/
structure TunnelUdp where
  reader : Socks5.TunnelReader
  src : Inbound IoError
  received : List FromTunnel
  sent : List (Bytes × SocketAddr)
  replies : List TunnelReply
  ended : Option (Except IoError Unit)

inductive TunnelEv
  | fromTunnel (answer : Answer) (result : Except IoError Unit)
  | fromPeer (d : Outside)
  | failed (e : IoError)

namespace TunnelUdp

def init (src : Inbound IoError) : TunnelUdp :=
  { reader := .new, src := src, received := [], sent := [], replies := [], ended := none }

def fail (s : TunnelUdp) : Except IoError Unit → TunnelUdp
  | .ok () => s
  | .error e => { s with ended := some (.error e) }

def onDatagram (s : TunnelUdp) (d : FromTunnel) (result : Except IoError Unit) : TunnelUdp :=
  let s := { s with received := s.received ++ [d] }
  match approve o (Socks5.joinHostPort d.datagram.host d.datagram.port)
      (resolveUdpAddr d.answer d.datagram.host d.datagram.port) with
  | none => s
  | some raddr => fail { s with sent := s.sent ++ [(d.datagram.data, raddr)] } result

/-- The tunnel is polled; a call that is pending is dropped when the other branch is
taken. -/
def onTunnel (s : TunnelUdp) (answer : Answer) (result : Except IoError Unit) : TunnelUdp :=
  match s.reader.poll s.src with
  | (polled, reader, src) =>
    let s := { s with reader := reader, src := src }
    match polled with
    | .pending => s
    | .ready .closed => { s with ended := some (.ok ()) }
    | .ready (.failed e) => { s with ended := some (.error e) }
    | .ready (.datagram d) => s.onDatagram o ⟨d, answer⟩ result

def onPeer (s : TunnelUdp) (d : Outside) : TunnelUdp :=
  if o.bypasses d.origin.text = true then s
  else
    let reply : TunnelReply :=
      ⟨d.origin, ⟨d.packet.received, d.origin.ip.text, d.origin.port⟩⟩
    fail { s with replies := s.replies ++ [reply] } d.result

def round (s : TunnelUdp) (ev : TunnelEv) : TunnelUdp :=
  if s.ended.isSome then s
  else
    match ev with
    | .fromTunnel answer result => s.onTunnel o answer result
    | .fromPeer d => s.onPeer o d
    | .failed e => { s with ended := some (.error e) }

def run (src : Inbound IoError) (evs : List TunnelEv) : TunnelUdp := evs.foldl (round o) (init src)

end TunnelUdp

end

/-! ## `ShadowUdpHandler` -/

open Ss

def UDP_NONCE : Nonce := .zero

def UDP_MAX_DATAGRAM : Nat := 64 * 1024

def MAX_CONSECUTIVE_RECV_ERRORS : Nat := 64

/-- `conn.read` into a buffer of that size; the connection yields whole datagrams. -/
def Packet.read (p : Packet) : Bytes := p.bytes.take UDP_MAX_DATAGRAM

section

variable {K : Type} (aead : Aead K) (cipher : SsCipher) (key : Bytes)

def sealUdpDatagram (salt plain : Bytes) : Except IoError Bytes :=
  if cipher = .plain then .ok plain
  else
    match aead.fromSalt cipher key salt with
    | .error e => .error e
    | .ok k =>
      match aead.seal k UDP_NONCE plain with
      | .error e => .error e
      | .ok body => .ok (salt ++ body)

def shortErr (packet : Bytes) : IoError :=
  ⟨.other, s!"short shadowsocks UDP datagram: {packet.length} bytes, minimum {cipher.keySize + TAG_LEN}"⟩

def openUdpDatagram (packet : Bytes) : Except IoError Bytes :=
  if cipher = .plain then .ok packet
  else if packet.length < cipher.keySize + TAG_LEN then .error (shortErr cipher packet)
  else
    match aead.fromSalt cipher key (packet.take cipher.keySize) with
    | .error e => .error e
    | .ok k => aead.open k UDP_NONCE (packet.drop cipher.keySize)

/-- `udp_dst_allowed` of `ShadowUdpHandler`. -/
def shadowDstAllowed (o : HandlerOptions) (dst : String) : Bool := udpDstAllowed o dst

/-- `resolve_udp_addr` of `ss.rs`. -/
def resolveTarget (answer : Answer) (address : String) : Option SocketAddr :=
  match SocketAddr.parse address with
  | some addr => some addr
  | none =>
    match Permissions.splitHostPort address with
    | .error _ => none
    | .ok (_, port) =>
      match Text.parseUnsigned (2 ^ 16) port with
      | none => none
      | some n => (answer.bind List.head?).map fun ip => ⟨ip, UInt16.ofNat n⟩

structure ShadowPacket where
  packet : Packet
  answer : Answer

/-- A reply, and the address it is said to come from. -/
structure ShadowReply where
  origin : String
  packet : Bytes

/-- The failed receives in a row, and history as above. -/
structure ShadowUdp where
  consecutiveRecvErrors : Nat
  received : List ShadowPacket
  sent : List (Bytes × SocketAddr)
  replies : List ShadowReply
  ended : Option (Except HandlerError Unit)

/-- A reply comes from the socket or from a tunnel of the chain, which names any host.
Sending one on takes a salt. -/
inductive ShadowEv
  | clientError (e : IoError)
  | clientEof
  | fromClient (d : ShadowPacket)
  | targetError (e : IoError)
  | fromTarget (d : Socks5.Datagram) (salt : Bytes) (result : Except IoError Unit)

namespace ShadowUdp

def init : ShadowUdp :=
  { consecutiveRecvErrors := 0, received := [], sent := [], replies := [], ended := none }

variable (o : HandlerOptions)

def forward (bs : Bytes) (answer : Answer) : Option (Bytes × SocketAddr) :=
  match openUdpDatagram aead cipher key bs with
  | .error _ => none
  | .ok plain =>
    match parseSsAddress plain with
    | .error _ => none
    | .ok (target, off) =>
      (approve o target (resolveTarget answer target)).map fun raddr => (plain.drop off, raddr)

/-- An error of the send does not end the association. -/
def onClient (s : ShadowUdp) (d : ShadowPacket) : ShadowUdp :=
  let s := { s with received := s.received ++ [d] }
  match forward aead cipher key o d.packet.read d.answer with
  | none => s
  | some out => { s with sent := s.sent ++ [out] }

/-- The address a reply is said to come from. -/
def originOf (d : Socks5.Datagram) : String :=
  if Text.contains d.host ':' then s!"[{d.host}]:{d.port.toNat}" else s!"{d.host}:{d.port.toNat}"

def sealReply (salt : Bytes) (d : Socks5.Datagram) : Except HandlerError Bytes :=
  match encodeSsTarget (originOf d) with
  | .error e => .error e
  | .ok head =>
    match sealUdpDatagram aead cipher key salt (head ++ d.data) with
    | .error e => .error (.io e)
    | .ok packet => .ok packet

def onTarget (s : ShadowUdp) (d : Socks5.Datagram) (salt : Bytes) (result : Except IoError Unit) :
    ShadowUdp :=
  let s := { s with consecutiveRecvErrors := 0 }
  if o.bypasses (originOf d) = true then s
  else
    match sealReply aead cipher key salt d with
    | .error e => { s with ended := some (.error e) }
    | .ok packet =>
      let s := { s with replies := s.replies ++ [⟨originOf d, packet⟩] }
      match result with
      | .ok () => s
      | .error e => { s with ended := some (.error (.io e)) }

def onTargetError (s : ShadowUdp) (e : IoError) : ShadowUdp :=
  let s := { s with consecutiveRecvErrors := s.consecutiveRecvErrors + 1 }
  if s.consecutiveRecvErrors > MAX_CONSECUTIVE_RECV_ERRORS then
    { s with ended := some (.error (.io e)) }
  else s

def round (s : ShadowUdp) (ev : ShadowEv) : ShadowUdp :=
  if s.ended.isSome then s
  else
    match ev with
    | .clientError e => { s with ended := some (.error (.io e)) }
    | .clientEof => { s with ended := some (.ok ()) }
    | .fromClient d => s.onClient aead cipher key o d
    | .targetError e => s.onTargetError e
    | .fromTarget d salt result => s.onTarget aead cipher key o d salt result

def run (evs : List ShadowEv) : ShadowUdp := evs.foldl (round aead cipher key o) init

end ShadowUdp

end

end UdpRelay
end RtProxy
