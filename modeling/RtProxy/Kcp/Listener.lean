import Mathlib.Logic.Function.Basic
import RtProxy.Kcp.Packet
import RtProxy.Lib.Net
import RtProxy.Lib.Transition

/-!
`KcpListener::serve` of `kcp.rs`: one socket for every peer.

The loop takes one datagram or one close notification at a time.  A datagram is
unframed with the decoder of its address, and each block of segments it yields goes to
the session of that address or starts one.  A block is dealt with in one step, since
the code does not wait between reading the table and writing it; what `spawn_session`
returns, and when a session's driver goes away, are choices of the steps.
-/

namespace RtProxy
namespace Kcp

open Checked Net

def IKCP_SN_OFFSET : Nat := 12

/-- The `conv` and the `sn` of the first segment. -/
def peekConv (segments : Bytes) : Option (UInt32 × UInt32) :=
  if segments.length < IKCP_OVERHEAD then none
  else
    some (UInt32.ofNat (Bytes.leNat (segments.take 4)),
      UInt32.ofNat (Bytes.leNat ((segments.drop IKCP_SN_OFFSET).take 4)))

/-! ## State -/

/-- A `tokio::sync::mpsc` channel; `closed` when its receiver has been dropped. -/
structure Chan where
  queue : List Bytes
  closed : Bool
deriving Repr, DecidableEq

inductive TrySendError
  | full
  | closed
deriving Repr, DecidableEq

/-- Blocks that fit the channel to a driver. -/
def CHANNEL_SIZE : Nat := 256

namespace Chan

def new : Chan := { queue := [], closed := false }

def gone : Chan := { queue := [], closed := true }

def trySend (segments : Bytes) (c : Chan) : Except TrySendError Chan :=
  if c.closed then .error .closed
  else if c.queue.length < CHANNEL_SIZE then .ok { c with queue := c.queue ++ [segments] }
  else .error .full

end Chan

/-- One live session; `tx` is the number of its channel. -/
structure PeerSession where
  tx : Nat
  conv : UInt32
  id : UInt64
deriving Repr, DecidableEq

/-- What `serve` uses of the listener. -/
structure KcpListener where
  crypt : Crypt
  rs : NewCodec
  datashard : UInt32
  parityshard : UInt32

/-- The decoder made for every packet, to learn whether FEC is configured. -/
def KcpListener.fresh (net : KcpListener) : Option FecDecoder :=
  FecDecoder.new net.rs net.datashard net.parityshard

inductive ServePc
  | select
  | blocks (peer : SocketAddr) (rest : List Bytes)
  | ended
deriving Repr, DecidableEq

/-- A datagram as it came in, and when. -/
structure Datagram where
  peer : SocketAddr
  bytes : Bytes
  now : Nat
deriving Repr, DecidableEq

/-- A session that was started: `born` counts the datagrams received before the one that
started it, `serial` the sessions tried up to it. -/
structure Started where
  peer : SocketAddr
  conv : UInt32
  id : UInt64
  serial : Nat
  born : Nat
deriving Repr, DecidableEq

/-- The state of `serve`, with the channels to the drivers by number.  The last four
fields are history: the sessions tried, the sessions started, each under the number of
its channel, the blocks handed to drivers with the address they came from, and the
datagrams received. -/
structure Serve where
  peers : SocketAddr → Option PeerSession
  fec : SocketAddr → Option FecDecoder
  nextId : UInt64
  chans : Nat → Chan
  pc : ServePc
  tried : Nat
  started : List Started
  handed : List (Nat × SocketAddr × Bytes)
  log : List Datagram

namespace Serve

def new : Serve :=
  { peers := fun _ => none
    fec := fun _ => none
    nextId := 0
    chans := fun _ => Chan.new
    pc := .select
    tried := 0
    started := []
    handed := []
    log := [] }

def setPeer (s : Serve) (peer : SocketAddr) (session : Option PeerSession) : Serve :=
  { s with peers := Function.update s.peers peer session }

def setChan (s : Serve) (k : Nat) (c : Chan) : Serve :=
  { s with chans := Function.update s.chans k c }

/-- The rest of the `for` loop. -/
def goOn (s : Serve) (peer : SocketAddr) (rest : List Bytes) : Serve :=
  { s with pc := .blocks peer rest }

/-- A close notification. -/
def close (s : Serve) (peer : SocketAddr) (id : UInt64) : Serve :=
  if (s.peers peer).map (·.id) = some id then
    { s with
      peers := Function.update s.peers peer none
      fec := Function.update s.fec peer none }
  else s

/-- `fec.entry(peer).or_insert(fresh)`, when FEC is configured. -/
def decoder (s : Serve) (net : KcpListener) (peer : SocketAddr) : Option FecDecoder :=
  net.fresh.map fun fresh => (s.fec peer).getD fresh

/-- The decoder is worked on in place. -/
def storeDecoder (s : Serve) (peer : SocketAddr) (dec : Option FecDecoder) : Serve :=
  { s with fec := if dec.isSome then Function.update s.fec peer dec else s.fec }

/-- The packet has been unframed. -/
def receive (s : Serve) (d : Datagram) (blocks : List Bytes) (dec : Option FecDecoder) : Serve :=
  { s.storeDecoder d.peer dec with pc := .blocks d.peer blocks, log := s.log ++ [d] }

/-- A block with these numbers starts a session. -/
def Starts (s : Serve) (peer : SocketAddr) (conv sn : UInt32) : Prop :=
  s.peers peer = none ∨ ∃ session, s.peers peer = some session ∧ session.conv ≠ conv ∧ sn = 0

/-- The entry of the address is gone, and the next id is taken. -/
def clear (s : Serve) (peer : SocketAddr) : Serve :=
  { s.setPeer peer none with nextId := s.nextId + 1, tried := s.tried + 1 }

/-- A session is up; `handed` says whether its driver was still there for the block. -/
def start (s : Serve) (peer : SocketAddr) (conv : UInt32) (segments : Bytes) (handed : Bool) :
    Serve :=
  { s with
    peers := Function.update s.peers peer
      (some { tx := s.started.length, conv := conv, id := s.nextId + 1 })
    nextId := s.nextId + 1
    tried := s.tried + 1
    chans := Function.update s.chans s.started.length
      (if handed then { queue := [segments], closed := false } else Chan.gone)
    started := s.started ++
      [{ peer := peer, conv := conv, id := s.nextId + 1, serial := s.tried + 1
         born := s.log.length - 1 }]
    handed := if handed then s.handed ++ [(s.started.length, peer, segments)] else s.handed }

end Serve

/-! ## Steps -/

/-- What becomes of a block. -/
inductive Fate
  | unreadable
  | sent
  | lost
  | gone
  | stale
  | failed
  | started (handed : Bool)
deriving Repr, DecidableEq

inductive Label
  | cancelled
  | closed (peer : SocketAddr) (id : UInt64)
  | recvError
  | datagram (d : Datagram)
  | block (fate : Fate)
  | next
  | take (k : Nat)
  | leave (k : Nat)
deriving Repr, DecidableEq

inductive Step (net : KcpListener) (s : Serve) : Label → Serve → Prop
  | cancelled (h : s.pc = .select) :
      Step net s .cancelled { s with peers := fun _ => none, pc := .ended }
  | closed (peer : SocketAddr) (id : UInt64) (h : s.pc = .select) :
      Step net s (.closed peer id) (s.close peer id)
  | recvError (h : s.pc = .select) : Step net s .recvError s
  | recvFrom {d : Datagram} {blocks : List Bytes} {dec : Option FecDecoder} (h : s.pc = .select)
      (hlen : d.bytes.length ≤ MTU_LIMIT)
      (hdec : packetUnframeFec net.crypt d.bytes (s.decoder net d.peer) d.now
        = .ok (blocks, dec)) : Step net s (.datagram d) (s.receive d blocks dec)
  | recvPanic {d : Datagram} {p : Panic} (h : s.pc = .select)
      (hlen : d.bytes.length ≤ MTU_LIMIT)
      (hdec : packetUnframeFec net.crypt d.bytes (s.decoder net d.peer) d.now = .error p) :
      Step net s (.datagram d) { s with pc := .ended }
  /- `for segments in blocks` -/
  | done {peer : SocketAddr} (h : s.pc = .blocks peer []) :
      Step net s .next { s with pc := .select }
  | unreadable {peer : SocketAddr} {segments : Bytes} {rest : List Bytes}
      (h : s.pc = .blocks peer (segments :: rest)) (hc : peekConv segments = none) :
      Step net s (.block .unreadable) (s.goOn peer rest)
  | sent {peer : SocketAddr} {segments : Bytes} {rest : List Bytes} {conv sn : UInt32}
      {session : PeerSession} {c : Chan} (h : s.pc = .blocks peer (segments :: rest))
      (hc : peekConv segments = some (conv, sn)) (hp : s.peers peer = some session)
      (hconv : session.conv = conv) (hsend : (s.chans session.tx).trySend segments = .ok c) :
      Step net s (.block .sent)
        ({ s.setChan session.tx c with
          handed := s.handed ++ [(session.tx, peer, segments)] }.goOn peer rest)
  | lost {peer : SocketAddr} {segments : Bytes} {rest : List Bytes} {conv sn : UInt32}
      {session : PeerSession} (h : s.pc = .blocks peer (segments :: rest))
      (hc : peekConv segments = some (conv, sn)) (hp : s.peers peer = some session)
      (hconv : session.conv = conv)
      (hsend : (s.chans session.tx).trySend segments = .error .full) :
      Step net s (.block .lost) (s.goOn peer rest)
  /- the driver had gone, or goes before `is_closed` is read -/
  | gone {peer : SocketAddr} {segments : Bytes} {rest : List Bytes} {conv sn : UInt32}
      {session : PeerSession} {e : TrySendError} (h : s.pc = .blocks peer (segments :: rest))
      (hc : peekConv segments = some (conv, sn)) (hp : s.peers peer = some session)
      (hconv : session.conv = conv)
      (hsend : (s.chans session.tx).trySend segments = .error e) :
      Step net s (.block .gone) (((s.setChan session.tx Chan.gone).setPeer peer none).goOn peer rest)
  | stale {peer : SocketAddr} {segments : Bytes} {rest : List Bytes} {conv sn : UInt32}
      {session : PeerSession} (h : s.pc = .blocks peer (segments :: rest))
      (hc : peekConv segments = some (conv, sn)) (hp : s.peers peer = some session)
      (hconv : session.conv ≠ conv) (hsn : sn ≠ 0) :
      Step net s (.block .stale) (s.goOn peer rest)
  /- `spawn_session` -/
  | failed {peer : SocketAddr} {segments : Bytes} {rest : List Bytes} {conv sn : UInt32}
      (h : s.pc = .blocks peer (segments :: rest)) (hc : peekConv segments = some (conv, sn))
      (hnew : s.Starts peer conv sn) :
      Step net s (.block .failed) ((s.clear peer).goOn peer rest)
  | started {peer : SocketAddr} {segments : Bytes} {rest : List Bytes} {conv sn : UInt32}
      (handed : Bool) (h : s.pc = .blocks peer (segments :: rest))
      (hc : peekConv segments = some (conv, sn)) (hnew : s.Starts peer conv sn) :
      Step net s (.block (.started handed)) ((s.start peer conv segments handed).goOn peer rest)
  /- the drivers -/
  | take {k : Nat} {segments : Bytes} {rest : List Bytes}
      (h : (s.chans k).queue = segments :: rest) :
      Step net s (.take k) (s.setChan k { s.chans k with queue := rest })
  | leave (k : Nat) : Step net s (.leave k) (s.setChan k Chan.gone)

end Kcp
end RtProxy
