import Mathlib.Logic.Function.Basic
import RtProxy.Lib.Bytes
import RtProxy.Lib.Net
import RtProxy.Lib.Transition

/-!
The UDP listener of `udp.rs`: one socket, presented as one connection for each source.

The demultiplex loop, the handlers that own connections, the TTL task of each connection
and the owner of the listener run at once.  Every lock taken, channel operation, token
cancelled and map update is a step of its own.  The loop holds the lock of the table from
the lookup of a source to the end of the send; every other holder takes one step under it.
-/

namespace RtProxy
namespace Udp

open Net Transition

def DEFAULT_TTL : Nat := 60 * 10 ^ 9
def DEFAULT_BACKLOG : Nat := 128
def DEFAULT_QUEUE_SIZE : Nat := 128
def MAX_DATAGRAM : Nat := 64 * 1024

structure UdpListenConfig where
  ttl : Nat
  backlog : Nat
  queueSize : Nat
deriving Repr, DecidableEq

def UdpListenConfig.normalized (config : UdpListenConfig) : UdpListenConfig :=
  { ttl := if config.ttl = 0 then DEFAULT_TTL else config.ttl
    backlog := if config.backlog = 0 then DEFAULT_BACKLOG else config.backlog
    queueSize := if config.queueSize = 0 then DEFAULT_QUEUE_SIZE else config.queueSize }

/-- A datagram; its number among those received and its source are history where only
the payload is passed on. -/
structure Datagram where
  number : Nat
  src : SocketAddr
  payload : Bytes
deriving Repr, DecidableEq

/-! ## Connections -/

/-- Where a connection is: waiting to be accepted, owned by a handler, inside `close`
after the token, or in its drop (to cancel the token, to leave the table, to free its
queue, freed). -/
inductive Phase
  | queued
  | held
  | closing
  | dropping
  | cancelled
  | removed
  | gone
deriving Repr, DecidableEq

/-- The drop has left the table. -/
def Phase.left : Phase → Bool
  | removed | gone => true
  | _ => false

/-- What one read copied: into a buffer with this room, from this place of the datagram
on. -/
structure Read where
  datagram : Datagram
  start : Nat
  room : Nat
  bytes : Bytes
deriving Repr, DecidableEq

def Read.stop (r : Read) : Nat := r.start + r.bytes.length

/-- `rx` is its queue, which nobody can send to once it is gone.  The last two fields are
history: how many datagrams had been received before the one it was made for, and what its
reads returned. -/
structure UdpServerConn where
  peer : SocketAddr
  rx : List Datagram
  pending : Option (Datagram × Nat)
  activity : Nat
  closed : Bool
  phase : Phase
  created : Nat
  reads : List Read
deriving Repr, DecidableEq

/-- How a round of the loop in `poll_read` ends. -/
inductive Poll
  | pending
  | again
  | ready (bytes : Bytes)
deriving Repr, DecidableEq

inductive TrySendError
  | full
  | closed
deriving Repr, DecidableEq

namespace UdpServerConn

def new (d : Datagram) (now : Nat) (phase : Phase) : UdpServerConn :=
  { peer := d.src, rx := [], pending := none, activity := now, closed := false, phase := phase
    created := d.number, reads := [] }

/-- `buf.put_slice`; what does not fit stays pending. -/
def put (c : UdpServerConn) (d : Datagram) (pos room : Nat) : UdpServerConn × Poll :=
  let n := min room (d.payload.length - pos)
  let bytes := (d.payload.drop pos).take n
  ({ c with
      pending := if d.payload.length ≤ pos + n then none else some (d, pos + n)
      reads := c.reads ++ [⟨d, pos, room, bytes⟩] }, .ready bytes)

/-- `poll_read`, up to its first receive from the queue. -/
def pollRead (c : UdpServerConn) (room : Nat) (senders : Bool) (now : Nat) :
    UdpServerConn × Poll :=
  if room = 0 then (c, .ready [])
  else
    match c.pending with
    | some (d, pos) => c.put d pos room
    | none =>
      match c.rx with
      | [] => if senders then (c, .pending) else (c, .ready [])
      | d :: rest =>
        if d.payload = [] then ({ c with rx := rest, activity := now }, .again)
        else { c with rx := rest, activity := now }.put d 0 room

/-- `Sender::try_send` into its queue. -/
def trySend (c : UdpServerConn) (size : Nat) (d : Datagram) :
    Except TrySendError UdpServerConn :=
  if c.phase = .gone then .error .closed
  else if c.rx.length < size then .ok { c with rx := c.rx ++ [d] }
  else .error .full

end UdpServerConn

inductive ConnAction
  | poll (room : Nat)
  | write
  | close
  | drop
  | cancel
  | release
deriving Repr, DecidableEq

/-- What is done to a connection without the table. -/
inductive ConnStep (now : Nat) (senders : Bool) (c : UdpServerConn) :
    ConnAction → UdpServerConn → Prop
  | poll (room : Nat) (hphase : c.phase = .held) :
      ConnStep now senders c (.poll room) (c.pollRead room senders now).1
  | write (hphase : c.phase = .held) : ConnStep now senders c .write { c with activity := now }
  | close (hphase : c.phase = .held) :
      ConnStep now senders c .close { c with closed := true, phase := .closing }
  | drop (hphase : c.phase = .held) : ConnStep now senders c .drop { c with phase := .dropping }
  | cancel (hphase : c.phase = .dropping) :
      ConnStep now senders c .cancel { c with closed := true, phase := .cancelled }
  | release (hphase : c.phase = .removed) :
      ConnStep now senders c .release { c with phase := .gone }

/-! ## The TTL task -/

/-- Where `ttl_watch` is; `none` before it is spawned. -/
inductive Watch
  | none
  | start
  | looked (deadline : Nat)
  | waiting (deadline : Nat)
  | removing
  | cancelling
  | ended
deriving Repr, DecidableEq

inductive WatchAction
  | look
  | wait
  | wake
  | stop
deriving Repr, DecidableEq

inductive WatchStep (ttl now : Nat) (c : UdpServerConn) : Watch → WatchAction → Watch → Prop
  | look : WatchStep ttl now c .start .look (.looked (c.activity + ttl))
  | expired {deadline : Nat} (h : deadline ≤ now) :
      WatchStep ttl now c (.looked deadline) .wait .removing
  | wait {deadline : Nat} (h : now < deadline) :
      WatchStep ttl now c (.looked deadline) .wait (.waiting deadline)
  | wake {deadline : Nat} (h : deadline ≤ now) :
      WatchStep ttl now c (.waiting deadline) .wake .start
  | stop {deadline : Nat} (h : c.closed = true) :
      WatchStep ttl now c (.waiting deadline) .stop .ended

/-! ## The table of peers -/

/-- The entry of a connection; its queue and token are those of the connection with the
id. -/
structure PeerHandle where
  id : Nat
deriving Repr, DecidableEq

abbrev PeerMap := SocketAddr → Option PeerHandle

def removePeer (peers : PeerMap) (peer : SocketAddr) (id : Nat) : PeerMap :=
  match peers peer with
  | some handle => if handle.id = id then Function.update peers peer none else peers
  | none => peers

theorem removePeer_eq_some {peers : PeerMap} {peer src : SocketAddr} {id : Nat}
    {handle : PeerHandle} (h : removePeer peers peer id src = some handle) :
    peers src = some handle ∧ ¬ (src = peer ∧ handle.id = id) := by
  unfold removePeer at h
  by_cases hsrc : src = peer
  · subst hsrc
    cases hentry : peers src with
    | none => simp [hentry] at h
    | some entry =>
      by_cases hid : entry.id = id
      · simp [hentry, hid] at h
      · simp only [hentry, hid, if_false] at h
        cases h
        exact ⟨rfl, fun hboth => hid hboth.2⟩
  · refine ⟨?_, fun hboth => hsrc hboth.1⟩
    cases hentry : peers peer with
    | none => simpa [hentry] using h
    | some entry =>
      by_cases hid : entry.id = id
      · simpa [hentry, hid, Function.update_of_ne hsrc] using h
      · simpa [hentry, hid] using h

/-! ## The listener -/

/-- Where `demux_loop` is.  It holds the lock of the table while it is sending to a known
peer or evicting it; `draining` has the handles that are left to cancel. -/
inductive Demux
  | idle
  | received (d : Datagram)
  | sending (d : Datagram) (id : Nat)
  | evicting (d : Datagram)
  | fresh (d : Datagram)
  | refused (id : Nat) (e : TrySendError)
  | offered (d : Datagram) (id : Nat)
  | registering (src : SocketAddr) (id : Nat)
  | spawning (id : Nat)
  | stopping
  | draining (handles : PeerMap)
  | ended

namespace Demux

def Unlocked : Demux → Prop
  | sending _ _ | evicting _ => False
  | _ => True

/-- The loop has a sender of the connection's queue. -/
def holdsSender (peer : SocketAddr) (id : Nat) : Demux → Bool
  | sending _ k | offered _ k | registering _ k => k == id
  | draining handles => handles peer == some ⟨id⟩
  | _ => false

end Demux

/-- `backlog` is the queue of `accept`, `listening` says that its receiver is there.  The
last two fields are history: what was received, and whether the entry of a connection was
inserted after the connection had left the table in its drop. -/
structure Sys where
  peers : PeerMap
  conns : Nat → Option UdpServerConn
  watch : Nat → Watch
  backlog : List Nat
  listening : Bool
  cancelled : Bool
  nextId : Nat
  demux : Demux
  now : Nat
  arrivals : List Datagram
  late : Nat → Bool

namespace Sys

def init : Sys :=
  { peers := fun _ => none, conns := fun _ => none, watch := fun _ => .none, backlog := []
    listening := true, cancelled := false, nextId := 1, demux := .idle, now := 0
    arrivals := [], late := fun _ => false }

def setConn (s : Sys) (k : Nat) (c : UdpServerConn) : Sys :=
  { s with conns := Function.update s.conns k (some c) }

def setWatch (s : Sys) (k : Nat) (w : Watch) : Sys :=
  { s with watch := Function.update s.watch k w }

def removePeer (s : Sys) (peer : SocketAddr) (id : Nat) : Sys :=
  { s with peers := Udp.removePeer s.peers peer id }

/-- Some sender of the queue of connection `k` is left. -/
def senders (s : Sys) (k : Nat) (c : UdpServerConn) : Bool :=
  s.peers c.peer == some ⟨k⟩ || s.demux.holdsSender c.peer k

def receive (s : Sys) (src : SocketAddr) (payload : Bytes) : Sys :=
  { s with
    demux := .received ⟨s.arrivals.length, src, payload⟩
    arrivals := s.arrivals ++ [⟨s.arrivals.length, src, payload⟩] }

/-- `accept_tx.try_send`, as far as the queue of `accept` decides. -/
def offer (s : Sys) (backlog : Nat) : Except TrySendError Unit :=
  if s.listening = false then .error .closed
  else if s.backlog.length < backlog then .ok ()
  else .error .full

/-- A connection for `d` has been built; it is in the queue or dropped. -/
def create (s : Sys) (d : Datagram) (phase : Phase) : Sys :=
  { s.setConn s.nextId (.new d s.now phase) with nextId := s.nextId + 1 }

/-- The entry is in the table. -/
def insert (s : Sys) (src : SocketAddr) (k : Nat) (c : UdpServerConn) : Sys :=
  { s with
    peers := Function.update s.peers src (some ⟨k⟩)
    demux := .spawning k
    late := Function.update s.late k c.phase.left }

end Sys

inductive Action
  | recv (src : SocketAddr) (payload : Bytes)
  | recvError
  | lookup
  | send
  | evict
  | offer
  | refuse
  | first
  | insert
  | spawn
  | cancelled
  | drain
  | cancelHandle (src : SocketAddr)
  | finish
  | accept
  | closeListener
  | dropListener
  | discard
  | conn (k : Nat) (a : ConnAction)
  | remove (k : Nat)
  | watch (k : Nat) (a : WatchAction)
  | expire (k : Nat)
  | expired (k : Nat)
  | tick
deriving Repr, DecidableEq

inductive Step (config : UdpListenConfig) (s : Sys) : Action → Sys → Prop
  /- `demux_loop` -/
  | recv (src : SocketAddr) (payload : Bytes) (hdemux : s.demux = .idle)
      (hlen : payload.length ≤ MAX_DATAGRAM) :
      Step config s (.recv src payload) (s.receive src payload)
  | recvError (hdemux : s.demux = .idle) : Step config s .recvError s
  | known {d : Datagram} {handle : PeerHandle} (hdemux : s.demux = .received d)
      (hpeer : s.peers d.src = some handle) :
      Step config s .lookup { s with demux := .sending d handle.id }
  | unknown {d : Datagram} (hdemux : s.demux = .received d) (hpeer : s.peers d.src = none) :
      Step config s .lookup { s with demux := .fresh d }
  | send {d : Datagram} {k : Nat} {c c' : UdpServerConn} (hdemux : s.demux = .sending d k)
      (hc : s.conns k = some c) (hsend : c.trySend config.normalized.queueSize d = .ok c') :
      Step config s .send { s.setConn k c' with demux := .idle }
  | sendFull {d : Datagram} {k : Nat} {c : UdpServerConn} (hdemux : s.demux = .sending d k)
      (hc : s.conns k = some c)
      (hsend : c.trySend config.normalized.queueSize d = .error .full) :
      Step config s .send { s with demux := .idle }
  | sendClosed {d : Datagram} {k : Nat} {c : UdpServerConn} (hdemux : s.demux = .sending d k)
      (hc : s.conns k = some c)
      (hsend : c.trySend config.normalized.queueSize d = .error .closed) :
      Step config s .send { s with demux := .evicting d }
  | evict {d : Datagram} (hdemux : s.demux = .evicting d) :
      Step config s .evict
        { s with peers := Function.update s.peers d.src none, demux := .fresh d }
  | offer {d : Datagram} (hdemux : s.demux = .fresh d)
      (hoffer : s.offer config.normalized.backlog = .ok ()) :
      Step config s .offer
        { s.create d .queued with
          backlog := s.backlog ++ [s.nextId], demux := .offered d s.nextId }
  | refused {d : Datagram} {e : TrySendError} (hdemux : s.demux = .fresh d)
      (hoffer : s.offer config.normalized.backlog = .error e) :
      Step config s .offer { s.create d .dropping with demux := .refused s.nextId e }
  | refuse {k : Nat} {e : TrySendError} {c : UdpServerConn} (hdemux : s.demux = .refused k e)
      (hc : s.conns k = some c) (hgone : c.phase = .gone) :
      Step config s .refuse { s with demux := if e = .full then .idle else .stopping }
  | first {d : Datagram} {k : Nat} {c : UdpServerConn} (hdemux : s.demux = .offered d k)
      (hc : s.conns k = some c) :
      Step config s .first
        { s.setConn k ((c.trySend config.normalized.queueSize d).toOption.getD c) with
          demux := .registering d.src k }
  | insert {src : SocketAddr} {k : Nat} {c : UdpServerConn} (hdemux : s.demux = .registering src k)
      (hc : s.conns k = some c) : Step config s .insert (s.insert src k c)
  | spawn {k : Nat} (hdemux : s.demux = .spawning k) :
      Step config s .spawn { s.setWatch k .start with demux := .idle }
  | cancelled (hdemux : s.demux = .idle) (hcancel : s.cancelled = true) :
      Step config s .cancelled { s with demux := .stopping }
  | drain (hdemux : s.demux = .stopping) :
      Step config s .drain { s with peers := fun _ => none, demux := .draining s.peers }
  | cancelHandle {handles : PeerMap} {src : SocketAddr} {handle : PeerHandle} {c : UdpServerConn}
      (hdemux : s.demux = .draining handles) (hhandle : handles src = some handle)
      (hc : s.conns handle.id = some c) :
      Step config s (.cancelHandle src)
        { s.setConn handle.id { c with closed := true } with
          demux := .draining (Function.update handles src none) }
  | finish {handles : PeerMap} (hdemux : s.demux = .draining handles)
      (hnone : ∀ src, handles src = none) : Step config s .finish { s with demux := .ended }
  /- the owner of the listener -/
  | accept {k : Nat} {rest : List Nat} {c : UdpServerConn} (hlisten : s.listening = true)
      (hbacklog : s.backlog = k :: rest) (hc : s.conns k = some c) :
      Step config s .accept { s.setConn k { c with phase := .held } with backlog := rest }
  | closeListener : Step config s .closeListener { s with cancelled := true }
  | dropListener (hcancel : s.cancelled = true) :
      Step config s .dropListener { s with listening := false }
  | discard {k : Nat} {rest : List Nat} {c : UdpServerConn} (hlisten : s.listening = false)
      (hbacklog : s.backlog = k :: rest) (hc : s.conns k = some c) :
      Step config s .discard { s.setConn k { c with phase := .dropping } with backlog := rest }
  /- the handlers -/
  | conn {k : Nat} {c c' : UdpServerConn} {a : ConnAction} (hc : s.conns k = some c)
      (hstep : ConnStep s.now (s.senders k c) c a c') : Step config s (.conn k a) (s.setConn k c')
  | closed {k : Nat} {c : UdpServerConn} (hunlocked : s.demux.Unlocked)
      (hc : s.conns k = some c) (hphase : c.phase = .closing) :
      Step config s (.remove k) ((s.removePeer c.peer k).setConn k { c with phase := .held })
  | dropped {k : Nat} {c : UdpServerConn} (hunlocked : s.demux.Unlocked)
      (hc : s.conns k = some c) (hphase : c.phase = .cancelled) :
      Step config s (.remove k) ((s.removePeer c.peer k).setConn k { c with phase := .removed })
  /- the TTL tasks -/
  | watch {k : Nat} {c : UdpServerConn} {a : WatchAction} {w : Watch} (hc : s.conns k = some c)
      (hstep : WatchStep config.normalized.ttl s.now c (s.watch k) a w) :
      Step config s (.watch k a) (s.setWatch k w)
  | expire {k : Nat} {c : UdpServerConn} (hunlocked : s.demux.Unlocked)
      (hc : s.conns k = some c) (hwatch : s.watch k = .removing) :
      Step config s (.expire k) ((s.removePeer c.peer k).setWatch k .cancelling)
  | expired {k : Nat} {c : UdpServerConn} (hc : s.conns k = some c)
      (hwatch : s.watch k = .cancelling) :
      Step config s (.expired k) ((s.setConn k { c with closed := true }).setWatch k .ended)
  | tick : Step config s .tick { s with now := s.now + 1 }

end Udp
end RtProxy
