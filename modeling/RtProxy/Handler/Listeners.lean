import RtProxy.Handler.Forward
import RtProxy.Handler.Socks4
import RtProxy.Handler.Socks5
import RtProxy.Http2.Serve
import RtProxy.Relay.Handler
import RtProxy.Server.Start
import RtProxy.Sni.Handler
import RtProxy.Ss.Address

/-!
Which handler serves a listener (`run_server` in `main.rs`), and the handlers that only read
a target, check it and dial it.

The protocol of the node decides.  A protocol that is not known forwards to the remote
address of the node, if it has one, and else tells the protocols apart by the first byte.
-/

namespace RtProxy

open Act

/-! ## Handlers with one target -/

/-- The dial that follows the checks; a bypassed target ends the connection as `bypass` says. -/
def dialChecked (env : Env) (o : HandlerOptions) (target : String)
    (bypass : Action HandlerError Unit) : Action HandlerError Unit :=
  checked o target (fail .forbidden) bypass (do
    match ← attempt (o.chainOrEmpty.dial env target) with
    | .ok cc => splice cc
    | .error e => fail (.chain e))

/-- `ShadowHandler::handle` in `ss.rs`. -/
def Ss.ShadowHandler.handle (env : Env) (o : HandlerOptions) : Action HandlerError Unit := do
  let s ← get
  set (env.decipher s)
  let target ← take readSsAddress
  dialChecked env o target (fail .forbidden)

namespace TcpRedirectHandler

def NO_ORIGINAL_DST : String :=
  "redirect: no original destination (SO_ORIGINAL_DST unavailable); " ++
    "is this listener behind an iptables REDIRECT rule?"

/-- `TcpRedirectHandler::handle` in `redirect.rs`, on a connection with these addresses. -/
def handle (env : Env) (o : HandlerOptions) (originalDst localAddr : Option Net.SocketAddr) :
    Action HandlerError Unit :=
  match originalDst with
  | some dst =>
    if some dst = localAddr then
      fail (.proxy (s!"redirect: original destination {dst.text} is the listener's own address; " ++
        "refusing to dial ourselves"))
    else dialChecked env o dst.text (pure ())
  | none => fail (.proxy NO_ORIGINAL_DST)

end TcpRedirectHandler

/-- `AutoHandler::handle` in `handler.rs`: SOCKS4 knows no credentials, so it is refused where
some are needed. -/
def AutoHandler.handle (env : Env) (o : HandlerOptions) (engine : Sni.Engine) :
    Action HandlerError Unit := do
  let first ← peek 1
  match first with
  | [] => fail (.io ⟨.unexpectedEof, "connection closed"⟩)
  | b :: _ =>
    if b = 0x05 then Socks5.handle env o
    else if b = 0x04 then
      if o.requiresAuth then fail .authFailed else Socks4.handle env o
    else HttpHandler.handle env o engine

/-! ## The dispatch -/

/-- The handlers that a listener can have. -/
inductive Proto
  | http
  | socks5
  | socks4
  | ss
  | ssu
  | http2
  | relay
  | sni
  | tcp
  | udp
  | rudp
  | rtcp
  | dns
  | red
  | redu
  | forward
  | auto
deriving Repr, DecidableEq

/-- The protocol match of `run_server`. -/
def Proto.of (node : Node) : Proto :=
  if node.protocol = "http" then http
  else if node.protocol ∈ ["socks5", "socks"] then socks5
  else if node.protocol ∈ ["socks4", "socks4a"] then socks4
  else if node.protocol = "ss" then ss
  else if node.protocol = "ssu" then ssu
  else if node.protocol = "http2" then http2
  else if node.protocol = "relay" then relay
  else if node.protocol = "sni" then sni
  else if node.protocol = "tcp" then tcp
  else if node.protocol = "udp" then udp
  else if node.protocol = "rudp" then rudp
  else if node.protocol = "rtcp" then rtcp
  else if node.protocol ∈ ["dns", "dot", "doh"] then dns
  else if node.protocol ∈ ["red", "redirect"] then red
  else if node.protocol ∈ ["redu", "redirectu"] then redu
  else if node.protocol = "forward" then forward
  else if node.remote ≠ "" then tcp
  else auto

/-- What reaches a handler that dials a target for its client.  An HTTP/2 client makes one
request of several, a redirected connection brings the address it was meant for, a relay
server has been asked for a target `n` times, and a forwarder shares its targets with all its
requests. -/
inductive Front
  | http
  | http2 (request : Http2Request)
  | socks4
  | socks5
  | auto
  | sni
  | shadow
  | redirect (originalDst localAddr : Option Net.SocketAddr)
  | relay (n : UInt64)
  | forward (ip : Option String) (b : Balancing) (shared : Shared)

namespace Front

def proto : Front → Proto
  | http => .http
  | http2 _ => .http2
  | socks4 => .socks4
  | socks5 => .socks5
  | auto => .auto
  | sni => .sni
  | shadow => .ss
  | redirect _ _ => .red
  | relay _ => .relay
  | forward _ _ _ => .tcp

/-- The run of a listener with the remote address. -/
def run (env : Env) (o : HandlerOptions) (engine : Sni.Engine)
    (frames : Nat → List (String × String) → Bytes) (remote : String) :
    Front → Action HandlerError Unit
  | http => HttpHandler.handle env o engine
  | http2 request => Http2Handler.serveRequest env o frames engine request
  | socks4 => Socks4.handle env o
  | socks5 => Socks5.handle env o
  | auto => AutoHandler.handle env o engine
  | sni => Sni.SniHandler.handle env o engine
  | shadow => Ss.ShadowHandler.handle env o
  | redirect originalDst localAddr => TcpRedirectHandler.handle env o originalDst localAddr
  | relay n => Relay.handle env (.new remote o) n
  | forward ip b shared => TcpDirectForwardHandler.handle env shared (.new remote ip b o)

end Front
end RtProxy
