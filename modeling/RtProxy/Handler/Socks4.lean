import RtProxy.Handler.Basic

/-!
The SOCKS4 and SOCKS4a server (`socks4.rs`).
-/

namespace RtProxy

open Act

/-- `dial_target` of both SOCKS handlers: the handler's retry count, or the chain's,
or one, with the retries of the chain itself pinned to one. -/
def socksDial (env : Env) (o : HandlerOptions) (target : String) : Action ChainError Conn :=
  let chain := o.chainOrEmpty
  tries ({ chain with retries := 1 }.dialWithOptions env target
    { retries := 1, hosts := chain.hosts, resolver := chain.resolver })
    (retryCount chain.retries o.retries) .emptyChain

namespace Socks4

def VERSION : UInt8 := 0x04
def CMD_CONNECT : UInt8 := 0x01
def CMD_BIND : UInt8 := 0x02
def REP_GRANTED : UInt8 := 90
def REP_REJECTED : UInt8 := 91

structure Request where
  cmd : UInt8
  target : String
  isSocks4a : Bool
deriving Repr, DecidableEq

/-- All that `handle` reads before it dispatches. -/
def readRequest : Take Request := do
  let ver ← takeByte
  if ver ≠ VERSION then throw (.proxy s!"unsupported SOCKS version: {ver}")
  let cmd ← takeByte
  let port ← takeU16
  let ip ← takeExact 4
  let _userId ← takeCString
  let isSocks4a := ip.take 3 = [0, 0, 0] ∧ ip.drop 3 ≠ [0]
  let host ←
    if isSocks4a then Text.fromUtf8Lossy <$> takeCString
    else pure (Net.Ipv4Addr.ofOctets ip).text
  return { cmd := cmd, target := s!"{host}:{port.toNat}", isSocks4a := isSocks4a }

section

variable (env : Env) (o : HandlerOptions)

def sendReply (code : UInt8) (ip : Net.Ipv4Addr) (port : UInt16) : Action HandlerError Unit :=
  reply env ([0x00, code] ++ Bytes.be 2 port.toNat ++ ip.octets)

/-- A rejection, which always carries the zero address. -/
def reject : Action HandlerError Unit := sendReply env REP_REJECTED .unspecified 0

def handleConnect (target : String) : Action HandlerError Unit :=
  checked o target
    (do reject env; fail .forbidden)
    (reject env)
    (do
      match ← attempt (socksDial env o target) with
      | .ok cc =>
        sendReply env REP_GRANTED .unspecified 0
        splice cc
      | .error e =>
        reject env
        fail (.chain e))

/-- The IPv4 part of an address, which is all that a reply can carry. -/
def ipv4Of : Net.IpAddr → Net.Ipv4Addr
  | .v4 ip => ip
  | .v6 _ => .unspecified

/-- `socks4_bind_on`. -/
def bindOn (addr : String) : Action HandlerError Unit := do
  match ← attempt (env.perform (.listen addr)) with
  | .error f =>
    reject env
    fail (.ofFailure f)
  | .ok () =>
    let bound ← ask env.addrOf
    sendReply env REP_GRANTED (ipv4Of bound.ip) bound.port
    if ← ask env.leaves then pure ()
    else
      mapErr .ofFailure (env.perform .accept)
      let peer ← ask env.addrOf
      sendReply env REP_GRANTED (ipv4Of peer.ip) peer.port
      splice (.accepted peer.text)

/-- The request that is replayed onto the last node. -/
def bindRequest (host : String) (port : UInt16) (isSocks4a : Bool) : Bytes :=
  [VERSION, CMD_BIND] ++ Bytes.be 2 port.toNat ++
    if isSocks4a then [0, 0, 0, 1, 0x00] ++ Text.utf8 host ++ [0x00]
    else ((Net.Ipv4Addr.parse host).getD .unspecified).octets ++ [0x00]

/-- `parse_address`. -/
def parseAddress (addr : String) : Except HandlerError (String × UInt16) :=
  match Text.cutLast ':' addr.toList with
  | none => .error (.proxy s!"invalid address: {addr}")
  | some (host, port) =>
    match Text.parseUnsigned (2 ^ 16) (String.ofList port) with
    | none => .error (.proxy s!"invalid port: {String.ofList port}")
    | some n => .ok (String.ofList host, UInt16.ofNat n)

/-- Replays a BIND onto the last node of the chain, and splices. -/
def forwardBind (node : Node) (target : String) (isSocks4a : Bool) : Action HandlerError Unit := do
  match ← attempt (env.connect node.addr) with
  | .error (.io e) =>
    reject env
    fail (.io e)
  | .error .timeout =>
    reject env
    fail (.proxy "bind: chain dial timeout")
  | .ok () =>
    let (host, port) ← ofExcept (parseAddress target)
    send env (.tcp node.addr) (bindRequest host port isSocks4a)
    splice (.tcp node.addr)

def handleBind (target : String) (isSocks4a : Bool) : Action HandlerError Unit := do
  if ← can o "rtcp" target then
    if o.chainOrEmpty.isEmpty then bindOn env target
    else forwardBind env o.chainOrEmpty.lastNode target isSocks4a
  else
    reject env
    fail .forbidden

/-- What `handle` does with the request. -/
def serve (r : Request) : Action HandlerError Unit := do
  if r.cmd = CMD_CONNECT then handleConnect env o r.target
  else if r.cmd = CMD_BIND then handleBind env o r.target r.isSocks4a
  else
    reject env
    fail (.proxy s!"unsupported SOCKS4 command: {r.cmd}")

def handle : Action HandlerError Unit := do
  let r ← take readRequest
  serve env o r

end

end Socks4

end RtProxy
