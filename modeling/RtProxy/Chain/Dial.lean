import RtProxy.Chain.Connect
import RtProxy.Resolver

/-!
Dialling through a proxy chain (`chain.rs`).

A `Route` is a chain without its resolver, which is what a name server is dialled
through.  The handshakes of the transports and of the proxy protocols read and
write only the connection they are given, so each is one event of the world, which
decides whether it succeeds.
-/

namespace RtProxy

open Act

structure Route where
  retries : Nat
  mark : Int
  interface : String
  hosts : Option Hosts
  groups : List (List Node)
deriving Repr, DecidableEq

namespace Route

def empty : Route := { retries := 0, mark := 0, interface := "", hosts := none, groups := [] }

def isEmpty (route : Route) : Bool := route.groups.isEmpty

/-- The first node of each group. -/
def nodes (route : Route) : List Node := route.groups.filterMap (·.head?)

end Route

def Route.lastNode (route : Route) : Node := (route.groups.getLast?.bind (·.head?)).getD Node.empty

/-! ## What keeps a handshake from being begun -/

/-- The handshakes that a library makes. -/
def Handshake.ofLibrary : Handshake → Bool
  | .tls _ | .websocket _ | .http2 _ | .connector "http2" _ => true
  | _ => false

def Handshake.refusal (libs : Libs) (node : Node) (h : Handshake) : Option String :=
  if h = .websocket "" then some "websocket handshake needs a host"
  else if h.ofLibrary then libs.refuses node h
  else none

section

variable (env : Env)

/-- A TCP connection.  An address without a port is never looked up. -/
def Env.connect (addr : String) : Action Failure Unit :=
  match toSocketAddrs addr with
  | .error e => fail (.io e)
  | .ok () => env.perform (.connect addr)

/-- A handshake with a node over a connection, if it can be begun. -/
def Env.shake (node : Node) (h : Handshake) (base : Conn) : Action Failure Unit :=
  match h.refusal env.toLibs node with
  | some reason => fail (.io ⟨.other, reason⟩)
  | none => env.perform (.shake h base)

/-! ## One hop -/

/-- A handshake over a connection; `text` makes an error of the reason. -/
def shake (node : Node) (h : Handshake) (base : Conn) (text : String → String) :
    Action ChainError Unit :=
  mapErr (fun f => .proxyError (text f.text)) (env.shake node h base)

/-- The socket with its mark and its interface, which need a resolved address. -/
def markedSocket (route : Route) (addr : String) : Action ChainError Unit := do
  ofExcept ((toSocketAddrs addr).mapError .io)
  match ← ask (env.lookup · addr) with
  | .error f => fail (.ofFailure f)
  | .ok [] => fail (.proxyError s!"could not resolve {addr}")
  | .ok _ =>
    when (route.mark ≠ 0) (mapErr .ofFailure (env.perform (.sockopt (.mark route.mark))))
    when (route.interface ≠ "")
      (mapErr .ofFailure (env.perform (.sockopt (.interface route.interface))))

def connectTcp (route : Route) (addr : String) : Action ChainError Conn := do
  when (route.mark ≠ 0 ∨ route.interface ≠ "") (markedSocket env route addr)
  mapErr .ofFailure (env.connect addr)
  pure (.tcp addr)

/-- Why a connection under a session is not made. -/
def notConnected (addr : String) : Failure → String
  | .timeout => s!"timed out connecting to {addr}"
  | .io e => e.msg

/-- The stack under a new smux session. -/
def muxSession (node : Node) : Action String Unit := do
  mapErr (notConnected node.addr) (env.connect node.addr)
  when (node.transport ≠ "mws")
    (mapErr Failure.text (env.shake node (.tls (hopHostname node)) (.tcp node.addr)))
  when (node.transport ≠ "mtls")
    (mapErr Failure.text (env.shake node (.websocket (hopHostname node)) (.tcp node.addr)))

/-- Nothing of the client's own keeps it from building a session.  A session that cannot be
built is in no pool. -/
def muxBuildable (libs : Libs) (node : Node) : Bool :=
  (toSocketAddrs node.addr).isOk &&
    (node.transport = "mws" || ((Handshake.tls (hopHostname node)).refusal libs node).isNone) &&
    (node.transport = "mtls" || ((Handshake.websocket (hopHostname node)).refusal libs node).isNone)

/-- A stream on the hop's smux session, which is built the first time. -/
def dialMuxHop (node : Node) : Action ChainError Conn := do
  let _config ← ofExcept ((muxConfigFromNode node).mapError fun e => .proxyError e.msg)
  let pooled ← ask (env.pooled · s!"{node.transport}|{node.addr}")
  mapErr (fun e => .proxyError s!"{node.transport} hop failed: {e}") (do
    when ((pooled && muxBuildable env.toLibs node) = false) (muxSession env node)
    mapErr Failure.text (env.perform (.openStream (.stream node.transport node.addr))))
  pure (.stream node.transport node.addr)

/-- A stream on a session that runs over datagrams to the hop, if `ready`. -/
def datagramStream (node : Node) (ready : Except String Unit) : Action ChainError Conn := do
  mapErr (fun e => .proxyError s!"{node.transport} hop failed: {e}") (do
    ofExcept ready
    mapErr Failure.text (do
      env.perform (.datagram node.addr)
      env.perform (.openStream (.stream node.transport node.addr))))
  pure (.stream node.transport node.addr)

/-- `host_of` of `quic_transport.rs`. -/
def quicHostOf (addr : String) : String :=
  let named : String :=
    match Text.cutLast ':' addr.toList with
    | some (host, _) => if host = [] then "localhost" else String.ofList host
    | none => "localhost"
  match addr.toList with
  | '[' :: rest =>
    match Text.cutFirst ']' rest with
    | some (host, _) => String.ofList host
    | none => named
  | _ => named

/-- What a QUIC dialer asks before it sends. -/
def quicReady (libs : Libs) (node : Node) : Except String Unit :=
  match toSocketAddrs node.addr with
  | .error e => .error e.msg
  | .ok () =>
    match libs.refuses node (.tls (quicHostOf node.addr)) with
    | some reason => .error reason
    | none => .ok ()

/-- What a KCP dialer asks before it sends. -/
def kcpReady (libs : Libs) (node : Node) (config : Kcp.KcpConfig) : Except String Unit :=
  match toSocketAddrs node.addr with
  | .error e => .error e.msg
  | .ok () => libs.setMtu config.arqMtu

/-- A stream on the hop's QUIC or KCP session. -/
def dialDatagramHop (node : Node) : Action ChainError Conn := do
  if node.transport = "quic" then datagramStream env node (quicReady env.toLibs node)
  else
    let config ← ofExcept ((Kcp.KcpConfig.fromNode env.toLibs node).mapError .proxyError)
    datagramStream env node (kcpReady env.toLibs node config)

/-- The session of an SSH hop, authenticated as the user of the node. -/
def sshSession (node : Node) : Action String Unit := do
  mapErr (fun f => Ssh.SshError.text (.config (notConnected node.addr f))) (env.connect node.addr)
  mapErr Failure.text (env.perform (.shake (.ssh ((node.user.map (·.1)).getD "")) (.tcp node.addr)))

/-- A channel on the hop's SSH session.  The channel it opens reaches `target`. -/
def dialSshHop (node : Node) (target : String) : Action ChainError Conn := do
  let _transporter ← ofExcept ((Ssh.SshForwardTransporter.new env.keys (.fromNode node)).mapError
    fun e => .proxyError e.text)
  let pooled ← ask (env.pooled · s!"ssh|{node.addr}")
  -- a session to an address that cannot be dialled is in no pool
  when ((pooled && (toSocketAddrs node.addr).isOk) = false)
    (mapErr (fun e => .proxyError s!"ssh hop failed: {e}") (sshSession env node))
  mapErr (fun e => .proxyError s!"ssh channel to {target} failed: {e}") (do
    let _target ← ofExcept ((Ssh.splitHostPort target).mapError Ssh.SshError.text)
    mapErr Failure.text (env.perform (.openStream (.channel node.addr target))))
  pure (.channel node.addr target)

def tlsLayer (stream : Conn) (node : Node) (host : String) : Action ChainError Conn := do
  shake env node (.tls host) stream fun e => s!"TLS handshake with {host} failed: {e}"
  pure (.layered "tls" host stream)

/-- TLS for the transports that run over it. -/
def tlsUnder (secure : Bool) (stream : Conn) (node : Node) (host : String) :
    Action ChainError Conn :=
  if secure then tlsLayer env stream node host else pure stream

/-- What `layer_transport` puts over the connection. -/
def layerOver (stream : Conn) (node : Node) (host : String) : Action ChainError Conn := do
  if node.transport ∈ ["", "tcp"] then pure stream
  else if node.transport ∈ ["tls", "http2"] then tlsLayer env stream node host
  else if node.transport ∈ ["ws", "wss"] then
    let inner ← tlsUnder env (node.transport = "wss") stream node host
    shake env node (.websocket host) inner fun e => s!"WebSocket handshake with {host} failed: {e}"
    pure (.layered "ws" host inner)
  else if node.transport = "otls" then
    shake env node (.obfsTls host) stream fun e => s!"obfs-tls handshake with {host} failed: {e}"
    pure (.layered "otls" host stream)
  else if node.transport = "ohttp" then
    shake env node (.obfsHttp host) stream fun e => s!"obfs-http handshake with {host} failed: {e}"
    pure (.layered "ohttp" host stream)
  else if node.transport ∈ ["h2", "h2c"] then
    let inner ← tlsUnder env (node.transport = "h2") stream node host
    shake env node (.http2 host) inner fun e => s!"HTTP/2 tunnel to {host} failed: {e}"
    pure (.layered "h2" host inner)
  else fail (.proxyError s!"chain node transport \"{node.transport}\" is not implemented")

def layerTransport (stream : Conn) (node : Node) : Action ChainError Conn := do
  let out ← layerOver env stream node (hopHostname node)
  emit (.layered node stream out)
  pure out

/-- What a node's protocol makes of the connection. -/
def connectOver (stream : Conn) (node : Node) (target : String) : Action ChainError Conn := do
  if node.protocol ∈ ["http", ""] then
    shake env node (.connector "http" target) stream id
    pure (.via "http" target stream)
  else if node.protocol = "sni" then pure (.layered "sni" ((node.get "host").getD "") stream)
  else if node.protocol = "http2" then
    shake env node (.connector "http2" target) stream fun e =>
      s!"HTTP/2 CONNECT to {target} failed: {e}"
    pure (.via "http2" target stream)
  else if node.protocol = "socks5" then
    -- the target is looked at when the methods have been negotiated
    shake env node (.connector "socks5" target) stream id
    let _request ← ofExcept (socks5ConnectRequest target)
    pure (.via "socks5" target stream)
  else if node.protocol ∈ ["socks4", "socks4a"] then
    let _request ← ofExcept (socks4ConnectRequest target node.user (node.protocol = "socks4a"))
    shake env node (.connector node.protocol target) stream id
    pure (.via node.protocol target stream)
  else if node.protocol = "ss" then
    let _request ← ofExcept ((Ss.connectRequest node.user target).mapError fun e => .proxyError e.text)
    shake env node (.connector "ss" target) stream id
    pure (.via "ss" target stream)
  else if node.protocol = "relay" then
    let _request ← ofExcept ((Relay.connectRequest node.user "tcp" target).mapError
      fun e => .proxyError e.text)
    shake env node (.connector "relay" target) stream id
    pure (.via "relay" target stream)
  else if node.protocol ∈ ["forward", "direct", "remote"] then pure stream
  else
    fail (.proxyError
      s!"chain node protocol \"{node.protocol}\" is not supported as a chain connector")

def connectVia (stream : Conn) (node : Node) (target : String) : Action ChainError Conn := do
  let out ← connectOver env stream node target
  emit (.connected node target stream out)
  pure out

/-! ## A dial -/

/-- Where a hop is asked to connect to: the next node, and the target at the end. -/
def hopTarget (target : String) : List Node → String
  | [] => target
  | next :: _ => next.addr

/-- The connection to the first hop itself. -/
def dialFirst (route : Route) (first : Node) : Action ChainError Conn := do
  if isMuxTransport first.transport then dialMuxHop env first
  else if first.transport ∈ ["quic", "kcp"] then dialDatagramHop env first
  else
    let conn ← connectTcp env route first.addr
    layerTransport env conn first

/-- The hops after the first, each over the connection of the one before. -/
def dialRest (target : String) : List Node → Conn → Action ChainError Conn
  | [], current => pure current
  | node :: rest, current =>
    if ownsDial node.transport then
      fail (.proxyError (s!"chain node transport \"{node.transport}\" is only supported on the " ++
        s!"first hop (in {node.text})"))
    else do
      let layered ← layerTransport env current node
      let next ← connectVia env layered node (hopTarget target rest)
      dialRest target rest next

/-- A name lookup, as the chain uses its resolver. -/
abbrev Lookup := String → Action Failure (List Net.IpAddr)

/-- `Chain::resolve`.  It never fails: what cannot be resolved is dialled as it is. -/
def resolve {ε : Type} (lookup : Option Lookup) (hosts : Option Hosts) (addr : String) :
    Action ε String := do
  match splitHostPort addr with
  | .error _ => pure addr
  | .ok (host, port) =>
    match hosts.bind (·.lookup host) with
    | some ip => pure (joinHostPort ip.text port)
    | none =>
      match lookup with
      | none => pure addr
      | some lookup =>
        match ← attempt (lookup host) with
        | .ok (ip :: _) => pure (joinHostPort ip.text port)
        | _ => pure addr

namespace Route

/-- `dial_once` once the target is resolved. -/
def dialTarget (route : Route) (target : String) : Action ChainError Conn := do
  if route.isEmpty then connectTcp env route target
  else
    match route.nodes with
    | [] => fail .emptyChain
    | first :: rest =>
      if first.transport = "ssh" then dialSshHop env first (hopTarget target rest)
      else
        let conn ← dialFirst env route first
        let current ← connectVia env conn first (hopTarget target rest)
        dialRest env target rest current

def dialOnce (route : Route) (lookup : Option Lookup) (hosts : Option Hosts) (address : String) :
    Action ChainError Conn := do
  let resolved ← resolve lookup hosts address
  dialTarget env route (if resolved = "" then address else resolved)

end Route

/-- `n` attempts, the last error if all fail. -/
def tries (x : Action ChainError Conn) : Nat → ChainError → Action ChainError Conn
  | 0, last => fail last
  | n + 1, _ => do
    match ← attempt x with
    | .ok conn => pure conn
    | .error e => tries x n e

/-- An attempt to dial an address, whose failure leaves a trace. -/
def noted (address : String) (x : Action ChainError Conn) : Action ChainError Conn := do
  match ← attempt x with
  | .ok conn => pure conn
  | .error e =>
    emit (.failed address)
    fail e

/-- The precedence of the retry counts: the call's, the chain's, one. -/
def retryCount (chain call : Nat) : Nat :=
  if 0 < call then call else if 0 < chain then chain else 1

/-- `dial_with_options` without a resolver. -/
def Route.dialPlain (route : Route) (address : String) : Action ChainError Conn :=
  tries (route.dialOnce env none route.hosts address) (retryCount route.retries 0) .emptyChain

/-! ## The resolver -/

structure Resolver where
  servers : List NameServer
  domain : String
  prefer : String
  chain : Option Route
deriving Repr, DecidableEq

/-- Dials a name server, through the chain if there is one. -/
def dialTcpVia (addr : String) (chain : Option Route) : Action Failure Conn := do
  match chain.filter fun route => !route.isEmpty with
  | some route => mapErr (fun e => .io ⟨.other, e.text⟩) (route.dialPlain env addr)
  | none =>
    env.connect addr
    pure (.tcp addr)

/-- Where a DNS-over-HTTPS server is reached. -/
def dohAddr (urlParse : UrlParser) (s : String) : Except String String :=
  match urlParse s with
  | .error e => .error s!"bad DoH url: {e}"
  | .ok url =>
    match url.host with
    | none => .error "DoH url has no host"
    | some host =>
      let port := url.port.getD (if url.scheme = "http" then 80 else 443)
      .ok (if Text.contains host ':' then s!"[{host}]:{port.toNat}" else s!"{host}:{port.toNat}")

/-- The exchange with a name server up to its answer. -/
def nsContact (ns : NameServer) (chain : Option Route) : Action Failure Unit := do
  match ns.protocolKind.1 with
  | .udp =>
    -- the chain is not consulted, so a `udp-chain` server is asked directly too
    ofExcept ((toSocketAddrs ns.dialAddr).mapError .io)
    env.perform (.datagram ns.dialAddr)
  | .tcp =>
    let _conn ← dialTcpVia env ns.dialAddr chain
    pure ()
  | .tls =>
    let conn ← dialTcpVia env ns.dialAddr chain
    env.perform (.shake (.tls (if ns.hostname = "" then hostOf ns.dialAddr else ns.hostname)) conn)
  | .https =>
    match dohAddr env.urlParse ns.addr with
    | .error e => fail (.io ⟨.invalidData, e⟩)
    | .ok addr =>
      let _conn ← dialTcpVia env addr chain
      pure ()

def nsExchange (ns : NameServer) (chain : Option Route) (name : String) :
    Action Failure (List Net.IpAddr) := do
  nsContact env ns (if ns.protocolKind.2 then chain else none)
  ofExcept (← ask (env.answer · ns.addr name))

namespace Resolver

/-- One query.  A name whose labels do not fit the wire format is never sent. -/
def query (r : Resolver) (ns : NameServer) (host qtype : String) :
    Action Failure (List Net.IpAddr) := do
  match ← ask (env.cached · (fqdn host ++ "IN." ++ qtype)) with
  | some ips => pure ips
  | none =>
    if encodable (fqdn host) then nsExchange env ns r.chain (fqdn host)
    else fail (.io ⟨.invalidData, "label too long"⟩)

/-- Two queries, the second if the first brings no address. -/
def resolveVia (r : Resolver) (ns : NameServer) (host : String) :
    Action Failure (List Net.IpAddr) := do
  match ← attempt (r.query env ns host (if r.prefer = "ipv6" then "AAAA" else "A")) with
  | .ok (ip :: ips) => pure (ip :: ips)
  | _ => r.query env ns host (if r.prefer = "ipv6" then "A" else "AAAA")

/-- The servers in order, until one brings an address. -/
def failover (r : Resolver) (host : String) :
    List NameServer → Option Failure → Action Failure (List Net.IpAddr)
  | [], none => pure []
  | [], some e => fail e
  | ns :: rest, _ => do
    match ← attempt (r.resolveVia env ns host) with
    | .ok (ip :: ips) => pure (ip :: ips)
    | .ok [] => r.failover host rest none
    | .error e => r.failover host rest (some e)

/-- Whether an address is of the preferred family. -/
def preferred (prefer : String) : Net.IpAddr → Bool
  | .v4 _ => prefer ≠ "ipv6"
  | .v6 _ => prefer = "ipv6"

/-- The system's resolver, the preferred family first. -/
def systemLookup (host prefer : String) : Action Failure (List Net.IpAddr) := do
  match ← env.systemLookup s!"{host}:0" with
  | .error f => fail f
  | .ok ips => pure (ips.filter (preferred prefer) ++ ips.filter fun ip => !preferred prefer ip)

/-- The name that is asked for: one without a dot gets the search domain. -/
def searchName (r : Resolver) (host : String) : String :=
  if ¬ Text.contains host '.' ∧ r.domain ≠ "" then s!"{host}.{r.domain}" else host

def resolve (r : Resolver) (host : String) : Action Failure (List Net.IpAddr) :=
  if host = "" then pure []
  else
    match Net.IpAddr.parse host with
    | some ip => pure [ip]
    | none =>
      if r.servers = [] then systemLookup env (r.searchName host) r.prefer
      else r.failover env (r.searchName host) r.servers none

end Resolver

/-! ## The chain -/

structure Chain extends Route where
  resolver : Option Resolver
deriving Repr, DecidableEq

structure ChainOptions where
  retries : Nat
  hosts : Option Hosts
  resolver : Option Resolver
deriving Repr, DecidableEq

namespace Chain

def empty : Chain := { Route.empty with resolver := none }

/-- `-F` with one node for each given protocol, transport and address. -/
def ofNodes (nodes : List (String × String × String)) : Chain :=
  { Chain.empty with
    groups := nodes.map fun (protocol, transport, addr) =>
      [{ Node.empty with addr := addr, host := addr, protocol := protocol, transport := transport }] }

def defaultOptions (chain : Chain) : ChainOptions :=
  { retries := chain.retries, hosts := chain.hosts, resolver := chain.resolver }

def dialOnce (chain : Chain) (address : String) (options : ChainOptions) :
    Action ChainError Conn :=
  chain.toRoute.dialOnce env (options.resolver.map fun r host => r.resolve env host)
    options.hosts address

def dialWithOptions (chain : Chain) (address : String) (options : ChainOptions) :
    Action ChainError Conn := do
  emit (.dial address)
  tries (noted address (chain.dialOnce env address options))
    (retryCount chain.retries options.retries) .emptyChain

def dial (chain : Chain) (address : String) : Action ChainError Conn :=
  chain.dialWithOptions env address chain.defaultOptions

end Chain

end

end RtProxy
