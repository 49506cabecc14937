import RtProxy.Handler.Socks4
import RtProxy.Socks5.Tunnel

/-!
The SOCKS5 server (`socks5.rs`).
-/

namespace RtProxy
namespace Socks5

open Act

def VERSION : UInt8 := 0x05

def METHOD_NO_AUTH : UInt8 := 0x00
def METHOD_USER_PASS : UInt8 := 0x02
def METHOD_TLS : UInt8 := 0x80
def METHOD_TLS_AUTH : UInt8 := 0x82
def METHOD_NO_ACCEPTABLE : UInt8 := 0xFF

def CMD_CONNECT : UInt8 := 0x01
def CMD_BIND : UInt8 := 0x02
def CMD_UDP_ASSOCIATE : UInt8 := 0x03
def CMD_MUX_BIND : UInt8 := 0xF2
def CMD_UDP_TUN : UInt8 := 0xF3

def REP_SUCCESS : UInt8 := 0x00
def REP_GENERAL_FAILURE : UInt8 := 0x01
def REP_NOT_ALLOWED : UInt8 := 0x02
def REP_HOST_UNREACHABLE : UInt8 := 0x04
def REP_CMD_NOT_SUPPORTED : UInt8 := 0x07

/-! ## Addresses -/

def joinHostPort (host : String) (port : UInt16) : String :=
  if Text.contains host ':' then s!"[{host}]:{port.toNat}" else s!"{host}:{port.toNat}"

def parseAddress (addr : String) : Except HandlerError (String × UInt16) :=
  match Permissions.splitHostPort addr with
  | .error _ => .error (.proxy s!"invalid address: {addr}")
  | .ok (host, port) =>
    match Text.parseUnsigned (2 ^ 16) port with
    | none => .error (.proxy s!"invalid port: {port}")
    | some n => .ok (host, UInt16.ofNat n)

def readHost (atyp : UInt8) : Take String :=
  if atyp = ATYP_IPV4 then do
    return (Net.Ipv4Addr.ofOctets (← takeExact 4)).text
  else if atyp = ATYP_DOMAIN then do
    let len ← takeByte
    return Text.fromUtf8Lossy (← takeExact len.toNat)
  else if atyp = ATYP_IPV6 then do
    return (Net.Ipv6Addr.ofOctets (← takeExact 16)).text
  else throw (.proxy s!"unsupported atyp: {atyp}")

def readAddress (atyp : UInt8) : Take (String × UInt16) := do
  let host ← readHost atyp
  return (host, ← takeU16)

/-! ## What the client sends -/

/-- The methods that the greeting offers. -/
def readGreeting : Take Bytes := do
  let ver ← takeByte
  if ver ≠ VERSION then throw (.proxy s!"unsupported SOCKS version: {ver}")
  let n ← takeByte
  takeExact n.toNat

def readCredentials : Take (String × String) := do
  let _ver ← takeByte
  let ulen ← takeByte
  let user ← takeExact ulen.toNat
  let plen ← takeByte
  let pass ← takeExact plen.toNat
  return (Text.fromUtf8Lossy user, Text.fromUtf8Lossy pass)

structure Request where
  cmd : UInt8
  target : String
deriving Repr, DecidableEq

def readRequest : Take Request := do
  let ver ← takeByte
  let cmd ← takeByte
  let _rsv ← takeByte
  let atyp ← takeByte
  if ver ≠ VERSION then throw (.proxy "invalid version in request")
  let (host, port) ← readAddress atyp
  return { cmd := cmd, target := joinHostPort host port }

/-- The method that is chosen: TLS if it is offered, with credentials if they are
configured. -/
def chooseMethod (requiresAuth : Bool) (methods : Bytes) : UInt8 :=
  if METHOD_TLS ∈ methods then if requiresAuth then METHOD_TLS_AUTH else METHOD_TLS
  else if requiresAuth then METHOD_USER_PASS else METHOD_NO_AUTH

section

variable (env : Env) (o : HandlerOptions)

/-! ## Replies -/

def sendReply (rep : UInt8) (ip : Net.IpAddr) (port : UInt16) : Action HandlerError Unit :=
  reply env ([VERSION, rep, 0x00] ++
    (match ip with
      | .v4 ip => ATYP_IPV4 :: ip.octets
      | .v6 ip => ATYP_IPV6 :: ip.octets) ++ Bytes.be 2 port.toNat)

/-- A reply without an address. -/
def sendCode (rep : UInt8) : Action HandlerError Unit :=
  sendReply env rep (.v4 .unspecified) 0

/-! ## CONNECT -/

def handleConnect (target : String) : Action HandlerError Unit :=
  checked o target
    (do sendCode env REP_NOT_ALLOWED; fail .forbidden)
    (sendCode env REP_NOT_ALLOWED)
    (do
      match ← attempt (socksDial env o target) with
      | .ok cc =>
        sendCode env REP_SUCCESS
        splice cc
      | .error e =>
        sendCode env REP_HOST_UNREACHABLE
        fail (.chain e))

/-! ## BIND -/

def bindOn (addr : String) : Action HandlerError Unit := do
  match ← attempt (env.perform (.listen addr)) with
  | .error f =>
    sendCode env REP_GENERAL_FAILURE
    fail (.ofFailure f)
  | .ok () =>
    let bound ← ask env.addrOf
    sendReply env REP_SUCCESS bound.ip bound.port
    if ← ask env.leaves then pure ()
    else
      mapErr .ofFailure (env.perform .accept)
      let peer ← ask env.addrOf
      sendReply env REP_SUCCESS peer.ip peer.port
      splice (.accepted peer.text)

/-- The method negotiation with a node that wants one. -/
def negotiateWith (node : Node) : Action HandlerError Unit := do
  match ← attempt (env.perform (.shake .socks5Methods (.tcp node.addr))) with
  | .error f =>
    sendCode env REP_GENERAL_FAILURE
    fail (.ofFailure f)
  | .ok () => pure ()

/-- Replays a request onto the last node of the chain, and splices.  A plain forward
node takes the request of a BIND as it is. -/
def forwardToLast (node : Node) (negotiate : Bool) (what : String) (cmd : UInt8) (target : String) :
    Action HandlerError Unit := do
  match ← attempt (env.connect node.addr) with
  | .error (.io e) =>
    sendCode env REP_GENERAL_FAILURE
    fail (.io e)
  | .error .timeout =>
    sendCode env REP_GENERAL_FAILURE
    fail (.proxy s!"{what}: chain dial timeout")
  | .ok () =>
    when (negotiate = true) (negotiateWith env node)
    let (host, port) ← ofExcept (parseAddress target)
    send env (.tcp node.addr) ([VERSION, cmd, 0x00] ++ encodeAddress host port)
    splice (.tcp node.addr)

def handleBind (target : String) : Action HandlerError Unit := do
  if o.chainOrEmpty.isEmpty then
    if ← can o "rtcp" target then bindOn env target
    else
      sendCode env REP_NOT_ALLOWED
      fail .forbidden
  else
    forwardToLast env o.chainOrEmpty.lastNode (o.chainOrEmpty.lastNode.protocol = "socks5") "bind"
      CMD_BIND target

/-- The accept loop of a multiplexed BIND: a stream for each peer, until the listener
or the session fails. -/
def muxAccept : Nat → Action HandlerError Unit
  | 0 => fail (.io ⟨.brokenPipe, "session closed"⟩)
  | n + 1 => do
    mapErr .ofFailure (env.perform .accept)
    let peer ← ask env.addrOf
    mapErr .ofFailure (env.perform (.openStream (.stream "mbind" peer.text)))
    muxAccept n

def handleMuxBind (target : String) : Action HandlerError Unit := do
  if o.chainOrEmpty.isEmpty then
    if ← can o "rtcp" target then
      match ← attempt (env.perform (.listen target)) with
      | .error f =>
        sendCode env REP_GENERAL_FAILURE
        fail (.ofFailure f)
      | .ok () =>
        let bound ← ask env.addrOf
        sendReply env REP_SUCCESS bound.ip bound.port
        muxAccept env (← ask env.peers)
    else
      sendCode env REP_NOT_ALLOWED
      fail .forbidden
  else
    sendCode env REP_CMD_NOT_SUPPORTED
    fail (.proxy "socks5 mbind through a chain is not implemented")

/-! ## UDP -/

def udpDstAllowed {ε : Type} (dst : String) : Action ε Bool := do
  if ← can o "udp" dst then return !(← bypassed o dst)
  else return false

/-- The address of a datagram's destination. -/
def resolveUdpAddr {ε : Type} (host : String) (port : UInt16) :
    Action ε (Option Net.SocketAddr) := do
  match Net.IpAddr.parse host with
  | some ip => return some ⟨ip, port⟩
  | none =>
    match ← env.systemLookup host with
    | .ok (ip :: _) => return some ⟨ip, port⟩
    | _ => return none

/-- Sends a datagram of the client on, if its destination is allowed both as it is
written and as it resolves. -/
def udpForward (host : String) (port : UInt16) : Action Failure Unit := do
  if ← udpDstAllowed o (joinHostPort host port) then
    match ← resolveUdpAddr env host port with
    | none => pure ()
    | some raddr =>
      if raddr.text = joinHostPort host port then env.perform (.datagram raddr.text)
      else if ← udpDstAllowed o raddr.text then env.perform (.datagram raddr.text)
      else pure ()
  else pure ()

/-- Whether a datagram from this address is passed back. -/
def passesBack {ε : Type} (raddr : Net.SocketAddr) : Action ε Bool := do
  return !(← bypassed o raddr.text)

def encodeUdpDatagram (addr : Net.SocketAddr) (data : Bytes) : Bytes :=
  [0x00, 0x00, 0x00] ++ encodeAddress addr.ip.text addr.port ++ data

/-- A datagram of the client that owns the association. -/
def fromClient (bs : Bytes) : Action Failure Unit :=
  match parseUdpDatagram bs with
  | some (frag, host, port, _) => if frag = 0 then udpForward env o host port else pure ()
  | none => pure ()

/-- A datagram from outside, once the client is known. -/
def fromPeer (client : Option Net.SocketAddr) (bs : Bytes) (raddr : Net.SocketAddr) :
    Action Failure Unit := do
  match client with
  | none => pure ()
  | some _ =>
    if ← passesBack o raddr then env.write (.reply (encodeUdpDatagram raddr bs)) else pure ()

/-- The relay loop: the first sender owns the association. -/
def transportUdp (client : Option Net.SocketAddr) : List Arrival → Action Failure Unit
  | [] => pure ()
  | .client bs laddr :: rest => do
    when (client.getD laddr = laddr) (fromClient env o bs)
    transportUdp (some (client.getD laddr)) rest
  | .peer bs raddr :: rest => do
    fromPeer env o client bs raddr
    transportUdp client rest

/-- The wildcard address of the family. -/
def anyAddr : Net.IpAddr → String
  | .v4 _ => "0.0.0.0:0"
  | .v6 _ => "[::]:0"

def handleUdpRelay (target : String) : Action HandlerError Unit := do
  if ← can o "udp" target then
    let addr ← ask env.addrOf
    match ← attempt (env.perform (.listen (Net.SocketAddr.text ⟨addr.ip, 0⟩))) with
    | .error f =>
      sendCode env REP_GENERAL_FAILURE
      fail (.ofFailure f)
    | .ok () =>
      let relay ← ask env.addrOf
      sendReply env REP_SUCCESS relay.ip relay.port
      mapErr .ofFailure (env.perform (.listen (anyAddr addr.ip)))
      let _ended ← attempt (transportUdp env o none env.arrivals)
      pure ()
  else
    sendCode env REP_NOT_ALLOWED
    fail .forbidden

/-- The tunnel loop.  A datagram of the client comes from its own stream. -/
def tunnelServerUdp (r : TunnelReader) : List Arrival → Action Failure Unit
  | [] => pure ()
  | .client _ _ :: rest => do
    let s ← get
    let (received, r', s') := r.pollRecvFrom s .eof
    set s'
    match received with
    | some (.datagram d) =>
      udpForward env o d.host d.port
      tunnelServerUdp r' rest
    | some (.failed e) => fail (.io e)
    | _ => pure ()
  | .peer bs raddr :: rest => do
    let back ← passesBack o raddr
    when (back = true)
      (env.write (.reply (encodeUdpTunnelDatagram ⟨bs, raddr.ip.text, raddr.port⟩)))
    tunnelServerUdp r rest

def handleUdpTunnel (target : String) : Action HandlerError Unit := do
  if o.chainOrEmpty.isEmpty then
    if ← can o "rudp" target then
      let (host, port) ← ofExcept (parseAddress target)
      let addr ← resolveUdpAddr env host port
      match ← attempt (env.perform (.listen (addr.getD ⟨.v4 .unspecified, 0⟩).text)) with
      | .error f =>
        sendCode env REP_GENERAL_FAILURE
        fail (.ofFailure f)
      | .ok () =>
        let bound ← ask env.addrOf
        sendReply env REP_SUCCESS bound.ip bound.port
        let _ended ← attempt (tunnelServerUdp env o .new env.arrivals)
        pure ()
    else
      sendCode env REP_NOT_ALLOWED
      fail .forbidden
  else forwardToLast env o.chainOrEmpty.lastNode true "udp-tun" CMD_UDP_TUN target

/-! ## The handler -/

/-- The rest of the exchange runs inside TLS, the credentials included. -/
def acceptTls : Action HandlerError Unit := do
  mapErr (fun f => .proxy s!"socks5 tls handshake: {f.text}") (env.perform .acceptTls)
  let s ← get
  set (env.decrypt s)

def checkCredentials : Action HandlerError Unit := do
  let (user, pass) ← take readCredentials
  if ← authenticate o true user pass then reply env [0x01, 0x00]
  else
    reply env [0x01, 0x01]
    fail .authFailed

/-- Whether the client offers no method that would do. -/
def unacceptable (methods : Bytes) : Prop :=
  o.authenticator.isSome = true ∧ METHOD_USER_PASS ∉ methods ∧ METHOD_TLS ∉ methods

instance (methods : Bytes) : Decidable (unacceptable o methods) :=
  inferInstanceAs (Decidable (_ ∧ _ ∧ _))

/-- What a method leads to. -/
def runMethod (method : UInt8) : Action HandlerError Unit := do
  reply env [VERSION, method]
  when (method = METHOD_TLS ∨ method = METHOD_TLS_AUTH) (acceptTls env)
  when (method = METHOD_USER_PASS ∨ method = METHOD_TLS_AUTH) (checkCredentials env o)

def negotiate : Action HandlerError Unit := do
  let methods ← take readGreeting
  if unacceptable o methods then
    reply env [VERSION, METHOD_NO_ACCEPTABLE]
    fail .authFailed
  else runMethod env o (chooseMethod o.authenticator.isSome methods)

def serve (r : Request) : Action HandlerError Unit := do
  if r.cmd = CMD_CONNECT then handleConnect env o r.target
  else if r.cmd = CMD_BIND then handleBind env o r.target
  else if r.cmd = CMD_MUX_BIND then handleMuxBind env o r.target
  else if r.cmd = CMD_UDP_ASSOCIATE then handleUdpRelay env o r.target
  else if r.cmd = CMD_UDP_TUN then handleUdpTunnel env o r.target
  else
    sendCode env REP_CMD_NOT_SUPPORTED
    fail (.proxy s!"unsupported command: {r.cmd}")

def handle : Action HandlerError Unit := do
  negotiate env o
  let r ← take readRequest
  serve env o r

end

/-! ## Who is let in

The negotiation as a function of the client's stream. -/

/-- The rest of the stream after the credentials, if they are wanted and accepted. -/
def afterCredentials (o : HandlerOptions) (s : Bytes) : Option Bytes :=
  if o.authenticator.isSome then
    match readCredentials s with
    | .ok ((user, pass), s') => if o.accepts user pass then some s' else none
    | .error _ => none
  else some s

/-- The rest of the stream once the client is let in. -/
def letIn (libs : Libs) (o : HandlerOptions) (s : Bytes) : Option Bytes :=
  match readGreeting s with
  | .ok (methods, s') =>
    if unacceptable o methods then none
    else afterCredentials o (if METHOD_TLS ∈ methods then libs.decrypt s' else s')
  | .error _ => none

/-- The request that is served, and the rest of the stream. -/
def request? (libs : Libs) (o : HandlerOptions) (s : Bytes) : Option (Request × Bytes) :=
  match letIn libs o s with
  | some s' =>
    match readRequest s' with
    | .ok r => some r
    | .error _ => none
  | none => none

theorem chooseMethod_tls (requiresAuth : Bool) (methods : Bytes) :
    (chooseMethod requiresAuth methods = METHOD_TLS
      ∨ chooseMethod requiresAuth methods = METHOD_TLS_AUTH) ↔ METHOD_TLS ∈ methods := by
  unfold chooseMethod
  cases requiresAuth <;> by_cases h : METHOD_TLS ∈ methods <;> simp [h] <;> decide

theorem chooseMethod_auth (requiresAuth : Bool) (methods : Bytes) :
    (chooseMethod requiresAuth methods = METHOD_USER_PASS
      ∨ chooseMethod requiresAuth methods = METHOD_TLS_AUTH) ↔ requiresAuth = true := by
  unfold chooseMethod
  cases requiresAuth <;> by_cases h : METHOD_TLS ∈ methods <;> simp [h] <;> decide

section

variable {env : Env} {o : HandlerOptions} {s s' : Bytes} {log new : List Event}

theorem acceptTls_eq_ok {u : Unit} (h : acceptTls env s log = ⟨.ok u, s', new⟩) :
    s' = env.decrypt s := by
  obtain ⟨u₁, s₁, ev₁, ev₂, haccept, htail, rfl⟩ := bind_eq_ok h
  obtain ⟨rfl, -⟩ := perform_eq_ok (mapErr_eq_ok haccept)
  rw [get_bind] at htail
  cases htail
  rfl

/-- Whose credentials are checked is let in only with accepted ones. -/
theorem checkCredentials_eq_ok {u : Unit} (hsome : o.authenticator.isSome = true)
    (h : checkCredentials env o s log = ⟨.ok u, s', new⟩) :
    afterCredentials o s = some s'
      ∧ ∃ user pass, o.accepts user pass = true ∧ .auth true user pass true ∈ new := by
  obtain ⟨⟨user, pass⟩, s₁, ev₁, ev', htake, h₁, rfl⟩ := bind_eq_ok h
  obtain ⟨hread, rfl⟩ := take_eq_ok htake
  obtain ⟨accepted, s₂, ev₂, ev₃, hauth, h₂, rfl⟩ := bind_eq_ok h₁
  rw [authenticate_run, if_pos hsome] at hauth
  cases hauth
  split_ifs at h₂ with hacc
  · obtain ⟨rfl, rfl⟩ := reply_eq_ok h₂
    refine ⟨?_, user, pass, hacc, ?_⟩
    · rw [afterCredentials, if_pos hsome, hread]
      exact if_pos hacc
    · rw [hacc]
      simp
  · obtain ⟨u₃, s₃, ev₄, ev₅, hreply, hfail, -⟩ := bind_eq_ok h₂
    cases hfail

/-- The client that gets past the negotiation is let in; if credentials are
configured, it has presented accepted ones. -/
theorem negotiate_eq_ok {u : Unit} (h : negotiate env o s log = ⟨.ok u, s', new⟩) :
    letIn env.toLibs o s = some s' ∧ (o.authenticator.isSome = true →
      ∃ user pass, o.accepts user pass = true ∧ .auth true user pass true ∈ new) := by
  obtain ⟨methods, s₁, ev₁, ev', htake, h₁, rfl⟩ := bind_eq_ok h
  obtain ⟨hread, rfl⟩ := take_eq_ok htake
  split_ifs at h₁ with hun
  · obtain ⟨u₂, s₂, ev₂, ev₃, -, hfail, -⟩ := bind_eq_ok h₁
    cases hfail
  · obtain ⟨u₂, s₂, ev₂, ev₃, hreply, h₂, rfl⟩ := bind_eq_ok h₁
    obtain ⟨rfl, rfl⟩ := reply_eq_ok hreply
    obtain ⟨u₃, s₃, ev₄, ev₅, htls, hcreds, rfl⟩ := bind_eq_ok h₂
    have hs₃ : s₃ = if METHOD_TLS ∈ methods then env.decrypt s₂ else s₂ := by
      rw [when] at htls
      split_ifs at htls with hm <;> rw [chooseMethod_tls] at hm
      · rw [if_pos hm]
        exact acceptTls_eq_ok htls
      · rw [if_neg hm]
        cases htls
        rfl
    rw [letIn, hread]
    dsimp only
    rw [if_neg hun, ← hs₃]
    rw [when] at hcreds
    split_ifs at hcreds with hm <;> rw [chooseMethod_auth] at hm
    · obtain ⟨hafter, user, pass, hacc, hmem⟩ := checkCredentials_eq_ok hm hcreds
      exact ⟨hafter, fun _ => ⟨user, pass, hacc, by simp [hmem]⟩⟩
    · cases hcreds
      refine ⟨?_, fun hsome => absurd hsome hm⟩
      rw [afterCredentials, if_neg hm]

/-! Whoever may be let in gets past the negotiation, if nothing fails. -/

theorem acceptTls_unfailing (hu : env.Unfailing) (secure : Prop) [Decidable secure] :
    ∃ new, when secure (acceptTls env) s log
      = ⟨.ok (), if secure then env.decrypt s else s, new⟩ := by
  unfold when
  split_ifs
  · have haccept : (mapErr (fun f => HandlerError.proxy s!"socks5 tls handshake: {f.text}")
        (env.perform .acceptTls)) s log = ⟨.ok (), s, [.acceptTls]⟩ := by
      unfold mapErr
      rw [hu.perform]
      rfl
    exact exists_bind_ok ⟨_, haccept⟩ fun log => ⟨_, rfl⟩
  · exact ⟨_, rfl⟩

theorem checkCredentials_unfailing (hu : env.Unfailing) (h : afterCredentials o s = some s') :
    ∃ new, when (o.authenticator.isSome = true) (checkCredentials env o) s log
      = ⟨.ok (), s', new⟩ := by
  unfold afterCredentials at h
  unfold when
  split_ifs at h ⊢ with hsome
  · cases hread : readCredentials s with
    | error e =>
      rw [hread] at h
      cases h
    | ok x =>
      obtain ⟨⟨user, pass⟩, s₁⟩ := x
      rw [hread] at h
      dsimp only at h
      split_ifs at h with hacc
      cases h
      refine exists_bind_ok ⟨_, take_ok hread⟩ fun log => ?_
      refine exists_bind_ok ⟨_, authenticate_run o true user pass _ _⟩ fun log => ?_
      rw [if_pos hacc]
      exact ⟨_, reply_unfailing hu _ _ _⟩
  · cases h
    exact ⟨_, rfl⟩

theorem negotiate_unfailing (hu : env.Unfailing) (h : letIn env.toLibs o s = some s')
    (log : List Event) : ∃ new, negotiate env o s log = ⟨.ok (), s', new⟩ := by
  unfold letIn at h
  cases hread : readGreeting s with
  | error e =>
    rw [hread] at h
    cases h
  | ok x =>
    obtain ⟨methods, s₁⟩ := x
    rw [hread] at h
    dsimp only at h
    have hun : ¬ unacceptable o methods := by
      intro hun
      rw [if_pos hun] at h
      cases h
    rw [if_neg hun] at h
    refine exists_bind_ok ⟨_, take_ok hread⟩ fun log => ?_
    rw [if_neg hun]
    refine exists_bind_ok ⟨_, reply_unfailing hu _ _ _⟩ fun log => ?_
    refine exists_bind_ok (acceptTls_unfailing hu _) fun log => ?_
    simp only [chooseMethod_tls, chooseMethod_auth]
    exact checkCredentials_unfailing hu h

/-! ## The handler, by the request it serves -/

theorem negotiate_emits {p : Event → Prop} (hreply : ∀ bs, p (.reply bs)) (htls : p .acceptTls)
    (hauth : o.authenticator.isSome = true → ∀ u w b, p (.auth true u w b)) :
    (negotiate env o).Emits p := by
  have hr (bs : Bytes) : (reply env bs).Emits p := emits_mapErr _ (emits_perform (hreply bs))
  refine emits_bind (emits_take _) fun methods => emits_ite ?_ ?_
  · exact emits_bind (hr _) fun _ => emits_fail _
  · refine emits_bind (hr _) fun _ => emits_bind (emits_when fun _ => ?_) fun _ => ?_
    · refine emits_bind (emits_mapErr _ (emits_perform htls)) fun _ => ?_
      exact emits_bind emits_get fun s => emits_set _
    · refine emits_when fun hm => emits_bind (emits_take _) fun creds => ?_
      rw [chooseMethod_auth] at hm
      refine emits_bind (emits_bind (emits_when fun _ => emits_emit (hauth hm _ _ _)) fun _ =>
        emits_pure _) fun accepted => emits_ite (hr _) ?_
      exact emits_bind (hr _) fun _ => emits_fail _

/-- What the handler adds comes from the negotiation, or from serving the request. -/
theorem mem_handle {e : Event} (h : e ∈ (handle env o s log).events) :
    e ∈ (negotiate env o s log).events ∨
      ∃ r rest log', request? env.toLibs o s = some (r, rest)
        ∧ e ∈ (serve env o r rest log').events := by
  unfold handle at h
  rcases hneg : negotiate env o s log with ⟨_ | u, s₁, ev₁⟩
  · rw [bind_error hneg] at h
    exact .inl h
  · rw [bind_ok hneg] at h
    rcases List.mem_append.mp h with h | h
    · exact .inl h
    · cases hread : readRequest s₁ with
      | error err =>
        rw [bind_error (take_error hread)] at h
        cases h
      | ok x =>
        obtain ⟨r, rest⟩ := x
        rw [bind_silent (take_ok hread)] at h
        refine .inr ⟨r, rest, _, ?_, h⟩
        rw [request?, (negotiate_eq_ok hneg).1]
        dsimp only
        rw [hread]

/-- If nothing fails, then the request is served. -/
theorem mem_handle_of_serve (log : List Event) (hu : env.Unfailing) {r : Request} {rest : Bytes}
    (hr : request? env.toLibs o s = some (r, rest)) {p : Event → Prop}
    (h : ∀ log, ∃ e ∈ (serve env o r rest log).events, p e) :
    ∃ e ∈ (handle env o s log).events, p e := by
  unfold request? at hr
  cases hin : letIn env.toLibs o s with
  | none =>
    rw [hin] at hr
    cases hr
  | some s₁ =>
    rw [hin] at hr
    dsimp only at hr
    cases hread : readRequest s₁ with
    | error err =>
      rw [hread] at hr
      cases hr
    | ok x =>
      rw [hread] at hr
      cases hr
      obtain ⟨new, hneg⟩ := negotiate_unfailing hu hin log
      obtain ⟨e, he, hp⟩ := h (log ++ new)
      refine ⟨e, mem_bind_right hneg ?_, hp⟩
      rw [bind_silent (take_ok hread)]
      exact he

end

end Socks5
end RtProxy
