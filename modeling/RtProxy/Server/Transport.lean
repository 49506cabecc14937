import RtProxy.Handler.Socks5

/-!
Which transports a listener serves and a chain dials (`main.rs`, `chain.rs`).

`Honest` is what an operator who writes a transport into a node's scheme is
promised: the node uses that transport, or there is an error.  The gates see only
the name that `normalize_transport` made of it, and its catch-all turns every
name it does not know into `tcp`.  On a chain they cannot keep the promise at all: BIND
and the UDP tunnel dial the last node over bare TCP, whatever its transport.
-/

namespace RtProxy
namespace Server

open Act

def GOST_SSH_TUNNEL_REQUEST : String := "gost-tunnel"

def SUPPORTED_LISTENER_TRANSPORTS : List String :=
  ["tcp", "tls", "ws", "wss", "mtls", "mws", "mwss", "quic", "kcp", "udp", "rtcp", "rudp", "dns",
    "redu", "h2", "h2c", "http2", "ohttp", "otls"]

def SUPPORTED_CHAIN_TRANSPORTS : List String :=
  ["", "tcp", "tls", "ws", "wss", "mtls", "mws", "mwss", "quic", "kcp", "h2", "h2c", "http2",
    "ohttp", "otls"]

/-- `{:?}` of a string without characters to escape. -/
def quoted (s : String) : String := "\"" ++ s ++ "\""

def orAuto (protocol : String) : String := if protocol = "" then "auto" else protocol

def sshListenerSupport (protocol : String) : Except Ssh.SshError Unit :=
  if protocol = "forward" then .ok ()
  else
    .error (.config (s!"listener {orAuto protocol}+ssh is gost's {quoted GOST_SSH_TUNNEL_REQUEST} tunnel " ++
      "transport, which is not implemented (russh has a closed set of channel types and cannot " ++
      "accept a custom one); refusing to start rather than serve plaintext TCP. " ++
      "Only forward+ssh is supported on a listener."))

def sshChainSupport (protocol : String) : Except Ssh.SshError Unit :=
  if protocol ∈ ["direct", "remote", "forward"] then .ok ()
  else
    .error (.config (s!"chain node {orAuto protocol}+ssh is gost's {quoted GOST_SSH_TUNNEL_REQUEST} tunnel " ++
      "transport, which is not implemented (russh has a closed set of channel types and cannot " ++
      "open a custom one); refusing to start rather than dial in cleartext. " ++
      "Use direct+ssh, remote+ssh or forward+ssh."))

def ensureListenerTransportSupported (node : Node) : Except String Unit :=
  if node.transport = "ssh" then (sshListenerSupport node.protocol).mapError Ssh.SshError.text
  else if node.transport = "" ∨ node.transport ∈ SUPPORTED_LISTENER_TRANSPORTS then .ok ()
  else
    .error (s!"listener transport {quoted node.transport} is not implemented (in {node.text}); " ++
      "refusing to start rather than fall back to plaintext TCP")

def ensureChainTransportSupported (node : Node) : Except String Unit :=
  if node.transport = "ssh" then (sshChainSupport node.protocol).mapError Ssh.SshError.text
  else if node.transport ∈ SUPPORTED_CHAIN_TRANSPORTS then .ok ()
  else
    .error (s!"chain node transport {quoted node.transport} is not implemented (in {node.text}); " ++
      "refusing to start rather than dial in cleartext")

/-- What a node is for. -/
inductive Role
  | listener
  | chain
deriving Repr, DecidableEq

namespace Role

/-- The gate a node of a role passes before it is used. -/
def gate : Role → Node → Except String Unit
  | .listener => ensureListenerTransportSupported
  | .chain => ensureChainTransportSupported

/-- The transports other than `ssh` that the gate lets pass. -/
def supported : Role → List String
  | .listener => "" :: SUPPORTED_LISTENER_TRANSPORTS
  | .chain => SUPPORTED_CHAIN_TRANSPORTS

/-- The gate refuses the transport of a node that speaks the protocol. -/
def refuses (role : Role) (protocol transport : String) : Bool :=
  if transport = "ssh" then
    match role with
    | .listener => protocol ≠ "forward"
    | .chain => protocol ∉ ["direct", "remote", "forward"]
  else transport ∉ role.supported

/-- A TCP socket is used as it is.  A listener serves these transports with the plain
`Server`; the one for `ssh` is left out, as the handler behind it speaks SSH.  Of a chain
node `layer_transport` puts nothing over the socket, or a handler dials it without
`layer_transport`, as it does to the last node of a chain. -/
def bare : Role → (transport addr : String) → Bool
  | .listener, transport, _ => transport ∈ ["", "tcp", "rtcp", "dns", "redu"]
  | .chain, transport, addr => transport ∈ ["", "tcp"] || (toSocketAddrs addr).isOk

end Role

/-- The documented aliases. -/
def transportAlias (t : String) : String :=
  if t = "https" then "tls" else if t = "ssu" then "udp" else t

/-- A node written with transport `t` uses it, and not bare TCP, or is refused. -/
def Honest (urlParse : UrlParser) (role : Role) (s t : String) : Prop :=
  ∀ node, Node.parse urlParse s = .ok node → role.gate node = .ok () →
    node.transport = transportAlias t ∧ role.bare node.transport node.addr = false

/-- Where the address of a node is read from its string. -/
def addrOf (s : String) (u : Url) : String :=
  (rawHostPort (Node.withScheme (Text.trim s))).getD (u.host.getD "")

/-- The transport is a known name, and it is refused, or means the same as `t` and never uses
bare TCP.  Of a scheme with one plus sign it is the component after it.  Of a scheme with
more, only the first component counts. -/
def Understood (role : Role) (addr scheme t : String) : Prop :=
  let (protocol, transport) := schemeParts scheme
  transport ∈ knownTransports ∧
    (role.refuses (normalizeProtocol protocol) (transportAlias transport) = true ∨
      transportAlias transport = transportAlias t ∧
        role.bare (transportAlias transport) addr = false)

instance (role : Role) (addr scheme t : String) : Decidable (Understood role addr scheme t) := by
  unfold Understood
  infer_instance

/-! ## The catch-all -/

theorem normalizeTransport_of_known {t : String} (h : t ∈ knownTransports) :
    normalizeTransport t = transportAlias t := by
  unfold normalizeTransport transportAlias
  rw [if_pos h]

theorem normalizeTransport_of_unknown {t : String} (h : t ∉ knownTransports) :
    normalizeTransport t = "tcp" := by
  have hne : t ≠ "https" := by
    rintro rfl
    exact h (by decide)
  unfold normalizeTransport
  rw [if_neg hne, if_neg h]

theorem transportAlias_eq_tcp {t : String} (h : transportAlias t = "tcp") : t = "tcp" := by
  unfold transportAlias at h
  split_ifs at h
  · exact absurd h (by decide)
  · exact absurd h (by decide)
  · exact h

/-- A gate reads the transport, and for `ssh` the protocol. -/
theorem gate_eq_ok (role : Role) (node : Node) :
    role.gate node = .ok () ↔ role.refuses node.protocol node.transport = false := by
  have hmap {r : Except Ssh.SshError Unit} : r.mapError Ssh.SshError.text = .ok () ↔ r = .ok () := by
    cases r <;> simp [Except.mapError]
  unfold Role.refuses
  cases role with
  | listener =>
    show ensureListenerTransportSupported node = _ ↔ _
    unfold ensureListenerTransportSupported sshListenerSupport Role.supported
    split_ifs with hssh <;> simp_all
  | chain =>
    show ensureChainTransportSupported node = _ ↔ _
    unfold ensureChainTransportSupported sshChainSupport Role.supported
    split_ifs with hssh <;> simp_all

/-- Plain TCP is never refused. -/
theorem not_refuses_tcp (role : Role) (protocol : String) : role.refuses protocol "tcp" = false := by
  cases role <;> rfl

theorem honest_of_parse {urlParse : UrlParser} {role : Role} {s t : String} {node : Node}
    (h : Node.parse urlParse s = .ok node) :
    Honest urlParse role s t ↔ (role.gate node = .ok () →
      node.transport = transportAlias t ∧ role.bare node.transport node.addr = false) := by
  unfold Honest
  constructor
  · exact fun hall => hall node h
  · intro hnode node' h'
    rw [h] at h'
    cases h'
    exact hnode

/-- A transport other than `tcp` that an operator writes, and so each component after a plus
sign, is used, or the node refused, exactly if `Understood` says so. -/
theorem honest_iff_understood {urlParse : UrlParser} {s t : String} {u : Url} (role : Role)
    (hs : Text.trim s ≠ "")
    (hu : urlParse (insertSentinelHost (Node.withScheme (Text.trim s))).1 = .ok u)
    (htcp : t ≠ "tcp") :
    Honest urlParse role s t ↔ Understood role (addrOf s u) u.scheme t := by
  rw [honest_of_parse (Node.parse_eq_ok hs hu), gate_eq_ok]
  unfold Understood addrOf Node.ofUrl
  dsimp only
  by_cases hknown : (schemeParts u.scheme).2 ∈ knownTransports
  · rw [normalizeTransport_of_known hknown, ← Bool.not_eq_true, ← or_iff_not_imp_left]
    exact (and_iff_right hknown).symm
  · -- the catch-all makes it bare TCP, which no gate refuses
    rw [normalizeTransport_of_unknown hknown]
    constructor
    · intro h
      have halias := (h (not_refuses_tcp role _)).1
      exact absurd (transportAlias_eq_tcp halias.symm) htcp
    · exact fun h => absurd h.1 hknown

/-! ## The last node of a chain -/

section

variable {libs : Libs} {o : HandlerOptions} {node : Node} {target host : String} {port : UInt16}
  {s : Bytes} {log : List Event}

/-- A node that can be dialled is given a request of BIND or a UDP tunnel on a bare socket. -/
theorem forwardToLast_bare (haddr : toSocketAddrs node.addr = .ok ())
    (htarget : Socks5.parseAddress target = .ok (host, port)) (negotiate : Bool) (what : String)
    (cmd : UInt8) : ∃ bs, .send (.tcp node.addr) bs ∈
      (Socks5.forwardToLast (Env.calm libs) node negotiate what cmd target s log).events := by
  have hconnect : attempt ((Env.calm libs).connect node.addr) s log =
      (⟨.ok (.ok ()), s, [.connect node.addr]⟩ : Outcome HandlerError _ _ _) := by
    unfold attempt Env.connect
    rw [haddr]
    rfl
  have hnegotiate (log : List Event) : ∃ new, when (negotiate = true)
      (Socks5.negotiateWith (Env.calm libs) node) s log = ⟨.ok (), s, new⟩ := by
    cases negotiate
    · exact ⟨[], rfl⟩
    · exact ⟨_, rfl⟩
  obtain ⟨new, hnegotiate⟩ := hnegotiate (log ++ [.connect node.addr])
  refine ⟨[Socks5.VERSION, cmd, 0x00] ++ Socks5.encodeAddress host port, ?_⟩
  refine mem_bind_right hconnect (mem_bind_right hnegotiate ?_)
  rw [htarget, ofExcept_bind rfl]
  exact mem_bind_left List.mem_cons_self

/-- A chain whose last node can be dialled has a node that BIND uses over bare TCP. -/
theorem last_is_bare (hne : o.chainOrEmpty.isEmpty = false)
    (haddr : toSocketAddrs o.chainOrEmpty.lastNode.addr = .ok ())
    (htarget : Socks5.parseAddress target = .ok (host, port)) :
    Role.bare .chain o.chainOrEmpty.lastNode.transport o.chainOrEmpty.lastNode.addr = true ∧
      ∃ bs, .send (.tcp o.chainOrEmpty.lastNode.addr) bs ∈
        (Socks5.handleBind (Env.calm libs) o target s log).events := by
  refine ⟨?_, ?_⟩
  · rw [Role.bare, haddr]
    exact Bool.or_true _
  · unfold Socks5.handleBind
    rw [hne, if_neg Bool.false_ne_true]
    exact forwardToLast_bare haddr htarget _ _ _

end

/-! ## Node strings -/

/-- What the `url` crate makes of a URL that is a scheme, a host and a port. -/
def plainUrl : UrlParser := fun s =>
  match Text.cutSub "://".toList s.toList with
  | none => .error "relative URL without a base"
  | some (scheme, authority) =>
    match Text.cutLast ':' authority with
    | none => .error "no port"
    | some (host, port) =>
      .ok
        { scheme := String.ofList scheme, username := "", password := none
          host := some (String.ofList host)
          port := (Text.decimal? port).map UInt16.ofNat, path := "", query := none
          queryPairs := [] }

/-- The URL of a listener on port 8443. -/
def localUrl (scheme : String) : Url :=
  { scheme := scheme, username := "", password := none, host := some "127.0.0.1"
    port := some 8443, path := "", query := none, queryPairs := [] }

theorem http_tls_is_honest : Honest plainUrl .listener "http+tls://127.0.0.1:8443" "tls" := by
  have hu : plainUrl (insertSentinelHost (Node.withScheme (Text.trim "http+tls://127.0.0.1:8443"))).1
      = .ok (localUrl "http+tls") := by decide
  exact (honest_iff_understood .listener (by decide) hu (by decide)).mpr (by decide)

/-- A misspelt transport is served as bare TCP. -/
theorem http_tlss_is_bare : ¬ Honest plainUrl .listener "http+tlss://127.0.0.1:8443" "tlss" := by
  intro h
  have hparse : Node.parse plainUrl "http+tlss://127.0.0.1:8443"
      = .ok (Node.ofUrl "http+tlss://127.0.0.1:8443" (localUrl "http+tlss")) := by decide
  have hbad := h _ hparse (by decide)
  exact absurd hbad.1 (by decide)

end Server
end RtProxy
