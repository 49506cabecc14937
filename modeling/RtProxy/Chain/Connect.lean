import RtProxy.Relay.Conn
import RtProxy.Socks5.Tunnel
import RtProxy.Ss.Stream
import RtProxy.World

/-!
What a hop is asked with (`chain.rs`).

A hop has an address to connect to, settings for its transport, and a request that its
connector writes before it reads an answer.  Each of them may be refused by the client
itself, whatever the world does.  The base64 encoder is a parameter.
-/

namespace RtProxy

inductive ChainError
  | emptyChain
  | timeout
  | io (e : IoError)
  | proxyError (msg : String)
deriving Repr, DecidableEq

namespace ChainError

def ofFailure : Failure → ChainError
  | .timeout => .timeout
  | .io e => .io e

def text : ChainError → String
  | .emptyChain => "empty chain"
  | .timeout => "connection timeout"
  | .io e => s!"IO error: {e.msg}"
  | .proxyError msg => s!"proxy error: {msg}"

end ChainError

inductive HandlerError
  | io (e : IoError)
  | proxy (msg : String)
  | authFailed
  | forbidden
  | chain (e : ChainError)
deriving Repr, DecidableEq

def HandlerError.ofFailure : Failure → HandlerError
  | .timeout => .io ⟨.timedOut, Failure.timeout.text⟩
  | .io e => .io e

def HandlerError.text : HandlerError → String
  | .io e => s!"IO error: {e.msg}"
  | .proxy msg => s!"proxy error: {msg}"
  | .authFailed => "authentication failed"
  | .forbidden => "forbidden"
  | .chain e => s!"chain error: {e.text}"

/-- What `Node::default` is. -/
def Node.empty : Node :=
  { addr := "", host := "", protocol := "", transport := "", remote := "", user := none
    values := [] }

/-! ## Addresses -/

/-- `split_host_port` of `chain.rs`, which splits a bracketed host at its bracket. -/
def splitHostPort (addr : String) : Except ChainError (String × UInt16) :=
  let parts : Except ChainError (List Char × List Char) :=
    match addr.toList with
    | '[' :: rest =>
      match Text.cutFirst ']' rest with
      | none => .error (.proxyError "unbalanced IPv6 brackets")
      | some (host, ':' :: port) => .ok (host, port)
      | some _ => .error (.proxyError "missing port")
    | cs =>
      match Text.cutLast ':' cs with
      | none => .error (.proxyError "invalid target address")
      | some x => .ok x
  match parts with
  | .error e => .error e
  | .ok (host, port) =>
    match Text.parseUnsigned (2 ^ 16) (String.ofList port) with
    | none => .error (.proxyError "invalid port")
    | some n => .ok (String.ofList host, UInt16.ofNat n)

def joinHostPort (host : String) (port : UInt16) : String :=
  if Text.contains host ':' ∧ ¬ Text.startsWith host "[" then s!"[{host}]:{port.toNat}"
  else s!"{host}:{port.toNat}"

/-- What `ToSocketAddrs` asks of a string before it looks the host up.  The literal of a
socket address has its port after the last colon, too. -/
def toSocketAddrs (addr : String) : Except IoError Unit :=
  match Text.cutLast ':' addr.toList with
  | none => .error ⟨.invalidInput, "invalid socket address"⟩
  | some (_, port) =>
    match Text.parseUnsigned (2 ^ 16) (String.ofList port) with
    | none => .error ⟨.invalidInput, "invalid port value"⟩
    | some _ => .ok ()

/-- The name a hop's transport presents. -/
def hopHostname (node : Node) : String :=
  match node.get "host" with
  | some h =>
    if h ≠ "" then h
    else match splitHostPort node.addr with
      | .ok (h, _) => h
      | .error _ => "localhost"
  | none =>
    match splitHostPort node.addr with
    | .ok (h, _) => h
    | .error _ => "localhost"

def isMuxTransport (transport : String) : Bool := transport ∈ ["mtls", "mws", "mwss"]

/-- The transports that own their dial. -/
def ownsDial (transport : String) : Bool :=
  isMuxTransport transport || transport ∈ ["quic", "ssh", "kcp"]

/-! ## Settings -/

/-- `get_bool`, which knows what Go's `ParseBool` knows. -/
def Node.getBool (node : Node) (key : String) : Bool :=
  (node.get key).any fun v => v ∈ ["1", "t", "T", "TRUE", "true", "True"]

/-- `get_int`; what is no number is zero. -/
def Node.getInt (node : Node) (key : String) : Int := ((node.get key).bind Text.parseI64).getD 0

/-- `mux_config_from_node`. -/
def muxConfigFromNode (node : Node) : Except IoError Mux.MuxConfig :=
  Mux.muxConfigFromValues (UInt32.ofNat (node.getInt "smuxver").toNat)
    (node.getInt "smuxbuf").toNat (node.getInt "streambuf").toNat (node.getInt "keepalive").toNat

namespace Kcp

def KcpConfig.load (libs : Libs) (path : String) : Except String KcpConfig :=
  (libs.kcpFile path).map KcpConfig.init

def KcpConfig.fromNode (libs : Libs) (node : Node) : Except String KcpConfig :=
  let config : Except String KcpConfig :=
    match (node.get "c").filter (· ≠ "") with
    | some path => (KcpConfig.load libs path).mapError fun e => s!"kcp: reading {path}: {e}"
    | none => .ok { KcpConfig.default with tcp := node.getBool "tcp" }
  match config with
  | .error e => .error e
  | .ok config =>
    match config.init.validate libs.newCrypt with
    | .error e => .error e
    | .ok () => .ok config.init

end Kcp

namespace Ssh

inductive SshError
  | config (msg : String)
  | protocol (msg : String)
deriving Repr, DecidableEq

def SshError.text : SshError → String
  | .config msg | .protocol msg => s!"ssh: {msg}"

structure SshConfig where
  keyFile : Option String
  authorizedKeysFile : Option String
  keyPassphrase : Option String
  user : Option String
  password : Option String
  hostKeyFile : Option String
deriving Repr, DecidableEq

def SshConfig.fromNode (node : Node) : SshConfig where
  keyFile := (node.get "ssh_key").filter (· ≠ "")
  authorizedKeysFile := (node.get "ssh_authorized_keys").filter (· ≠ "")
  keyPassphrase := (node.get "ssh_key_passphrase").filter (· ≠ "")
  user := node.user.map (·.1)
  password := node.user.bind (·.2)
  hostKeyFile := (node.get "ssh_host_key").filter (· ≠ "")

/-- A character in `{:?}` of a string, if it is printable or one of these. -/
def escaped (c : Char) : String :=
  match c.toNat with
  | 0x22 => "\\\""
  | 0x5C => "\\\\"
  | 0x0A => "\\n"
  | 0x0D => "\\r"
  | 0x09 => "\\t"
  | _ => String.singleton c

def quoted (s : String) : String := "\"" ++ String.join (s.toList.map escaped) ++ "\""

def parseSshKeyFile (keys : Keys) (path : String) (passphrase : Option String) :
    Except SshError String :=
  match keys.readToString path with
  | .error e => .error (.config s!"cannot read ssh key file {quoted path}: {e}")
  | .ok text =>
    match keys.decodeSecretKey text passphrase with
    | .error e => .error (.config s!"cannot parse ssh key file {quoted path}: {e}")
    | .ok key => .ok key

/-- The fingerprint of the key that a server has to present. -/
def pinnedHostKey (keys : Keys) (path : String) : Except SshError String :=
  match keys.readToString path with
  | .error e => .error (.config s!"cannot read ssh host key file {quoted path}: {e}")
  | .ok text =>
    match keys.fromOpenssh (Text.trim text) with
    | .error e => .error (.config s!"cannot parse ssh host key file {quoted path}: {e}")
    | .ok fingerprint => .ok fingerprint

/-- The client of a hop. -/
structure SshForwardTransporter where
  config : SshConfig
  identity : Option String
  pinnedHostKey : Option String
deriving Repr, DecidableEq

def NO_CREDENTIALS : String :=
  "ssh chain node has no credentials: give `user:password@` in the node URL " ++
    "or `?ssh_key=<file>`. Connecting without either would only work against a " ++
    "server that requires no authentication at all."

/-- Reads the file of an option, if it is given. -/
def readOptional {α : Type} (read : String → Except SshError α) :
    Option String → Except SshError (Option α)
  | some path => (read path).map some
  | none => .ok none

def SshForwardTransporter.new (keys : Keys) (config : SshConfig) :
    Except SshError SshForwardTransporter :=
  match readOptional (parseSshKeyFile keys · config.keyPassphrase) config.keyFile with
  | .error e => .error e
  | .ok identity =>
    if identity.isNone ∧ config.password.getD "" = "" then .error (.config NO_CREDENTIALS)
    else
      match readOptional (Ssh.pinnedHostKey keys) config.hostKeyFile with
      | .error e => .error e
      | .ok pinned => .ok { config := config, identity := identity, pinnedHostKey := pinned }

/-- There is a password or a private key to log in with. -/
def SshConfig.HasCredentials (config : SshConfig) : Prop :=
  config.keyFile.isSome ∨ config.password.getD "" ≠ ""

theorem hasCredentials_of_new {keys : Keys} {config : SshConfig} {t : SshForwardTransporter}
    (h : SshForwardTransporter.new keys config = .ok t) : config.HasCredentials := by
  by_contra hno
  obtain ⟨hkey, hpassword⟩ := not_or.mp hno
  rw [Option.not_isSome_iff_eq_none] at hkey
  rw [not_not] at hpassword
  rw [SshForwardTransporter.new, hkey, readOptional] at h
  dsimp only at h
  rw [if_pos ⟨rfl, hpassword⟩] at h
  cases h

/-- Key formats that take every text. -/
def Keys.lenient : Keys where
  readToString _ := .ok ""
  fromOpenssh _ := .ok ""
  decodeSecretKey _ _ := .ok ""
  generateFor := .ok ""

theorem new_lenient {config : SshConfig} (h : config.HasCredentials) :
    ∃ t, SshForwardTransporter.new .lenient config = .ok t := by
  have hkey : ∃ identity,
      readOptional (parseSshKeyFile .lenient · config.keyPassphrase) config.keyFile = .ok identity ∧
        identity.isNone = config.keyFile.isNone := by
    cases config.keyFile <;> exact ⟨_, rfl, rfl⟩
  have hpin : ∃ pinned, readOptional (Ssh.pinnedHostKey .lenient) config.hostKeyFile = .ok pinned := by
    cases config.hostKeyFile <;> exact ⟨_, rfl⟩
  obtain ⟨identity, hidentity, hnone⟩ := hkey
  obtain ⟨pinned, hpinned⟩ := hpin
  unfold SshForwardTransporter.new
  rw [hidentity]
  dsimp only
  rw [if_neg, hpinned]
  · exact ⟨_, rfl⟩
  · rintro ⟨hno, hpassword⟩
    rw [hnone, Option.isNone_iff_eq_none] at hno
    rcases h with h | h
    · rw [hno] at h
      cases h
    · exact h hpassword

/-- `split_host_port` of `ssh.rs`. -/
def splitHostPort (addr : String) : Except SshError (String × UInt16) :=
  let parts : Except SshError (List Char × List Char) :=
    match addr.toList with
    | '[' :: rest =>
      match Text.cutFirst ']' rest with
      | none => .error (.protocol s!"unbalanced IPv6 brackets in {quoted addr}")
      | some (host, ':' :: port) => .ok (host, port)
      | some _ => .error (.protocol s!"missing port in {quoted addr}")
    | cs =>
      match Text.cutLast ':' cs with
      | none => .error (.protocol s!"invalid address {quoted addr}")
      | some x => .ok x
  match parts with
  | .error e => .error e
  | .ok (host, port) =>
    match Text.parseUnsigned (2 ^ 16) (String.ofList port) with
    | none => .error (.protocol s!"invalid port in {quoted addr}")
    | some n => .ok (String.ofList host, UInt16.ofNat n)

end Ssh

/-! ## Requests -/

def DEFAULT_USER_AGENT : String := "Chrome/78.0.3904.106"

/-- `basic_credentials`. -/
def basicCredentials (base64 : Bytes → String) (user : Option (String × Option String)) :
    Option String :=
  user.map fun (name, pass) => base64 (Text.utf8 (name ++ ":" ++ pass.getD ""))

def httpConnectRequest (base64 : Bytes → String) (target : String)
    (user : Option (String × Option String)) : Bytes :=
  Text.utf8 ("CONNECT " ++ target ++ " HTTP/1.1\r\nHost: " ++ target ++ "\r\nUser-Agent: " ++
    DEFAULT_USER_AGENT ++ "\r\nProxy-Connection: keep-alive\r\n" ++
    (match basicCredentials base64 user with
      | some creds => "Proxy-Authorization: Basic " ++ creds ++ "\r\n"
      | none => "") ++ "\r\n")

/-- The user id of SOCKS4: the name without the password, or nothing. -/
def userId (user : Option (String × Option String)) : String :=
  match user with
  | some (name, _) => name
  | none => ""

/-- SOCKS4a has a name after the user id and an invalid address before it. -/
def socks4ConnectRequest (target : String) (user : Option (String × Option String))
    (allowDomain : Bool) : Except ChainError Bytes :=
  match splitHostPort target with
  | .error e => .error e
  | .ok (host, port) =>
    match Net.Ipv4Addr.parse host with
    | some ip => .ok ([0x04, 0x01] ++ Bytes.be 2 port.toNat ++ ip.octets ++
        Text.utf8 (userId user) ++ [0x00])
    | none =>
      if allowDomain then
        .ok ([0x04, 0x01] ++ Bytes.be 2 port.toNat ++ [0, 0, 0, 1] ++
          Text.utf8 (userId user) ++ [0x00] ++ Text.utf8 host ++ [0x00])
      else
        .error (.proxyError
          "SOCKS4 requires an IPv4 target address; use socks4a for domains")

/-- The request after the greeting. -/
def socks5ConnectRequest (target : String) : Except ChainError Bytes :=
  match splitHostPort target with
  | .error e => .error e
  | .ok (host, port) =>
    .ok ([0x05, 0x01, 0x00] ++
      (match Net.Ipv4Addr.parse host with
        | some ip => 0x01 :: ip.octets
        | none =>
          match Net.Ipv6Addr.parse host with
          | some ip => 0x04 :: ip.octets
          | none => 0x03 :: UInt8.ofNat (Text.utf8 host).length :: Text.utf8 host)
      ++ Bytes.be 2 port.toNat)

namespace Ss

/-- The host is what stands before the last colon, with its brackets. -/
def encodeSsAddress (address : String) : Except HandlerError Bytes :=
  match Text.cutLast ':' address.toList with
  | none => .error (.proxy s!"invalid address: {address}")
  | some (host, port) =>
    match Text.parseUnsigned (2 ^ 16) (String.ofList port) with
    | none => .error (.proxy s!"invalid port: {String.ofList port}")
    | some n => .ok (Socks5.encodeAddress (String.ofList host) (UInt16.ofNat n))

/-- The address that `ShadowConnector` writes into its stream. -/
def connectRequest (user : Option (String × Option String)) (target : String) :
    Except HandlerError Bytes :=
  let method := (user.map (·.1)).getD "plain"
  match SsCipher.fromName method with
  | none => .error (.proxy s!"unknown shadowsocks cipher: {method}")
  | some _ => encodeSsAddress target

end Ss

namespace Relay

open Net

def RELAY_FLAG_UDP : UInt8 := 0x80

def FEATURE_USER_AUTH : UInt8 := 0x01
def FEATURE_ADDR : UInt8 := 0x02

def ADDR_IPV4 : UInt8 := 0x01
def ADDR_IPV6 : UInt8 := 0x04
def ADDR_DOMAIN : UInt8 := 0x03

/-- `split_host_port` of `relay.rs`. -/
def splitHostPort (addr : String) : Option (String × String) :=
  match addr.toList with
  | '[' :: rest =>
    match Text.cutFirst ']' rest with
    | some (host, ':' :: port) => some (String.ofList host, String.ofList port)
    | _ => none
  | cs => (Text.cutLast ':' cs).map fun x => (String.ofList x.1, String.ofList x.2)

/-! ## Writing -/

/-- A feature with its type and its length. -/
def feature (ftype : UInt8) (fdata : Bytes) : Bytes := ftype :: (Bytes.be 2 fdata.length ++ fdata)

def userData (user pass : Bytes) : Bytes :=
  UInt8.ofNat user.length :: (user ++ UInt8.ofNat pass.length :: pass)

def addrData (host : String) (port : UInt16) : Bytes :=
  (match Ipv4Addr.parse host with
    | some ip => ADDR_IPV4 :: ip.octets
    | none =>
      match Ipv6Addr.parse host with
      | some ip => ADDR_IPV6 :: ip.octets
      | none => ADDR_DOMAIN :: UInt8.ofNat (Text.utf8 host).length :: Text.utf8 host)
    ++ Bytes.be 2 port.toNat

def userFeature (user : Option (String × Option String)) : Bytes :=
  match user with
  | some (name, pass) =>
    feature FEATURE_USER_AUTH (userData (Text.utf8 name) (Text.utf8 (pass.getD "")))
  | none => []

/-- An address that does not split, or whose port is no number, is left out. -/
def addrFeature (address : String) : Bytes :=
  if address = "" then []
  else
    match splitHostPort address with
    | none => []
    | some (host, port) =>
      match Text.parseUnsigned (2 ^ 16) port with
      | none => []
      | some n => feature FEATURE_ADDR (addrData host (UInt16.ofNat n))

/-- The request that `RelayConnector::connect` writes. -/
def connectRequest (user : Option (String × Option String)) (network address : String) :
    Except HandlerError Bytes :=
  let udp := network ∈ ["udp", "udp4", "udp6"]
  let features := userFeature user ++ addrFeature address
  if 65535 < features.length then .error (.proxy "relay: feature block too large")
  else
    .ok ([RELAY_VERSION1, if udp then RELAY_FLAG_UDP else 0] ++ Bytes.be 2 features.length ++
      features)

end Relay

end RtProxy
